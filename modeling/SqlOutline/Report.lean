import SqlOutline.Predicate
import SqlOutline.Statement

namespace SqlOutline
open Text

/-- A token with its place and kind, on one line. -/
def Token.line (t : Token) : List Char :=
  flushRight 5 (decimal t.span.first) ++ "..=".toList ++ flushLeft 5 (decimal t.span.last) ++
    ' ' :: flushLeft 22 t.kind.name.toList ++ ' ' :: printableLine t.text

/-- The clause without its trivia, one space between any two tokens. -/
def Clause.plainText (c : Clause) : List Char :=
  [' '].intercalate (c.significant.map Token.text)

def Clause.line (c : Clause) : List Char :=
  "  ".toList ++ flushLeft 14 c.kind.spelling.toList ++ ' ' :: flushLeft 12 c.span.text ++
    ' ' :: printableLine c.plainText

/-- A statement under its number, and below it a line for each clause. -/
def Statement.lines (number : Nat) (s : Statement) : List (List Char) :=
  ('#' :: decimal number ++ ' ' :: s.kind.spelling.toList ++ ' ' :: s.span.text) ::
    s.clauses.map Clause.line

def Statement.block (number : Nat) (s : Statement) : List Char :=
  (s.lines number).flatMap (· ++ ['\n'])

/-- The parts as they are: a part that holds a line break breaks the line. -/
def Predicate.line (p : Predicate) : List Char :=
  let joint := p.connective.elim [] (·.keyword.spelling.toList)
  "  ".toList ++ flushLeft 4 joint ++ ' ' :: p.field ++ " | ".toList ++ p.operator ++
    " | ".toList ++ p.value

end SqlOutline
