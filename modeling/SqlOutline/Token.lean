import SqlOutline.Lexeme.Kind
import SqlOutline.Span
import SqlOutline.Text.Escape

namespace SqlOutline

/-- A piece of the text, just as it stands there, with the place of its first character. -/
structure Token where
  kind : Kind
  start : Nat
  text : List Char
  deriving DecidableEq

namespace Token

def ofLexeme (quoted : Bool) (start : Nat) (t : List Char) : Token :=
  ⟨Lexeme.kind quoted t, start, t⟩

def length (t : Token) : Nat :=
  t.text.length

/-- A token of a text is never empty. For an empty one the span would end before it starts. -/
def span (t : Token) : Span :=
  ⟨t.start, t.start + t.length - 1⟩

def isTrivia (t : Token) : Bool :=
  t.kind.isTrivia

def isKeyword (k : Keyword) (t : Token) : Bool :=
  t.kind = .keyword k

/-- One of `ks`, as a keyword: a connective is none. -/
def isOneOf (ks : List Keyword) (t : Token) : Bool :=
  ks.any t.isKeyword

def isPunctuation (p : Punctuation) (t : Token) : Bool :=
  t.kind = .punctuation p

/-- The word that a keyword or connective spells. -/
def keyword? (t : Token) : Option Keyword :=
  match t.kind with
  | .keyword k => some k
  | .connective c => some c.keyword
  | _ => none

def connective? (t : Token) : Option Connective :=
  match t.kind with
  | .connective c => some c
  | _ => none

/-- The token on one line of ASCII. -/
def display (t : Token) : List Char :=
  "[Type: ".toList ++ t.kind.name.toList ++ "; Text: \"".toList ++ Text.asciiLine t.text ++
    "\"; BeginPosition: ".toList ++ Text.decimal t.start ++ "; Length: ".toList ++
    Text.decimal t.length ++ [']']

end Token

end SqlOutline
