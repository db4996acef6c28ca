import SqlOutline.Text.GraphemeExtend
import SqlOutline.Text.Printable

namespace SqlOutline.Text

/-- The letter that stands for a character after a backslash. Both codes below share these. -/
def escapeLetter : Char → Option Char
  | '\x00' => some '0'
  | '\t' => some 't'
  | '\n' => some 'n'
  | '\r' => some 'r'
  | '"' => some '"'
  | '\'' => some '\''
  | '\\' => some '\\'
  | _ => none

/-- The code point in lower-case hexadecimal, filled with zeros to `width` digits. -/
def escapeCode (width : Nat) (c : Char) : List Char :=
  let digits := Nat.toDigits 16 c.toNat
  ['\\', 'u', '{'] ++ List.replicate (width - digits.length) '0' ++ digits ++ ['}']

/-- Only the characters from space to `~` stand for themselves. -/
def escapeStrict (c : Char) : List Char :=
  match escapeLetter c with
  | some e => ['\\', e]
  | none => if ' ' ≤ c ∧ c ≤ '~' then [c] else escapeCode 4 c

/-- Every printable character stands for itself, save that a mark may not open the text: it would
join whatever stands before. -/
def escapePrintable (first : Bool) (c : Char) : List Char :=
  match escapeLetter c with
  | some e => ['\\', e]
  | none => if isPrintable c && !(first && isJoining c) then [c] else escapeCode 1 c

/-- A text on one line of printable ASCII. -/
def asciiLine (t : List Char) : List Char :=
  t.flatMap escapeStrict

/-- A text on one line of printable characters. -/
def printableLine : List Char → List Char
  | [] => []
  | c :: t => escapePrintable true c ++ t.flatMap (escapePrintable false)

end SqlOutline.Text
