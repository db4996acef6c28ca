import SqlOutline.Text.Blank
import SqlOutline.Word.Currency

namespace SqlOutline.Lexeme
open Text

/-- What the characters of a lexeme read so far say about the one that follows. Each character
decides at once whether it still belongs, so no character is read twice. -/
inductive Munch where
  /-- Nothing more belongs. -/
  | full
  /-- One of these may follow, and nothing after it. -/
  | oneOf (signs : List Char)
  | blank
  | dash
  | slash
  | dot
  | letterN
  | zero
  | dollar
  | lineComment
  /-- Inside so many comments; `last` is the character before, unless a mark took it. -/
  | blockComment (depth : Nat) (last : Option Char)
  | quoted (closer : Char)
  /-- The closer was read: the same again is text, and all else stands outside. -/
  | quoteEnd (closer : Char)
  | binary
  | binaryBackslash
  | binaryReturn
  | digits (point : Bool)
  | exponent
  | exponentDigits
  | money
  | amount (point : Bool)
  | word
  deriving DecidableEq

/-- The signs that end a word. A period, a quote and a dollar do not. -/
def wordStops : List Char :=
  [',', ';', '(', ')', '+', '-', '*', '=', '/', '<', '>', '!', '%', '^', '&', '|', '~', ':', '[',
    '\\']

def endsWord (c : Char) : Bool :=
  isBlank c || wordStops.contains c || (c != '$' && isCurrencySign c)

def isHexDigit (c : Char) : Bool :=
  c.isDigit || ('a' ≤ c && c ≤ 'f') || ('A' ≤ c && c ≤ 'F')

namespace Munch

/-- What the first character of a lexeme says. -/
def start (c : Char) : Munch :=
  if isBlank c then .blank
  else if c.isDigit then if c = '0' then .zero else .digits false
  else match c with
    | ',' | ';' | '(' | ')' | '~' => .full
    | '<' => .oneOf ['>', '=']
    | '!' => .oneOf ['=', '<', '>']
    | '=' => .oneOf ['*']
    | '&' | '|' | '^' | '+' | '*' | '%' | '>' => .oneOf ['=']
    | ':' => .oneOf [':']
    | '.' => .dot
    | '-' => .dash
    | '/' => .slash
    | 'N' => .letterN
    | '\'' => .quoted '\''
    | '"' => .quoted '"'
    | '[' => .quoted ']'
    | '$' => .dollar
    | _ => if isCurrencySign c then .money else .word

def afterWord (c : Char) : Option Munch :=
  if endsWord c then none else some .word

def afterBinary (c : Char) : Option Munch :=
  if isHexDigit c then some .binary
  else if c = '\\' then some .binaryBackslash
  else none

def afterDigits (point : Bool) (c : Char) : Option Munch :=
  if c.isDigit then some (.digits point)
  else if c = '.' && !point then some (.digits true)
  else if c = 'e' || c = 'E' then some .exponent
  else none

def afterAmount (point : Bool) (c : Char) : Option Munch :=
  if c.isDigit then some (.amount point)
  else if c = '.' && !point then some (.amount true)
  else none

/-- The state after one more character, or `none` if that character does not belong. -/
def next : Munch → Char → Option Munch
  | .full, _ => none
  | .oneOf signs, c => if signs.contains c then some .full else none
  | .blank, c => if isBlank c then some .blank else none
  | .dash, c => if c = '-' then some .lineComment else if c = '=' then some .full else none
  | .slash, c =>
    if c = '*' then some (.blockComment 1 none) else if c = '=' then some .full else none
  | .dot, c => if c.isDigit then some (.digits true) else none
  | .letterN, c => if c = '\'' then some (.quoted '\'') else afterWord c
  | .zero, c => if c = 'x' || c = 'X' then some .binary else afterDigits false c
  | .dollar, c =>
    if c = '+' || c = '-' then some (.amount false)
    else if c.isDigit || c = '.' then afterAmount false c
    else afterWord c
  | .lineComment, c => if c = '\r' || c = '\n' then none else some .lineComment
  | .blockComment depth last, c =>
    if last = some '/' ∧ c = '*' then some (.blockComment (depth + 1) none)
    else if last = some '*' ∧ c = '/' then
      some (if depth ≤ 1 then .full else .blockComment (depth - 1) none)
    else some (.blockComment depth (some c))
  | .quoted closer, c => some (if c = closer then .quoteEnd closer else .quoted closer)
  | .quoteEnd closer, c => if c = closer then some (.quoted closer) else none
  | .binary, c => afterBinary c
  | .binaryBackslash, c =>
    if c = '\r' then some .binaryReturn else if c = '\n' then some .binary else afterBinary c
  | .binaryReturn, c => if c = '\n' then some .binary else afterBinary c
  | .digits point, c => afterDigits point c
  | .exponent, c => if c = '+' || c = '-' || c.isDigit then some .exponentDigits else none
  | .exponentDigits, c => if c.isDigit then some .exponentDigits else none
  | .money, c => if c = '+' || c = '-' then some (.amount false) else afterAmount false c
  | .amount point, c => afterAmount point c
  | .word, c => afterWord c

/-- The longest run of characters that belongs, and what follows it. -/
def run : Munch → List Char → List Char × List Char
  | _, [] => ([], [])
  | m, c :: t =>
    match m.next c with
    | none => ([], c :: t)
    | some m' =>
      let r := run m' t
      (c :: r.1, r.2)

/-- Nothing is lost between a lexeme and what follows it. -/
theorem run_append (m : Munch) (t : List Char) : (m.run t).1 ++ (m.run t).2 = t := by
  induction t generalizing m with
  | nil => rfl
  | cons c t ih =>
    unfold run
    split
    · rfl
    · simp [ih]

theorem run_snd_length_le (m : Munch) (t : List Char) : (m.run t).2.length ≤ t.length := by
  have h := congrArg List.length (m.run_append t)
  simp only [List.length_append] at h
  omega

end Munch

end SqlOutline.Lexeme
