import SqlOutline.Kind
import SqlOutline.Text.Alphabetic
import SqlOutline.Text.Blank
import SqlOutline.Word.Currency
import SqlOutline.Word.System

namespace SqlOutline.Lexeme
open Text

/-- Whether a block comment that is `depth` deep closes with the last character of the text, and not
before. A mark is two characters, and no character belongs to two marks. -/
def closesComment : Nat → List Char → Bool
  | depth, '/' :: '*' :: t => closesComment (depth + 1) t
  | depth, '*' :: '/' :: t => if depth ≤ 1 then t.isEmpty else closesComment (depth - 1) t
  | depth, _ :: t => closesComment depth t
  | _, [] => false

/-- A delimiter inside a quoted text is doubled, so a closed text holds an even number of them, its
own two included. -/
def quotedKind (delimiter : Char) (t : List Char) : Kind :=
  if t.count delimiter % 2 = 0 then .string else .incompleteString

/-- The signs that open an operator. -/
def operatorSigns : List Char :=
  ['=', '~', '-', '+', '*', '/', '<', '>', '!', '&', '|', '^', '%', ':']

def operatorWords : List String :=
  ["LIKE", "NOT", "IS", "IN"]

/-- The kind of a lexeme that is none of the literals, comments, variables or operators. -/
def wordKind (quoted : Bool) (t : List Char) : Kind :=
  match Punctuation.ofText? t with
  | some p => .punctuation p
  | none =>
    if upper t = "AND".toList then .connective .and
    else if upper t = "OR".toList then .connective .or
    else match Keyword.ofText? t with
      | some k => .keyword k
      | none =>
        if isSystemIdentifier t then .systemIdentifier
        else if t.head? = some '[' ∧ t.count ']' % 2 = 0 then .incompleteIdentifier
        else if quoted ∧ t.head? = some '"' ∧ t.count '"' % 2 = 1 then .incompleteIdentifier
        else .identifier

/-- The kind of any text taken as one lexeme. The first rule that fits decides. -/
def kind (quoted : Bool) : List Char → Kind
  | [] => .identifier
  | c :: s =>
    let t := c :: s
    if isBlank c then .whitespace
    else if c = '@' then if isSystemVariable t then .systemVariable else .userVariable
    else if "--".toList.isPrefixOf t then .lineComment
    else if "/*".toList.isPrefixOf t then
      if closesComment 1 (s.drop 1) then .blockComment else .incompleteComment
    else if c = '\'' ∨ "N'".toList.isPrefixOf t then quotedKind '\'' t
    else if c = '"' ∧ ¬ quoted then quotedKind '"' t
    else if c = '$' then if s.head?.any isAlphabetic then .systemColumn else .money
    else if isCurrencySign c then .money
    else if c = '0' ∧ s.head?.any (fun d => d = 'x' || d = 'X') then .binary
    else if c.isDigit ∨ (c = '.' ∧ s.head?.any Char.isDigit) then .number
    else if operatorSigns.contains c ∨ operatorWords.any (·.toList == upper t) then .operator
    else wordKind quoted t

end SqlOutline.Lexeme
