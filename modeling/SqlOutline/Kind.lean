import SqlOutline.Word.Keyword

namespace SqlOutline

inductive Punctuation where
  | comma | semicolon | openParen | closeParen | period
  deriving DecidableEq

namespace Punctuation

def char : Punctuation → Char
  | .comma => ','
  | .semicolon => ';'
  | .openParen => '('
  | .closeParen => ')'
  | .period => '.'

def name : Punctuation → String
  | .comma => "Comma"
  | .semicolon => "Semicolon"
  | .openParen => "OpenParenthesis"
  | .closeParen => "CloseParenthesis"
  | .period => "Period"

def ofText? : List Char → Option Punctuation
  | [','] => some .comma
  | [';'] => some .semicolon
  | ['('] => some .openParen
  | [')'] => some .closeParen
  | ['.'] => some .period
  | _ => none

theorem ofText?_char (p : Punctuation) : ofText? [p.char] = some p := by
  cases p <;> rfl

theorem eq_char_of_ofText? {t : List Char} {p : Punctuation} (h : ofText? t = some p) :
    t = [p.char] := by
  unfold ofText? at h
  split at h <;> cases h <;> rfl

end Punctuation

/-- The words that join two predicates. -/
inductive Connective where
  | and | or
  deriving DecidableEq

def Connective.keyword : Connective → Keyword
  | .and => .and
  | .or => .or

/-- What a token is. Words whose identity the grammar needs carry it. -/
inductive Kind where
  | whitespace
  | punctuation (p : Punctuation)
  | identifier
  | systemIdentifier
  | keyword (k : Keyword)
  | connective (c : Connective)
  | lineComment
  | blockComment
  | incompleteComment
  | operator
  | userVariable
  | systemVariable
  | number
  | string
  | incompleteString
  | money
  | binary
  | incompleteIdentifier
  | systemColumn
  deriving DecidableEq

namespace Kind

/-- The name in every output. What a kind carries has no part in it. -/
def name : Kind → String
  | .whitespace => "Whitespace"
  | .punctuation _ => "Character"
  | .identifier => "Identifier"
  | .systemIdentifier => "SystemIdentifier"
  | .keyword _ => "Keyword"
  | .connective _ => "Connector"
  | .lineComment => "SingleLineComment"
  | .blockComment => "MultilineComment"
  | .incompleteComment => "IncompleteComment"
  | .operator => "Operator"
  | .userVariable => "Variable"
  | .systemVariable => "SystemVariable"
  | .number => "NumericLiteral"
  | .string => "StringLiteral"
  | .incompleteString => "IncompleteString"
  | .money => "MoneyLiteral"
  | .binary => "BinaryLiteral"
  | .incompleteIdentifier => "IncompleteIdentifier"
  | .systemColumn => "SystemColumnIdentifier"

/-- The text ended before the mark that closes such a token. -/
def isIncomplete : Kind → Bool
  | .incompleteComment | .incompleteString | .incompleteIdentifier => true
  | _ => false

def isComment : Kind → Bool
  | .lineComment | .blockComment | .incompleteComment => true
  | _ => false

/-- Whitespace and comments mean nothing to the grammar. -/
def isTrivia : Kind → Bool
  | .whitespace => true
  | k => k.isComment

end Kind

end SqlOutline
