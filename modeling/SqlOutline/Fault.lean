import SqlOutline.Statement

namespace SqlOutline

/-- Why a text is no sequence of statements. -/
inductive Fault where
  | unexpectedToken (expected : String) (found : List Char) (position : Nat)
  | unexpectedEnd (expected : String)
  /-- No statement starts so. -/
  | unrecognized (found : List Char) (position : Nat)
  /-- Subqueries stand inside one another beyond the limit. -/
  | tooDeep (limit position : Nat)
  deriving DecidableEq

namespace Fault

/-- The place of the token at fault. At the end of the text there is none. -/
def position? : Fault → Option Nat
  | .unexpectedToken _ _ p | .unrecognized _ p | .tooDeep _ p => some p
  | .unexpectedEnd _ => none

def message : Fault → List Char
  | .unexpectedToken expected found p =>
    "Expected ".toList ++ expected.toList ++ ", found '".toList ++ found ++
      "' at position ".toList ++ Text.decimal p
  | .unexpectedEnd expected => "Unexpected end of input: expected ".toList ++ expected.toList
  | .unrecognized found p =>
    "Unrecognized statement starting with '".toList ++ found ++ "' at position ".toList ++
      Text.decimal p
  | .tooDeep limit p =>
    "Subqueries nested deeper than ".toList ++ Text.decimal limit ++
      " levels at position ".toList ++ Text.decimal p

end Fault

/-- What the log of a parse tells. -/
inductive Event where
  | subquery (depth : Nat)
  | parsed (kind : StatementKind) (span : Span)
  | failed (fault : Fault)
  deriving DecidableEq

end SqlOutline
