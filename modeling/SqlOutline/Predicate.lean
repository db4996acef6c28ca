import SqlOutline.Clause

namespace SqlOutline

/-- One comparison of a condition. -/
structure Predicate where
  /-- What joins it to the one before. -/
  connective : Option Connective := none
  field : List Char := []
  operator : List Char := []
  value : List Char := []
  deriving DecidableEq

namespace Predicate

def isEmpty (p : Predicate) : Bool :=
  p.connective.isNone && p.field.isEmpty && p.operator.isEmpty && p.value.isEmpty

def addWord (part word : List Char) : List Char :=
  if part.isEmpty then word else part ++ ' ' :: word

/-- Names and punctuation make the field, operators the operator, and all else the value. -/
def add (p : Predicate) (t : Token) : Predicate :=
  match t.kind with
  | .identifier | .systemIdentifier | .punctuation _ => { p with field := addWord p.field t.text }
  | .operator => { p with operator := addWord p.operator t.text }
  | _ => { p with value := addWord p.value t.text }

/-- Goes on with the predicate begun. Each connective begins another. -/
def split (p : Predicate) : List Token → List Predicate
  | [] => if p.isEmpty then [] else [p]
  | t :: ts =>
    match t.connective? with
    | some c => p :: split { connective := some c } ts
    | none => split (p.add t) ts

end Predicate

/-- The predicates of what a clause holds after its leading keyword. -/
def Clause.predicates (c : Clause) : List Predicate :=
  Predicate.split {} (c.significant.drop 1)

end SqlOutline
