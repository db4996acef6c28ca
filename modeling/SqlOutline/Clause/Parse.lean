import SqlOutline.Clause.Rule
import SqlOutline.Parse

namespace SqlOutline
open Parse

/-- What an opening parenthesis brings with it. A query that stands right behind it is read with
`sub`, and all of it belongs to the clause. If that query does not reach its closing parenthesis,
the clause goes on inside. -/
def Clause.group (sub : Parse Select) (scope : Scope) (paren : Token) :
    Parse (List Token × Scope) := do
  let gap ← trivia
  if ← atKeyword [.select] then
    let query ← sub
    match ← take? (·.isPunctuation .closeParen) with
    | some close => pure (paren :: gap ++ query.tokens ++ [close], scope)
    | none => pure (paren :: gap ++ query.tokens, scope.after paren)
  else pure (paren :: gap, scope.after paren)

def Clause.piece (sub : Parse Select) (scope : Scope) (t : Token) : Parse (List Token × Scope) :=
  if t.isPunctuation .openParen then Clause.group sub scope t else pure ([t], scope.after t)

/-- The second keyword of a clause that has one, with what stands before it. -/
def Clause.second (kind : ClauseKind) : Parse (List Token) := do
  match kind.rule.second with
  | none => pure []
  | some k =>
    let gap ← trivia
    let second ← expect k.spelling (·.isKeyword k)
    pure (gap ++ [second])

/-- A clause whose leading keyword has been read. -/
def Clause.following (sub : Parse Select) (kind : ClauseKind) (lead : Token) : Parse Clause := do
  let second ← Clause.second kind
  let (body, _) ← collect kind.rule.stops (Clause.piece sub) {}
  pure ⟨kind, lead, second ++ body⟩

namespace Parse

def clause (sub : Parse Select) (kind : ClauseKind) : Parse Clause := do
  let lead ← expect kind.rule.expected (·.isOneOf kind.rule.leading)
  Clause.following sub kind lead

/-- The clause if its leading keyword stands next. -/
def clause? (sub : Parse Select) (kind : ClauseKind) : Parse (Option Clause) := do
  match ← take? (·.isOneOf kind.rule.leading) with
  | some lead => return some (← Clause.following sub kind lead)
  | none => pure none

/-- Clauses of one kind for as long as their leading keyword stands next. -/
def clauses (sub : Parse Select) (kind : ClauseKind) : Parse (List Clause) :=
  each kind.rule.leading (Clause.following sub kind)

end Parse

end SqlOutline
