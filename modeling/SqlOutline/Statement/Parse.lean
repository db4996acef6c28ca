import SqlOutline.Clause.Parse

namespace SqlOutline
open Parse

namespace Select

def readCore (sub : Parse Select) : Parse Core := do
  let select ← clause sub .select
  let into ← clause? sub .into
  let fromClause ← clause? sub .from
  let whereClause ← clause? sub .where
  let groupBy ← clause? sub .groupBy
  let having ← clause? sub .having
  pure { select, into, fromClause, whereClause, groupBy, having }

/-- The query on the right of an operator: bare, or whole and in parentheses. -/
def readOperand (sub : Parse Select) (operator : Clause) : Parse SetOperation := do
  match ← take? (·.isPunctuation .openParen) with
  | none => return ⟨operator, .ofCore (← readCore sub)⟩
  | some paren =>
    let gap ← trivia
    if ← atKeyword [.select] then
      let query ← sub
      let close ← expect "')'" (·.isPunctuation .closeParen)
      let rest ← trivia
      pure ⟨operator.push (paren :: gap), query.push (close :: rest)⟩
    else failExpecting "SELECT"

def readOperations (sub : Parse Select) : Parse (List SetOperation) :=
  each ClauseKind.setOperator.rule.leading fun lead => do
    readOperand sub (← Clause.following sub .setOperator lead)

/-- A query whose own subqueries are read with `sub`. -/
def read (sub : Parse Select) (withClause : Option Clause) : Parse Select := do
  let core ← readCore sub
  let operations ← readOperations sub
  let orderBy ← clause? sub .orderBy
  let forClause ← clause? sub .for
  let option ← clause? sub .option
  pure ⟨withClause, core, operations, { orderBy, forClause, option }⟩

/-- A query in parentheses, `depth` others being open around it and `room` more allowed inside
them. -/
def readNested : (depth room : Nat) → Parse Select
  | depth, 0 => fail fun s => .tooDeep depth (s.current.elim 0 (·.start))
  | depth, room + 1 => do
    log (.subquery (depth + 1))
    read (readNested (depth + 1) room) none

end Select

namespace Statement

/-- The next keyword tells where the rows of an INSERT come from. -/
def readSource (sub : Parse Select) : Parse Source := do
  if ← atKeyword [.values] then .values <$> clause sub .values
  else if ← atKeyword [.select] then .select <$> Select.read sub none
  else if ← atKeyword [.default] then .defaultValues <$> clause sub .defaultValues
  else if ← atKeyword [.exec, .execute] then .execute <$> clause sub .execute
  else failExpecting "VALUES, SELECT, DEFAULT VALUES or EXECUTE"

def readInsert (sub : Parse Select) (withClause : Option Clause) : Parse Insert := do
  let insert ← clause sub .insert
  let output ← clause? sub .output
  let source ← readSource sub
  pure { withClause, insert, output, source }

def readUpdate (sub : Parse Select) (withClause : Option Clause) : Parse Update := do
  let update ← clause sub .update
  let set ← clause sub .set
  let output ← clause? sub .output
  let fromClause ← clause? sub .from
  let whereClause ← clause? sub .where
  let option ← clause? sub .option
  pure { withClause, update, set, output, fromClause, whereClause, option }

def readDelete (sub : Parse Select) (withClause : Option Clause) : Parse Delete := do
  let delete ← clause sub .delete
  let output ← clause? sub .output
  let fromClause ← clause? sub .from
  let whereClause ← clause? sub .where
  let option ← clause? sub .option
  pure { withClause, delete, output, fromClause, whereClause, option }

def readMerge (sub : Parse Select) (withClause : Option Clause) : Parse Merge := do
  let merge ← clause sub .merge
  let usingClause ← clause sub .using
  let on ← clause sub .on
  let branch ← clause sub .when
  let branches ← Parse.clauses sub .when
  let output ← clause? sub .output
  let option ← clause? sub .option
  pure { withClause, merge, usingClause, on, branch, branches, output, option }

/-- What a fault names where a statement has to start. -/
def expected : String :=
  "SELECT, INSERT, UPDATE, DELETE or MERGE"

/-- The statement that the next token starts. A token that starts none is a fault of its own, unless
a WITH clause has promised a statement. -/
def readMain (sub : Parse Select) (withClause : Option Clause) : Parse Statement := do
  match ← current with
  | none => failExpecting expected
  | some t =>
    match t.kind with
    | .keyword .select => .select <$> Select.read sub withClause
    | .keyword .insert => .insert <$> readInsert sub withClause
    | .keyword .update => .update <$> readUpdate sub withClause
    | .keyword .delete => .delete <$> readDelete sub withClause
    | .keyword .merge => .merge <$> readMerge sub withClause
    | _ =>
      if withClause.isSome then failExpecting expected
      else fail fun _ => .unrecognized t.text t.start

/-- One statement, up to the semicolon that ends it or to whatever cannot belong to it. Subqueries
may stand `depth` deep. -/
def read (depth : Nat) : Parse Statement := do
  let sub := Select.readNested 0 depth
  let withClause ← clause? sub .with
  let statement ← readMain sub withClause
  log (.parsed statement.kind statement.span)
  pure statement

end Statement

end SqlOutline
