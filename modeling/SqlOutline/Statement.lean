import SqlOutline.Clause

namespace SqlOutline

/-- The part of a query that each bare operand of a UNION repeats. -/
structure Core where
  select : Clause
  into : Option Clause := none
  fromClause : Option Clause := none
  whereClause : Option Clause := none
  groupBy : Option Clause := none
  having : Option Clause := none
  deriving DecidableEq

/-- What follows the last operand of a query. -/
structure Ending where
  orderBy : Option Clause := none
  forClause : Option Clause := none
  option : Option Clause := none
  deriving DecidableEq

mutual

structure Select where
  withClause : Option Clause
  core : Core
  operations : List SetOperation
  ending : Ending

/-- An operator and the query on its right. Around a query in parentheses the opening one ends the
operator and the closing one ends the query. -/
structure SetOperation where
  operator : Clause
  query : Select

end

namespace Core

def clauses (c : Core) : List Clause :=
  c.select :: [c.into, c.fromClause, c.whereClause, c.groupBy, c.having].filterMap id

/-- More tokens at the end of the last clause. -/
def push (ts : List Token) (c : Core) : Core :=
  match c with
  | { having := some h, .. } => { c with having := h.push ts }
  | { groupBy := some g, .. } => { c with groupBy := g.push ts }
  | { whereClause := some w, .. } => { c with whereClause := w.push ts }
  | { fromClause := some f, .. } => { c with fromClause := f.push ts }
  | { into := some i, .. } => { c with into := i.push ts }
  | _ => { c with select := c.select.push ts }

end Core

namespace Ending

def clauses (e : Ending) : List Clause :=
  [e.orderBy, e.forClause, e.option].filterMap id

/-- More tokens at the end of the last clause, if there is one. -/
def push? (ts : List Token) (e : Ending) : Option Ending :=
  match e with
  | { option := some o, .. } => some { e with option := o.push ts }
  | { forClause := some f, .. } => some { e with forClause := f.push ts }
  | { orderBy := some o, .. } => some { e with orderBy := o.push ts }
  | _ => none

end Ending

mutual

/-- The clauses in the order of the text, those of the operands in their places. -/
def Select.clauses : Select → List Clause
  | ⟨w, core, operations, ending⟩ =>
    w.toList ++ core.clauses ++ SetOperation.clauses operations ++ ending.clauses

def SetOperation.clauses : List SetOperation → List Clause
  | [] => []
  | ⟨operator, query⟩ :: rest => operator :: query.clauses ++ SetOperation.clauses rest

end

mutual

/-- More tokens at the end of the last clause. -/
def Select.push (ts : List Token) : Select → Select
  | ⟨w, core, operations, ending⟩ =>
    match ending.push? ts, SetOperation.push? ts operations with
    | some ending, _ => ⟨w, core, operations, ending⟩
    | none, some operations => ⟨w, core, operations, ending⟩
    | none, none => ⟨w, core.push ts, operations, ending⟩

/-- More tokens at the end of the last operand, if there is one. -/
def SetOperation.push? (ts : List Token) : List SetOperation → Option (List SetOperation)
  | [] => none
  | ⟨operator, query⟩ :: rest =>
    match SetOperation.push? ts rest with
    | some rest => some (⟨operator, query⟩ :: rest)
    | none => some [⟨operator, query.push ts⟩]

end

namespace Select

def ofCore (c : Core) : Select :=
  ⟨none, c, [], {}⟩

def tokens (q : Select) : List Token :=
  q.clauses.flatMap Clause.tokens

def span (q : Select) : Span :=
  Clause.spanOf q.clauses

end Select

/-- Where the rows of an INSERT come from. -/
inductive Source where
  | values (c : Clause)
  | select (q : Select)
  | defaultValues (c : Clause)
  | execute (c : Clause)

def Source.clauses : Source → List Clause
  | .values c | .defaultValues c | .execute c => [c]
  | .select q => q.clauses

structure Insert where
  withClause : Option Clause
  insert : Clause
  output : Option Clause
  source : Source

structure Update where
  withClause : Option Clause
  update : Clause
  set : Clause
  output : Option Clause
  fromClause : Option Clause
  whereClause : Option Clause
  option : Option Clause
  deriving DecidableEq

structure Delete where
  withClause : Option Clause
  delete : Clause
  output : Option Clause
  fromClause : Option Clause
  whereClause : Option Clause
  option : Option Clause
  deriving DecidableEq

/-- The rows merged, and at least one branch that says what becomes of them. -/
structure Merge where
  withClause : Option Clause
  merge : Clause
  usingClause : Clause
  on : Clause
  branch : Clause
  branches : List Clause
  output : Option Clause
  option : Option Clause
  deriving DecidableEq

def Insert.clauses (s : Insert) : List Clause :=
  s.withClause.toList ++ s.insert :: s.output.toList ++ s.source.clauses

def Update.clauses (s : Update) : List Clause :=
  s.withClause.toList ++ s.update :: s.set ::
    [s.output, s.fromClause, s.whereClause, s.option].filterMap id

def Delete.clauses (s : Delete) : List Clause :=
  s.withClause.toList ++ s.delete ::
    [s.output, s.fromClause, s.whereClause, s.option].filterMap id

def Merge.clauses (s : Merge) : List Clause :=
  s.withClause.toList ++ s.merge :: s.usingClause :: s.on :: s.branch :: s.branches ++
    [s.output, s.option].filterMap id

inductive StatementKind where
  | select | insert | update | delete | merge
  deriving DecidableEq

def StatementKind.spelling : StatementKind → String
  | .select => "SELECT"
  | .insert => "INSERT"
  | .update => "UPDATE"
  | .delete => "DELETE"
  | .merge => "MERGE"

inductive Statement where
  | select (s : Select)
  | insert (s : Insert)
  | update (s : Update)
  | delete (s : Delete)
  | merge (s : Merge)

namespace Statement

def kind : Statement → StatementKind
  | .select _ => .select
  | .insert _ => .insert
  | .update _ => .update
  | .delete _ => .delete
  | .merge _ => .merge

/-- The clauses in the order of the text. -/
def clauses : Statement → List Clause
  | .select s => s.clauses
  | .insert s => s.clauses
  | .update s => s.clauses
  | .delete s => s.clauses
  | .merge s => s.clauses

def tokens (s : Statement) : List Token :=
  s.clauses.flatMap Clause.tokens

def span (s : Statement) : Span :=
  Clause.spanOf s.clauses

end Statement

end SqlOutline
