import SqlOutline.Proofs.Segments

namespace SqlOutline
open Parse

/-- How many parentheses the tokens open. -/
def Token.opened (ts : List Token) : Nat :=
  ts.countP (·.isPunctuation .openParen)

theorem Token.opened_append (ts us : List Token) : opened (ts ++ us) = opened ts + opened us :=
  List.countP_append

theorem Token.opened_of_suffix {ts us : List Token} (h : ts <:+ us) : opened ts ≤ opened us :=
  h.sublist.countP_le

/-- What can be the name of a target. -/
def Token.isName (t : Token) : Bool :=
  match t.kind with
  | .identifier | .incompleteIdentifier | .userVariable => true
  | _ => false

namespace Clause

/-- Read on its own, the clause is read to its end, and comes to a stop outside every parenthesis
and every CASE. -/
def Closed (kind : ClauseKind) (c : Clause) : Prop :=
  ∃ depth room scope, Scan (Select.readNested depth room) kind c.tokens c scope [] ∧
    scope.parens = 0 ∧ scope.cases = 0

/-- A slot that is empty or holds a closed clause of its kind. -/
def Fits (kind : ClauseKind) (slot : Option Clause) : Prop :=
  ∀ c ∈ slot, c.Closed kind

/-- A name stands outside every parenthesis. -/
def HasTarget (c : Clause) : Prop :=
  ∃ before name after, c.body = before ++ name :: after ∧ name.isName = true ∧
    Token.level 0 before = some 0

end Clause

structure Core.Grammatical (c : Core) : Prop where
  select : c.select.Closed .select
  into : Clause.Fits .into c.into
  fromClause : Clause.Fits .from c.fromClause
  whereClause : Clause.Fits .where c.whereClause
  groupBy : Clause.Fits .groupBy c.groupBy
  having : Clause.Fits .having c.having

structure Ending.Grammatical (e : Ending) : Prop where
  orderBy : Clause.Fits .orderBy e.orderBy
  forClause : Clause.Fits .for e.forClause
  option : Clause.Fits .option e.option

mutual

/-- A query of the grammar that no WITH stands before. -/
inductive Select.Grammatical : Select → Prop where
  | mk {c : Core} {os : List SetOperation} {e : Ending} (core : c.Grammatical)
      (operations : SetOperation.Grammatical os) (ending : e.Grammatical) :
      Select.Grammatical ⟨none, c, os, e⟩

/-- Each operand is the core of a query, or a whole query in parentheses, of which the operator ends
with the opening one and the query with the closing one. -/
inductive SetOperation.Grammatical : List SetOperation → Prop where
  | nil : SetOperation.Grammatical []
  | bare {operator : Clause} {c : Core} {os : List SetOperation}
      (closed : operator.Closed .setOperator) (core : c.Grammatical)
      (rest : SetOperation.Grammatical os) :
      SetOperation.Grammatical (⟨operator, .ofCore c⟩ :: os)
  | parens {operator : Clause} {paren close : Token} {q : Select} {os : List SetOperation}
      (closed : operator.Closed .setOperator) (opening : paren.isPunctuation .openParen = true)
      (query : q.Grammatical) (closing : close.isPunctuation .closeParen = true)
      (rest : SetOperation.Grammatical os) :
      SetOperation.Grammatical (⟨operator.push [paren], q.push [close]⟩ :: os)

end

inductive Source.Grammatical : Source → Prop where
  | values {c : Clause} (closed : c.Closed .values) : Grammatical (.values c)
  | select {q : Select} (query : q.Grammatical) : Grammatical (.select q)
  | defaultValues {c : Clause} (closed : c.Closed .defaultValues) : Grammatical (.defaultValues c)
  | execute {c : Clause} (closed : c.Closed .execute) : Grammatical (.execute c)

structure Insert.Grammatical (i : Insert) : Prop where
  withClause : Clause.Fits .with i.withClause
  insert : i.insert.Closed .insert
  output : Clause.Fits .output i.output
  source : i.source.Grammatical

structure Update.Grammatical (u : Update) : Prop where
  withClause : Clause.Fits .with u.withClause
  update : u.update.Closed .update
  set : u.set.Closed .set
  output : Clause.Fits .output u.output
  fromClause : Clause.Fits .from u.fromClause
  whereClause : Clause.Fits .where u.whereClause
  option : Clause.Fits .option u.option

/-- Before its target a DELETE takes FROM for a word of its own, so a FROM clause right behind it
needs a target in front. -/
structure Delete.Grammatical (d : Delete) : Prop where
  withClause : Clause.Fits .with d.withClause
  delete : d.delete.Closed .delete
  target : d.output = none → d.fromClause.isSome → d.delete.HasTarget
  output : Clause.Fits .output d.output
  fromClause : Clause.Fits .from d.fromClause
  whereClause : Clause.Fits .where d.whereClause
  option : Clause.Fits .option d.option

structure Merge.Grammatical (m : Merge) : Prop where
  withClause : Clause.Fits .with m.withClause
  merge : m.merge.Closed .merge
  usingClause : m.usingClause.Closed .using
  on : m.on.Closed .on
  branch : m.branch.Closed .when
  branches : ∀ c ∈ m.branches, c.Closed .when
  output : Clause.Fits .output m.output
  option : Clause.Fits .option m.option

/-- A statement of the grammar: any closed clauses in its slots, those that may be missing or not.
Its text is its tokens, one clause after the other. -/
inductive Statement.Grammatical : Statement → Prop where
  | select {w : Option Clause} {c : Core} {os : List SetOperation} {e : Ending}
      (withClause : Clause.Fits .with w) (query : Select.Grammatical ⟨none, c, os, e⟩) :
      Grammatical (.select ⟨w, c, os, e⟩)
  | insert {i : Insert} (h : i.Grammatical) : Grammatical (.insert i)
  | update {u : Update} (h : u.Grammatical) : Grammatical (.update u)
  | delete {d : Delete} (h : d.Grammatical) : Grammatical (.delete d)
  | merge {m : Merge} (h : m.Grammatical) : Grammatical (.merge m)

end SqlOutline
