import Mathlib.Data.List.Basic
import SqlOutline.Statement.Json

namespace SqlOutline

/-! The records that a statement is written from. Their fields have all the values of their types, also
those that no text comes to: an INSERT of no source or of several, a MERGE that has no branch, a
clause without tokens. -/

namespace Record

inductive TokenKind where
  | kind (k : Kind)
  /-- A connector of a word that joins nothing. -/
  | connector (k : Keyword) (other : k ≠ .and ∧ k ≠ .or)

structure Token where
  kind : TokenKind
  start : Nat
  text : List Char

structure Clause where
  kind : ClauseKind
  tokens : List Token

mutual

structure Select where
  withClause : Option Clause
  select : Clause
  into : Option Clause
  fromClause : Option Clause
  whereClause : Option Clause
  groupBy : Option Clause
  having : Option Clause
  operations : List SetOperation
  orderBy : Option Clause
  forClause : Option Clause
  option : Option Clause

structure SetOperation where
  operator : Clause
  query : Select

end

structure Insert where
  withClause : Option Clause
  insert : Clause
  output : Option Clause
  values : Option Clause
  select : Option Select
  defaultValues : Option Clause
  execute : Option Clause

structure Update where
  withClause : Option Clause
  update : Clause
  set : Clause
  output : Option Clause
  fromClause : Option Clause
  whereClause : Option Clause
  option : Option Clause

structure Delete where
  withClause : Option Clause
  delete : Clause
  output : Option Clause
  fromClause : Option Clause
  whereClause : Option Clause
  option : Option Clause

structure Merge where
  withClause : Option Clause
  merge : Clause
  usingClause : Clause
  on : Clause
  branches : List Clause
  output : Option Clause
  option : Option Clause

inductive Statement where
  | select (s : Select)
  | insert (s : Insert)
  | update (s : Update)
  | delete (s : Delete)
  | merge (s : Merge)

def TokenKind.toJson : TokenKind → Json
  | .kind k => k.toJson
  | .connector k _ => .object [("Connector", .string k.name)]

def Token.toJson (t : Token) : Json :=
  .object [("kind", t.kind.toJson), ("begin_position", .number t.start), ("text", .string t.text)]

def Clause.toJson (c : Clause) : Json :=
  .object [("kind", .string c.kind.name), ("tokens", .array (c.tokens.map Token.toJson))]

def Clause.toJson? : Option Clause → Json :=
  Json.ofOption Clause.toJson

mutual

def Select.toJson : Select → Json
  | ⟨w, select, into, fromClause, whereClause, groupBy, having, operations, orderBy, forClause,
      option⟩ =>
    .object [
      ("with", Clause.toJson? w),
      ("select", select.toJson),
      ("into", Clause.toJson? into),
      ("from", Clause.toJson? fromClause),
      ("where_clause", Clause.toJson? whereClause),
      ("group_by", Clause.toJson? groupBy),
      ("having", Clause.toJson? having),
      ("set_operations", .array (SetOperation.toJson operations)),
      ("order_by", Clause.toJson? orderBy),
      ("for_clause", Clause.toJson? forClause),
      ("option", Clause.toJson? option)]

def SetOperation.toJson : List SetOperation → List Json
  | [] => []
  | ⟨operator, query⟩ :: rest =>
    .object [("operator", operator.toJson), ("query", query.toJson)] :: SetOperation.toJson rest

end

def Insert.toJson (s : Insert) : Json :=
  .object [
    ("with", Clause.toJson? s.withClause),
    ("insert", s.insert.toJson),
    ("output", Clause.toJson? s.output),
    ("values", Clause.toJson? s.values),
    ("select", Json.ofOption Select.toJson s.select),
    ("default_values", Clause.toJson? s.defaultValues),
    ("execute", Clause.toJson? s.execute)]

def Update.toJson (s : Update) : Json :=
  .object [
    ("with", Clause.toJson? s.withClause),
    ("update", s.update.toJson),
    ("set", s.set.toJson),
    ("output", Clause.toJson? s.output),
    ("from", Clause.toJson? s.fromClause),
    ("where_clause", Clause.toJson? s.whereClause),
    ("option", Clause.toJson? s.option)]

def Delete.toJson (s : Delete) : Json :=
  .object [
    ("with", Clause.toJson? s.withClause),
    ("delete", s.delete.toJson),
    ("output", Clause.toJson? s.output),
    ("from", Clause.toJson? s.fromClause),
    ("where_clause", Clause.toJson? s.whereClause),
    ("option", Clause.toJson? s.option)]

def Merge.toJson (s : Merge) : Json :=
  .object [
    ("with", Clause.toJson? s.withClause),
    ("merge", s.merge.toJson),
    ("using", s.usingClause.toJson),
    ("on", s.on.toJson),
    ("when", .array (s.branches.map Clause.toJson)),
    ("output", Clause.toJson? s.output),
    ("option", Clause.toJson? s.option)]

def Statement.toJson : Statement → Json
  | .select s => .object [("Select", s.toJson)]
  | .insert s => .object [("Insert", s.toJson)]
  | .update s => .object [("Update", s.toJson)]
  | .delete s => .object [("Delete", s.toJson)]
  | .merge s => .object [("Merge", s.toJson)]

end Record

def Token.record (t : Token) : Record.Token :=
  ⟨.kind t.kind, t.start, t.text⟩

def Clause.record (c : Clause) : Record.Clause :=
  ⟨c.kind, c.tokens.map Token.record⟩

def Clause.record? : Option Clause → Option Record.Clause :=
  Option.map Clause.record

mutual

def Select.record : Select → Record.Select
  | ⟨w, core, operations, ending⟩ =>
    { withClause := Clause.record? w
      select := core.select.record
      into := Clause.record? core.into
      fromClause := Clause.record? core.fromClause
      whereClause := Clause.record? core.whereClause
      groupBy := Clause.record? core.groupBy
      having := Clause.record? core.having
      operations := SetOperation.record operations
      orderBy := Clause.record? ending.orderBy
      forClause := Clause.record? ending.forClause
      option := Clause.record? ending.option }

def SetOperation.record : List SetOperation → List Record.SetOperation
  | [] => []
  | ⟨operator, query⟩ :: rest => ⟨operator.record, query.record⟩ :: SetOperation.record rest

end

/-- Of the four sources one is there. -/
def Insert.record (s : Insert) : Record.Insert :=
  let none : Record.Insert :=
    ⟨Clause.record? s.withClause, s.insert.record, Clause.record? s.output, .none, .none, .none, .none⟩
  match s.source with
  | .values c => { none with values := some c.record }
  | .select q => { none with select := some q.record }
  | .defaultValues c => { none with defaultValues := some c.record }
  | .execute c => { none with execute := some c.record }

def Update.record (s : Update) : Record.Update where
  withClause := Clause.record? s.withClause
  update := s.update.record
  set := s.set.record
  output := Clause.record? s.output
  fromClause := Clause.record? s.fromClause
  whereClause := Clause.record? s.whereClause
  option := Clause.record? s.option

def Delete.record (s : Delete) : Record.Delete where
  withClause := Clause.record? s.withClause
  delete := s.delete.record
  output := Clause.record? s.output
  fromClause := Clause.record? s.fromClause
  whereClause := Clause.record? s.whereClause
  option := Clause.record? s.option

def Merge.record (s : Merge) : Record.Merge where
  withClause := Clause.record? s.withClause
  merge := s.merge.record
  usingClause := s.usingClause.record
  on := s.on.record
  branches := (s.branch :: s.branches).map Clause.record
  output := Clause.record? s.output
  option := Clause.record? s.option

def Statement.record : Statement → Record.Statement
  | .select s => .select s.record
  | .insert s => .insert s.record
  | .update s => .update s.record
  | .delete s => .delete s.record
  | .merge s => .merge s.record

namespace Record

/-! What a record is the record of, if it is one of what a text can come to. -/

def TokenKind.kind? : TokenKind → Option Kind
  | .kind k => some k
  | .connector _ _ => none

def Token.token? (t : Token) : Option SqlOutline.Token := do
  return ⟨← t.kind.kind?, t.start, t.text⟩

def Clause.clause? (c : Clause) : Option SqlOutline.Clause := do
  match ← c.tokens.mapM Token.token? with
  | [] => none
  | lead :: body => return ⟨c.kind, lead, body⟩

mutual

def Select.query? : Select → Option SqlOutline.Select
  | ⟨w, select, into, fromClause, whereClause, groupBy, having, operations, orderBy, forClause,
      option⟩ => do
    let core := {
      select := ← select.clause?
      into := ← into.mapM Clause.clause?
      fromClause := ← fromClause.mapM Clause.clause?
      whereClause := ← whereClause.mapM Clause.clause?
      groupBy := ← groupBy.mapM Clause.clause?
      having := ← having.mapM Clause.clause? }
    let ending := {
      orderBy := ← orderBy.mapM Clause.clause?
      forClause := ← forClause.mapM Clause.clause?
      option := ← option.mapM Clause.clause? }
    return ⟨← w.mapM Clause.clause?, core, ← SetOperation.operations? operations, ending⟩

def SetOperation.operations? : List SetOperation → Option (List SqlOutline.SetOperation)
  | [] => some []
  | ⟨operator, query⟩ :: rest => do
    return ⟨← operator.clause?, ← query.query?⟩ :: (← SetOperation.operations? rest)

end

/-- The one source there is. -/
def Insert.source? : Insert → Option Source
  | ⟨_, _, _, some c, none, none, none⟩ => Source.values <$> c.clause?
  | ⟨_, _, _, none, some q, none, none⟩ => Source.select <$> q.query?
  | ⟨_, _, _, none, none, some c, none⟩ => Source.defaultValues <$> c.clause?
  | ⟨_, _, _, none, none, none, some c⟩ => Source.execute <$> c.clause?
  | _ => none

def Statement.statement? : Statement → Option SqlOutline.Statement
  | .select s => SqlOutline.Statement.select <$> s.query?
  | .insert s => do
    return .insert {
      withClause := ← s.withClause.mapM Clause.clause?
      insert := ← s.insert.clause?
      output := ← s.output.mapM Clause.clause?
      source := ← s.source? }
  | .update s => do
    return .update {
      withClause := ← s.withClause.mapM Clause.clause?
      update := ← s.update.clause?
      set := ← s.set.clause?
      output := ← s.output.mapM Clause.clause?
      fromClause := ← s.fromClause.mapM Clause.clause?
      whereClause := ← s.whereClause.mapM Clause.clause?
      option := ← s.option.mapM Clause.clause? }
  | .delete s => do
    return .delete {
      withClause := ← s.withClause.mapM Clause.clause?
      delete := ← s.delete.clause?
      output := ← s.output.mapM Clause.clause?
      fromClause := ← s.fromClause.mapM Clause.clause?
      whereClause := ← s.whereClause.mapM Clause.clause?
      option := ← s.option.mapM Clause.clause? }
  | .merge s => do
    match ← s.branches.mapM Clause.clause? with
    | [] => none
    | branch :: branches =>
      return .merge {
        withClause := ← s.withClause.mapM Clause.clause?
        merge := ← s.merge.clause?
        usingClause := ← s.usingClause.clause?
        on := ← s.on.clause?
        branch := branch
        branches := branches
        output := ← s.output.mapM Clause.clause?
        option := ← s.option.mapM Clause.clause? }

end Record

section statement

theorem mapM_map_of_inverse {α β : Type} {f : α → β} {g : β → Option α} (h : ∀ a, g (f a) = some a)
    (as : List α) : (as.map f).mapM g = some as := by
  induction as with
  | nil => rfl
  | cons a as ih => simp [h, ih]

@[simp] theorem Token.token?_record (t : Token) : t.record.token? = some t := rfl

@[simp] theorem Clause.clause?_record (c : Clause) : c.record.clause? = some c := by
  simp only [Record.Clause.clause?, record, mapM_map_of_inverse Token.token?_record]
  rfl

@[simp] theorem Clause.clause?_record? (c : Option Clause) :
    (Clause.record? c).mapM Record.Clause.clause? = some c := by
  cases c with
  | none => rfl
  | some c => simp [record?]

mutual

theorem Select.query?_record (q : Select) : q.record.query? = some q := by
  obtain ⟨w, core, operations, ending⟩ := q
  simp [Select.record, Record.Select.query?, SetOperation.operations?_record operations]

theorem SetOperation.operations?_record (os : List SetOperation) :
    Record.SetOperation.operations? (SetOperation.record os) = some os := by
  match os with
  | [] => rfl
  | ⟨operator, query⟩ :: rest =>
    simp [SetOperation.record, Record.SetOperation.operations?, Select.query?_record query,
      SetOperation.operations?_record rest]

end

/-- A statement is found again in its record. -/
theorem Statement.statement?_record (st : Statement) : st.record.statement? = some st := by
  cases st with
  | select q => simp [record, Record.Statement.statement?, Select.query?_record]
  | insert s =>
    obtain ⟨w, insert, output, source⟩ := s
    cases source <;>
      simp [record, Record.Statement.statement?, Insert.record, Record.Insert.source?,
        Select.query?_record]
  | update s => simp [record, Record.Statement.statement?, Update.record]
  | delete s => simp [record, Record.Statement.statement?, Delete.record]
  | merge s =>
    simp [record, Record.Statement.statement?, Merge.record,
      mapM_map_of_inverse Clause.clause?_record]

end statement

@[simp] theorem Record.Clause.toJson?_none : Clause.toJson? none = .null := rfl

@[simp] theorem Record.Clause.toJson?_some (c : Clause) : Clause.toJson? (some c) = c.toJson := rfl

theorem Token.toJson_record (t : Token) : t.record.toJson = t.toJson := rfl

@[simp] theorem Clause.toJson_record (c : Clause) : c.record.toJson = c.toJson := by
  simp [record, toJson, Record.Clause.toJson, Function.comp_def, Token.toJson_record]

@[simp] theorem Clause.toJson_record? (c : Option Clause) :
    Record.Clause.toJson? (Clause.record? c) = Clause.toJson? c := by
  cases c with
  | none => rfl
  | some c => exact c.toJson_record

mutual

theorem Select.toJson_record (q : Select) : q.record.toJson = q.toJson := by
  obtain ⟨w, core, operations, ending⟩ := q
  simp [Select.record, Select.toJson, Record.Select.toJson, SetOperation.toJson_record operations]

theorem SetOperation.toJson_record (os : List SetOperation) :
    Record.SetOperation.toJson (SetOperation.record os) = SetOperation.toJson os := by
  match os with
  | [] => rfl
  | ⟨operator, query⟩ :: rest =>
    simp [SetOperation.record, SetOperation.toJson, Record.SetOperation.toJson,
      Select.toJson_record query, SetOperation.toJson_record rest]

end

/-- A statement is written as its record is. -/
theorem Statement.toJson_record (st : Statement) : st.record.toJson = st.toJson := by
  cases st with
  | select q => simp [record, toJson, Record.Statement.toJson, Select.toJson_record]
  | insert s =>
    obtain ⟨w, insert, output, source⟩ := s
    cases source <;>
      simp [record, toJson, Record.Statement.toJson, Insert.record, Insert.toJson,
        Record.Insert.toJson, Source.fields, Select.toJson_record, Json.ofOption]
  | update s => simp [record, toJson, Record.Statement.toJson, Update.record, Update.toJson,
      Record.Update.toJson]
  | delete s => simp [record, toJson, Record.Statement.toJson, Delete.record, Delete.toJson,
      Record.Delete.toJson]
  | merge s => simp [record, toJson, Record.Statement.toJson, Merge.record, Merge.toJson,
      Record.Merge.toJson]

end SqlOutline
