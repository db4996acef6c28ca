import SqlOutline.Proofs.Record
import SqlOutline.Proofs.Vocabulary

namespace SqlOutline

namespace Json

variable {α : Type} {f : Json → Option α} {g : α → Json}

/-- What stands in the field. A field that is not there holds nothing. -/
def field (key : String) (fields : List (String × Json)) : Json :=
  (fields.lookup key).getD .null

def number? : Json → Option Nat
  | .number n => some n
  | _ => none

def text? : Json → Option (List Char)
  | .string s => some s
  | _ => none

/-- The word of this name. -/
def word? (words : List α) (name : α → List Char) : Json → Option α
  | .string s => words.find? fun w => name w == s
  | _ => none

/-- A value, or nothing. -/
def optional? (f : Json → Option α) : Json → Option (Option α)
  | .null => some none
  | j => (f j).map some

def items? (f : Json → Option α) : Json → Option (List α)
  | .array js => js.mapM f
  | _ => none

theorem optional?_ofOption (h : ∀ a, f (g a) = some a) (hnull : ∀ a, g a ≠ .null) (a : Option α) :
    optional? f (ofOption g a) = some a := by
  cases a with
  | none => rfl
  | some a =>
    rw [ofOption, optional?, h]
    · rfl
    · exact hnull a

theorem items?_array (h : ∀ a, f (g a) = some a) (as : List α) :
    items? f (.array (as.map g)) = some as :=
  mapM_map_of_inverse h as

end Json

open Json

/-- The kinds that carry nothing. -/
def Kind.plain : List Kind := [
  .whitespace, .identifier, .systemIdentifier, .lineComment, .blockComment, .incompleteComment,
  .operator, .userVariable, .systemVariable, .number, .string, .incompleteString, .money, .binary,
  .incompleteIdentifier, .systemColumn]

def Punctuation.all : List Punctuation :=
  [.comma, .semicolon, .openParen, .closeParen, .period]

def ClauseKind.all : List ClauseKind := [
  .with, .select, .into, .from, .where, .groupBy, .having, .orderBy, .option, .for, .setOperator,
  .insert, .values, .defaultValues, .output, .execute, .update, .set, .delete, .merge, .using, .on,
  .when]

namespace Record

def TokenKind.ofConnector (k : Keyword) : TokenKind :=
  if ha : k = .and then .kind (.connective .and)
  else if ho : k = .or then .kind (.connective .or)
  else .connector k ⟨ha, ho⟩

def TokenKind.ofJson? : Json → Option TokenKind
  | .object [("Character", j)] =>
    (word? Punctuation.all (·.name.toList) j).map fun p => .kind (.punctuation p)
  | .object [("Keyword", j)] => (word? keywords Keyword.name j).map fun k => .kind (.keyword k)
  | .object [("Connector", j)] => (word? keywords Keyword.name j).map ofConnector
  | j => (word? Kind.plain (·.name.toList) j).map .kind

def Token.ofJson? : Json → Option Token
  | .object fields => do
    return {
      kind := ← TokenKind.ofJson? (field "kind" fields)
      start := ← number? (field "begin_position" fields)
      text := ← text? (field "text" fields) }
  | _ => none

def Clause.ofJson? : Json → Option Clause
  | .object fields => do
    return {
      kind := ← word? ClauseKind.all ClauseKind.name (field "kind" fields)
      tokens := ← items? Token.ofJson? (field "tokens" fields) }
  | _ => none

def Clause.optional? : Json → Option (Option Clause) :=
  Json.optional? Clause.ofJson?

mutual

def Select.ofJson? : Json → Option Select
  | .object fields => do
    return {
      withClause := ← Clause.optional? (field "with" fields)
      select := ← Clause.ofJson? (field "select" fields)
      into := ← Clause.optional? (field "into" fields)
      fromClause := ← Clause.optional? (field "from" fields)
      whereClause := ← Clause.optional? (field "where_clause" fields)
      groupBy := ← Clause.optional? (field "group_by" fields)
      having := ← Clause.optional? (field "having" fields)
      operations := ← SetOperation.among? fields
      orderBy := ← Clause.optional? (field "order_by" fields)
      forClause := ← Clause.optional? (field "for_clause" fields)
      option := ← Clause.optional? (field "option" fields) }
  | _ => none

/-- The operations among the fields of a query. -/
def SetOperation.among? : List (String × Json) → Option (List SetOperation)
  | [] => none
  | (key, j) :: rest =>
    if key = "set_operations" then
      match j with
      | .array js => SetOperation.ofJson? js
      | _ => none
    else SetOperation.among? rest

def SetOperation.ofJson? : List Json → Option (List SetOperation)
  | [] => some []
  | .object fields :: rest => do
    let operation := {
      operator := ← Clause.ofJson? (field "operator" fields)
      query := ← Select.among? fields }
    return operation :: (← SetOperation.ofJson? rest)
  | _ => none

/-- The query among the fields of an operation. -/
def Select.among? : List (String × Json) → Option Select
  | [] => none
  | (key, j) :: rest => if key = "query" then Select.ofJson? j else Select.among? rest

end

def Insert.ofJson? : Json → Option Insert
  | .object fields => do
    return {
      withClause := ← Clause.optional? (field "with" fields)
      insert := ← Clause.ofJson? (field "insert" fields)
      output := ← Clause.optional? (field "output" fields)
      values := ← Clause.optional? (field "values" fields)
      select := ← Json.optional? Select.ofJson? (field "select" fields)
      defaultValues := ← Clause.optional? (field "default_values" fields)
      execute := ← Clause.optional? (field "execute" fields) }
  | _ => none

def Update.ofJson? : Json → Option Update
  | .object fields => do
    return {
      withClause := ← Clause.optional? (field "with" fields)
      update := ← Clause.ofJson? (field "update" fields)
      set := ← Clause.ofJson? (field "set" fields)
      output := ← Clause.optional? (field "output" fields)
      fromClause := ← Clause.optional? (field "from" fields)
      whereClause := ← Clause.optional? (field "where_clause" fields)
      option := ← Clause.optional? (field "option" fields) }
  | _ => none

def Delete.ofJson? : Json → Option Delete
  | .object fields => do
    return {
      withClause := ← Clause.optional? (field "with" fields)
      delete := ← Clause.ofJson? (field "delete" fields)
      output := ← Clause.optional? (field "output" fields)
      fromClause := ← Clause.optional? (field "from" fields)
      whereClause := ← Clause.optional? (field "where_clause" fields)
      option := ← Clause.optional? (field "option" fields) }
  | _ => none

def Merge.ofJson? : Json → Option Merge
  | .object fields => do
    return {
      withClause := ← Clause.optional? (field "with" fields)
      merge := ← Clause.ofJson? (field "merge" fields)
      usingClause := ← Clause.ofJson? (field "using" fields)
      on := ← Clause.ofJson? (field "on" fields)
      branches := ← items? Clause.ofJson? (field "when" fields)
      output := ← Clause.optional? (field "output" fields)
      option := ← Clause.optional? (field "option" fields) }
  | _ => none

def Statement.ofJson? : Json → Option Statement
  | .object [("Select", j)] => (Select.ofJson? j).map .select
  | .object [("Insert", j)] => (Insert.ofJson? j).map .insert
  | .object [("Update", j)] => (Update.ofJson? j).map .update
  | .object [("Delete", j)] => (Delete.ofJson? j).map .delete
  | .object [("Merge", j)] => (Merge.ofJson? j).map .merge
  | _ => none

theorem word?_keyword (k : Keyword) : word? keywords Keyword.name (.string k.name) = some k :=
  (find?_name_iff Keyword.nodup_name).mpr ⟨k.mem_keywords, rfl⟩

theorem word?_punctuation (p : Punctuation) :
    word? Punctuation.all (·.name.toList) (.string p.name.toList) = some p := by
  cases p <;> rfl

theorem word?_clauseKind (k : ClauseKind) :
    word? ClauseKind.all ClauseKind.name (.string k.name) = some k := by
  cases k <;> rfl

@[simp] theorem TokenKind.ofJson?_toJson (k : TokenKind) : ofJson? k.toJson = some k := by
  cases k with
  | connector k other =>
    obtain ⟨hand, hor⟩ := other
    simp [toJson, ofJson?, word?_keyword, ofConnector, hand, hor]
  | kind k =>
    cases k with
    | keyword k => simp [toJson, ofJson?, Kind.toJson, Kind.name, word?_keyword]
    | punctuation p => simp [toJson, ofJson?, Kind.toJson, Kind.name, word?_punctuation]
    | connective c =>
      have hconnector : ofConnector c.keyword = .kind (.connective c) := by cases c <;> rfl
      simp [toJson, ofJson?, Kind.toJson, Kind.name, word?_keyword, hconnector]
    | _ => rfl

@[simp] theorem Token.ofJson?_toJson (t : Token) : ofJson? t.toJson = some t := by
  simp [toJson, ofJson?, field, List.lookup_cons, number?, text?]

@[simp] theorem Clause.ofJson?_toJson (c : Clause) : ofJson? c.toJson = some c := by
  have htokens := items?_array Token.ofJson?_toJson c.tokens
  simp [toJson, ofJson?, field, List.lookup_cons, word?_clauseKind, htokens]

@[simp] theorem Clause.optional?_toJson? (c : Option Clause) : optional? (toJson? c) = some c :=
  optional?_ofOption ofJson?_toJson nofun c

mutual

theorem Select.ofJson?_toJson (q : Select) : Select.ofJson? q.toJson = some q := by
  obtain ⟨w, select, into, fromClause, whereClause, groupBy, having, operations, orderBy, forClause,
    option⟩ := q
  have hoperations := SetOperation.ofJson?_toJson operations
  simp [Select.toJson, Select.ofJson?, field, List.lookup_cons, SetOperation.among?, hoperations]

theorem SetOperation.ofJson?_toJson (os : List SetOperation) :
    SetOperation.ofJson? (SetOperation.toJson os) = some os := by
  match os with
  | [] => simp [SetOperation.toJson, SetOperation.ofJson?]
  | ⟨operator, query⟩ :: rest =>
    have hquery := Select.ofJson?_toJson query
    have hrest := SetOperation.ofJson?_toJson rest
    simp [SetOperation.toJson, SetOperation.ofJson?, field, Select.among?, hquery, hrest]

end

theorem Select.toJson_ne_null (q : Select) : q.toJson ≠ .null := by
  cases q
  simp [toJson]

theorem Insert.ofJson?_toJson (s : Insert) : ofJson? s.toJson = some s := by
  have hselect := optional?_ofOption Select.ofJson?_toJson Select.toJson_ne_null s.select
  simp [toJson, ofJson?, field, List.lookup_cons, hselect]

theorem Update.ofJson?_toJson (s : Update) : ofJson? s.toJson = some s := by
  simp [toJson, ofJson?, field, List.lookup_cons]

theorem Delete.ofJson?_toJson (s : Delete) : ofJson? s.toJson = some s := by
  simp [toJson, ofJson?, field, List.lookup_cons]

theorem Merge.ofJson?_toJson (s : Merge) : ofJson? s.toJson = some s := by
  have hbranches := items?_array Clause.ofJson?_toJson s.branches
  simp [toJson, ofJson?, field, List.lookup_cons, hbranches]

theorem Statement.ofJson?_toJson (s : Statement) : ofJson? s.toJson = some s := by
  cases s with
  | select s => simp [toJson, ofJson?, Select.ofJson?_toJson]
  | insert s => simp [toJson, ofJson?, Insert.ofJson?_toJson]
  | update s => simp [toJson, ofJson?, Update.ofJson?_toJson]
  | delete s => simp [toJson, ofJson?, Delete.ofJson?_toJson]
  | merge s => simp [toJson, ofJson?, Merge.ofJson?_toJson]

end Record

/-- The statement that a value is written from. -/
def Statement.ofJson? (j : Json) : Option Statement :=
  (Record.Statement.ofJson? j).bind Record.Statement.statement?

theorem Statement.ofJson?_toJson (st : Statement) : ofJson? st.toJson = some st := by
  rw [ofJson?, ← st.toJson_record, Record.Statement.ofJson?_toJson]
  exact st.statement?_record

theorem Json.array_map_inj {α : Type} {f : Json → Option α} {g : α → Json}
    (h : ∀ a, f (g a) = some a) {as bs : List α} :
    Json.array (as.map g) = .array (bs.map g) ↔ as = bs := by
  refine ⟨fun heq => ?_, fun heq => heq ▸ rfl⟩
  have hitems := congrArg (items? f) heq
  rw [items?_array h, items?_array h] at hitems
  exact Option.some.inj hitems

/-- The JSON of a statement tells all of it, of any record even that no text comes to, and the JSON of
several statements tells them all. -/
theorem json_lossless :
    (∀ st : Statement, Statement.ofJson? st.toJson = some st) ∧
      (∀ st : Statement, st.record.toJson = st.toJson) ∧
      (∀ r : Record.Statement, Record.Statement.ofJson? r.toJson = some r) ∧
      (∀ sts sts' : List Statement,
        Json.array (sts.map Statement.toJson) = .array (sts'.map Statement.toJson) ↔ sts = sts') ∧
      ∀ rs rs' : List Record.Statement,
        Json.array (rs.map Record.Statement.toJson) = .array (rs'.map Record.Statement.toJson) ↔
          rs = rs' :=
  ⟨Statement.ofJson?_toJson, Statement.toJson_record, Record.Statement.ofJson?_toJson,
    fun _ _ => Json.array_map_inj Statement.ofJson?_toJson,
    fun _ _ => Json.array_map_inj Record.Statement.ofJson?_toJson⟩

end SqlOutline
