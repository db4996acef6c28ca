import SqlOutline.Json
import SqlOutline.Statement

namespace SqlOutline

/-- A kind that carries a word is an object of one field. -/
def Kind.toJson (k : Kind) : Json :=
  match k with
  | .punctuation p => .object [(k.name, .string p.name.toList)]
  | .keyword w => .object [(k.name, .string w.name)]
  | .connective c => .object [(k.name, .string c.keyword.name)]
  | _ => .string k.name.toList

def Token.toJson (t : Token) : Json :=
  .object [("kind", t.kind.toJson), ("begin_position", .number t.start), ("text", .string t.text)]

def Clause.toJson (c : Clause) : Json :=
  .object [("kind", .string c.kind.name), ("tokens", .array (c.tokens.map Token.toJson))]

def Clause.toJson? : Option Clause → Json :=
  Json.ofOption Clause.toJson

mutual

def Select.toJson : Select → Json
  | ⟨w, core, operations, ending⟩ =>
    .object [
      ("with", Clause.toJson? w),
      ("select", core.select.toJson),
      ("into", Clause.toJson? core.into),
      ("from", Clause.toJson? core.fromClause),
      ("where_clause", Clause.toJson? core.whereClause),
      ("group_by", Clause.toJson? core.groupBy),
      ("having", Clause.toJson? core.having),
      ("set_operations", .array (SetOperation.toJson operations)),
      ("order_by", Clause.toJson? ending.orderBy),
      ("for_clause", Clause.toJson? ending.forClause),
      ("option", Clause.toJson? ending.option)]

def SetOperation.toJson : List SetOperation → List Json
  | [] => []
  | ⟨operator, query⟩ :: rest =>
    .object [("operator", operator.toJson), ("query", query.toJson)] :: SetOperation.toJson rest

end

/-- Of the four sources one has a value. -/
def Source.fields : Source → List (String × Json)
  | .values c =>
    [("values", c.toJson), ("select", .null), ("default_values", .null), ("execute", .null)]
  | .select q =>
    [("values", .null), ("select", q.toJson), ("default_values", .null), ("execute", .null)]
  | .defaultValues c =>
    [("values", .null), ("select", .null), ("default_values", c.toJson), ("execute", .null)]
  | .execute c =>
    [("values", .null), ("select", .null), ("default_values", .null), ("execute", c.toJson)]

def Insert.toJson (s : Insert) : Json :=
  .object ([
    ("with", Clause.toJson? s.withClause),
    ("insert", s.insert.toJson),
    ("output", Clause.toJson? s.output)] ++ s.source.fields)

def Update.toJson (s : Update) : Json :=
  .object [
    ("with", Clause.toJson? s.withClause),
    ("update", s.update.toJson),
    ("set", s.set.toJson),
    ("output", Clause.toJson? s.output),
    ("from", Clause.toJson? s.fromClause),
    ("where_clause", Clause.toJson? s.whereClause),
    ("option", Clause.toJson? s.option)]

def Delete.toJson (s : Delete) : Json :=
  .object [
    ("with", Clause.toJson? s.withClause),
    ("delete", s.delete.toJson),
    ("output", Clause.toJson? s.output),
    ("from", Clause.toJson? s.fromClause),
    ("where_clause", Clause.toJson? s.whereClause),
    ("option", Clause.toJson? s.option)]

def Merge.toJson (s : Merge) : Json :=
  .object [
    ("with", Clause.toJson? s.withClause),
    ("merge", s.merge.toJson),
    ("using", s.usingClause.toJson),
    ("on", s.on.toJson),
    ("when", .array ((s.branch :: s.branches).map Clause.toJson)),
    ("output", Clause.toJson? s.output),
    ("option", Clause.toJson? s.option)]

def Statement.toJson : Statement → Json
  | .select s => .object [("Select", s.toJson)]
  | .insert s => .object [("Insert", s.toJson)]
  | .update s => .object [("Update", s.toJson)]
  | .delete s => .object [("Delete", s.toJson)]
  | .merge s => .object [("Merge", s.toJson)]

end SqlOutline
