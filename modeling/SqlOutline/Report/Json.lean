import SqlOutline.Json
import SqlOutline.Predicate

namespace SqlOutline

/-- A token without what its kind carries. -/
def Token.flatJson (t : Token) : Json :=
  .object [
    ("token_type", .string t.kind.name.toList),
    ("begin_position", .number t.span.first),
    ("end_position", .number t.span.last),
    ("text", .string t.text),
    ("is_complete", .bool !t.kind.isIncomplete)]

def Predicate.toJson (p : Predicate) : Json :=
  .object [
    ("connector", Json.ofOption (fun c => .string c.keyword.spelling.toList) p.connective),
    ("field", .string p.field),
    ("operator", .string p.operator),
    ("value", .string p.value)]

end SqlOutline
