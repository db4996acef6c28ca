namespace SqlOutline

/-- The values of JSON that the outputs need. Fields keep their order. -/
inductive Json where
  | null
  | bool (b : Bool)
  | number (n : Nat)
  | string (s : List Char)
  | array (xs : List Json)
  | object (fields : List (String × Json))

namespace Json

/-- Quotes, backslashes and control characters are escaped. All else stands for itself. -/
def escape (c : Char) : List Char :=
  match c with
  | '"' => ['\\', '"']
  | '\\' => ['\\', '\\']
  | '\x08' => ['\\', 'b']
  | '\t' => ['\\', 't']
  | '\n' => ['\\', 'n']
  | '\x0c' => ['\\', 'f']
  | '\r' => ['\\', 'r']
  | _ =>
    if c < ' ' then
      let digits := Nat.toDigits 16 c.toNat
      ['\\', 'u'] ++ List.replicate (4 - digits.length) '0' ++ digits
    else [c]

def quote (s : List Char) : List Char :=
  '"' :: s.flatMap escape ++ ['"']

def newline (indent : Nat) : List Char :=
  '\n' :: List.replicate indent ' '

/-- A list with its brackets, one item to a line. -/
def block (opening closing : Char) (indent : Nat) (items : List (List Char)) : List Char :=
  if items.isEmpty then [opening, closing]
  else
    opening :: newline (indent + 2) ++ (',' :: newline (indent + 2)).intercalate items ++
      newline indent ++ [closing]

mutual

/-- The value over several lines, `indent` deep already. -/
def pretty (indent : Nat) : Json → List Char
  | .null => "null".toList
  | .bool b => (if b then "true" else "false").toList
  | .number n => Nat.toDigits 10 n
  | .string s => quote s
  | .array xs => block '[' ']' indent (prettyItems (indent + 2) xs)
  | .object fields => block '{' '}' indent (prettyFields (indent + 2) fields)

def prettyItems (indent : Nat) : List Json → List (List Char)
  | [] => []
  | x :: xs => pretty indent x :: prettyItems indent xs

def prettyFields (indent : Nat) : List (String × Json) → List (List Char)
  | [] => []
  | (key, x) :: rest =>
    (quote key.toList ++ ": ".toList ++ pretty indent x) :: prettyFields indent rest

end

def ofOption {α : Type} (f : α → Json) : Option α → Json
  | none => .null
  | some a => f a

end Json

end SqlOutline
