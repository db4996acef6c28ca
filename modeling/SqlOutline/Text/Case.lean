namespace SqlOutline.Text

/-- ASCII letters in upper case. Every other character stays, so a text keeps its length. -/
def upper (t : List Char) : List Char :=
  t.map Char.toUpper

theorem upper_append (s t : List Char) : upper (s ++ t) = upper s ++ upper t :=
  List.map_append

/-- Parts joined by underscores or spaces, run together with the first letter of each left as it is
and the others in lower case. -/
def capitalise (t : List Char) : List Char :=
  go true t
where
  go : Bool → List Char → List Char
  | _, [] => []
  | start, c :: t =>
    if c = '_' ∨ c = ' ' then go true t else (if start then c else c.toLower) :: go false t

end SqlOutline.Text
