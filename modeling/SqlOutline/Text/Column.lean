namespace SqlOutline.Text

/-- At least `width` characters, the text on the right. -/
def flushRight (width : Nat) (t : List Char) : List Char :=
  List.replicate (width - t.length) ' ' ++ t

/-- At least `width` characters, the text on the left. -/
def flushLeft (width : Nat) (t : List Char) : List Char :=
  t ++ List.replicate (width - t.length) ' '

/-- A number in decimal. -/
def decimal (n : Nat) : List Char :=
  Nat.toDigits 10 n

end SqlOutline.Text
