namespace SqlOutline

/-- How a text is to be read. -/
structure Settings where
  /-- A text in double quotes is an identifier, not a string. -/
  quoted : Bool := false
  /-- Runs of whitespace are tokens of their own. -/
  blanks : Bool := false
  /-- How many subqueries may stand inside one another. -/
  depth : Nat := 64
  deriving DecidableEq

end SqlOutline
