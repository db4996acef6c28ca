import SqlOutline.Parse.Progress
import SqlOutline.Token.Tokenize

namespace SqlOutline

/-- The statements of a text as far as the first fault, and what the log tells of them. -/
structure Outline where
  statements : List Statement := []
  fault : Option Fault := none
  log : List Event := []

namespace Outline

/-- Reads statement after statement. Only noise may stand between two of them, but none has to. -/
def ofAhead (depth : Nat) (s : Ahead) : Outline :=
  if s.dropNoise.isEmpty then {}
  else
    let reply := (Statement.read depth).run s.dropNoise
    match h : reply.answer with
    | .error e => { fault := some e, log := reply.log }
    | .ok statement =>
      have := Parse.Progresses.readStatement depth _ _ h
      let rest := ofAhead depth reply.ahead
      { rest with statements := statement :: rest.statements, log := reply.log ++ rest.log }
termination_by s.length
decreasing_by exact Nat.lt_of_lt_of_le this (List.dropWhile_suffix _).length_le

def ofText (s : Settings) (t : List Char) : Outline :=
  ofAhead s.depth (tokenize s t)

/-- All statements, or the first fault alone. -/
def result (o : Outline) : Except Fault (List Statement) :=
  match o.fault with
  | some e => .error e
  | none => .ok o.statements

end Outline

end SqlOutline
