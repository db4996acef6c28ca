import SqlOutline.Statement.Parse

namespace SqlOutline

/-- The statements ahead, one at a time. After a fault there are no more: where it left the tokens
means nothing. -/
structure StatementReader where
  depth : Nat
  ahead : Ahead
  current : Option Statement := none
  failed : Bool := false

namespace StatementReader

/-- Moves to the next statement and tells whether there is one. -/
def advance (r : StatementReader) : Except Fault Bool × StatementReader :=
  if r.failed then (.ok false, { r with current := none })
  else if r.ahead.dropNoise.isEmpty then
    (.ok false, { r with ahead := r.ahead.dropNoise, current := none })
  else
    let reply := (Statement.read r.depth).run r.ahead.dropNoise
    match reply.answer with
    | .ok s => (.ok true, { r with ahead := reply.ahead, current := some s })
    | .error e => (.error e, { r with ahead := reply.ahead, current := none, failed := true })

/-- Moves to the next statement and takes it out of the reader. -/
def next (r : StatementReader) : Option (Except Fault Statement) × StatementReader :=
  match r.advance with
  | (.ok true, r') => (r'.current.map .ok, { r' with current := none })
  | (.ok false, r') => (none, r')
  | (.error e, r') => (some (.error e), r')

end StatementReader

end SqlOutline
