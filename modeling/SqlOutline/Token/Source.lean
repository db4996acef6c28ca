import SqlOutline.Lexeme.Munch
import SqlOutline.Reader
import SqlOutline.Settings
import SqlOutline.Token

namespace SqlOutline
open Lexeme

/-- Reads what belongs to a lexeme. The first character that does not is put back. -/
def Reader.munch (m : Munch) (r : Reader) : List Char × Reader :=
  if r.read.1 then
    match m.next r.read.2.current with
    | none => ([], r.read.2.putBack)
    | some m' =>
      let rest := r.read.2.munch m'
      (r.read.2.current :: rest.1, rest.2)
  else ([], r.read.2)
termination_by r.unread.length
decreasing_by
  have := Reader.read_true_length ‹r.read.1 = true›
  omega

/-- The tokens of a text, one at a time. -/
structure TokenSource where
  settings : Settings
  reader : Reader
  current : Option Token := none
  ended : Bool := false

namespace TokenSource

def ofText (s : Settings) (t : List Char) : TokenSource :=
  { settings := s, reader := { ahead := t } }

/-- Moves to the next token. At the end of the text there is none, and none after. -/
def advance (src : TokenSource) : TokenSource :=
  if src.ended then { src with current := none }
  else
    let read := if src.settings.blanks then src.reader.read else src.reader.readPastBlanks
    let first := read.2
    if read.1 then
      let munch := first.munch (.start first.current)
      let lexeme := first.current :: munch.1
      { src with
        reader := munch.2
        current := some (.ofLexeme src.settings.quoted first.position.toNat lexeme) }
    else { src with reader := first, current := none, ended := true }

/-- Moves to the next token and tells whether there is one. -/
def move (src : TokenSource) : Bool × TokenSource :=
  (!src.advance.ended, src.advance)

/-- Moves to the next token and answers with it. The source keeps it as its current token. -/
def next (src : TokenSource) : Option Token × TokenSource :=
  match src.move with
  | (true, src) => (src.current, src)
  | (false, src) => (none, src)

end TokenSource

end SqlOutline
