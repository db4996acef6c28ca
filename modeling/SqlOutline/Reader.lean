import SqlOutline.Text.Blank

namespace SqlOutline

/-- Characters one at a time. The one just read may be put back, once, to be read again. -/
structure Reader where
  ahead : List Char
  /-- NUL before the first read and after the last. -/
  current : Char := '\x00'
  /-- The place of the current character, -1 before the first read. Putting back does not move it. -/
  position : Int := -1
  returned : Option Char := none
  ended : Bool := false
  deriving DecidableEq

namespace Reader

/-- What is still to be read. A read beyond the end is final. -/
def unread (r : Reader) : List Char :=
  if r.ended then [] else r.returned.toList ++ r.ahead

/-- Reads one character, or learns that none is left. -/
def read (r : Reader) : Bool × Reader :=
  if r.ended then (false, r)
  else match r.returned, r.ahead with
    | some c, _ => (true, { r with current := c, returned := none })
    | none, c :: t => (true, { r with ahead := t, current := c, position := r.position + 1 })
    | none, [] => (false, { r with current := '\x00', ended := true })

/-- The current character is read again by the next read, also when that found no more. -/
def putBack (r : Reader) : Reader :=
  { r with returned := some r.current, ended := false }

theorem read_true_length {r : Reader} (h : r.read.1 = true) :
    r.read.2.unread.length + 1 = r.unread.length := by
  unfold read at h ⊢
  unfold unread
  cases he : r.ended
  · cases hr : r.returned
    · cases ha : r.ahead <;> simp_all
    · simp
  · simp_all

/-- Reads until a character that is no whitespace. -/
def readPastBlanks (r : Reader) : Bool × Reader :=
  if r.read.1 then
    if Text.isBlank r.read.2.current then r.read.2.readPastBlanks else r.read
  else r.read
termination_by r.unread.length
decreasing_by
  have := read_true_length ‹r.read.1 = true›
  omega

end Reader

end SqlOutline
