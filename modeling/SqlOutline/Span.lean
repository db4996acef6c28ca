import SqlOutline.Text.Column

namespace SqlOutline

/-- A stretch of text from the character at `first` to the character at `last`, both counted from
zero and both inside. -/
structure Span where
  first : Nat
  last : Nat
  deriving DecidableEq, Repr

namespace Span

def length (s : Span) : Nat :=
  s.last + 1 - s.first

def contains (s : Span) (p : Nat) : Bool :=
  s.first ≤ p && p ≤ s.last

/-- The shortest span over both. -/
def merge (s t : Span) : Span :=
  ⟨min s.first t.first, max s.last t.last⟩

def text (s : Span) : List Char :=
  Text.decimal s.first ++ "..=".toList ++ Text.decimal s.last

theorem contains_iff {s : Span} {p : Nat} : s.contains p = true ↔ s.first ≤ p ∧ p ≤ s.last := by
  simp [contains]

theorem merge_contains {s t : Span} {p : Nat} (h : s.contains p = true ∨ t.contains p = true) :
    (s.merge t).contains p = true := by
  simp only [contains_iff, merge] at *
  omega

end Span

end SqlOutline
