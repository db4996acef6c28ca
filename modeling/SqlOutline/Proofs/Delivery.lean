import SqlOutline.Proofs.Splits

namespace SqlOutline
open Parse

/-- What is found one after the other: the statements, and the fault behind them if there is one. -/
def Outline.items (o : Outline) : List (Except Fault Statement) :=
  o.statements.map .ok ++ o.fault.toList.map .error

namespace Outline

variable {depth : Nat} {s r : Ahead} {e : Fault} {st : Statement}

theorem items_done (h : s.dropNoise = []) : (ofAhead depth s).items = [] := by
  rw [ofAhead, if_pos (by simp [h])]
  rfl

theorem items_step (h : (Statement.read depth).Gives s.dropNoise st r) :
    (ofAhead depth s).items = .ok st :: (ofAhead depth r).items := by
  obtain ⟨hstatements, hfault⟩ := ofAhead_cons h
  rw [items, hstatements, hfault]
  rfl

theorem items_fault (start : s.dropNoise ≠ [])
    (h : (Statement.read depth).Fails s.dropNoise e r) : (ofAhead depth s).items = [.error e] := by
  rw [ofAhead, if_neg (by simpa using start)]
  dsimp only
  split
  next e' he =>
    cases h.1.symm.trans he
    rfl
  next st hst => cases h.1.symm.trans hst

/-- The statements of an outline are none, or the one that is read first and those of what it
leaves. -/
theorem statements_cases (depth : Nat) (s : Ahead) :
    (ofAhead depth s).statements = [] ∨
      ∃ st r, (Statement.read depth).Gives s.dropNoise st r ∧ r.length < s.length ∧
        (ofAhead depth s).statements = st :: (ofAhead depth r).statements := by
  by_cases hs : s.dropNoise = []
  · have hitems : (ofAhead depth s).items = [] := items_done hs
    rw [items, List.append_eq_nil_iff, List.map_eq_nil_iff] at hitems
    exact .inl hitems.1
  rcases gives_or_fails (Statement.read depth) s.dropNoise with ⟨st, h⟩ | ⟨e, h⟩
  · have hlt := Progresses.readStatement depth _ _ h.1
    have hle := s.dropNoise_suffix.length_le
    exact .inr ⟨st, _, h, by omega, (ofAhead_cons h).1⟩
  · have hitems := items_fault hs h
    rw [items] at hitems
    cases hsts : (ofAhead depth s).statements with
    | nil => exact .inl rfl
    | cons st sts =>
      rw [hsts] at hitems
      cases hitems

end Outline

namespace StatementReader

/-- What the reader has still to deliver. -/
def items (r : StatementReader) : List (Except Fault Statement) :=
  if r.failed then [] else (Outline.ofAhead r.depth r.ahead).items

/-- What the reader delivers when it is asked for an item once more after `k` times. -/
def item (r : StatementReader) : Nat → Option (Except Fault Statement)
  | 0 => r.next.1
  | k + 1 => r.next.2.item k

/-- A reader delivers the first of its items and keeps the others. After a fault it has none. -/
theorem next_items (r : StatementReader) :
    r.next.1 = r.items.head? ∧ r.next.2.items = r.items.tail := by
  by_cases hf : r.failed = true
  · simp [next, advance, items, hf]
  by_cases hs : r.ahead.dropNoise = []
  · have hend : (Outline.ofAhead r.depth []).items = [] := Outline.items_done rfl
    simp [next, advance, items, hf, hs, Outline.items_done hs, hend]
  have hstart : ¬ r.ahead.dropNoise.isEmpty = true := by simpa using hs
  rcases gives_or_fails (Statement.read r.depth) r.ahead.dropNoise with ⟨st, h⟩ | ⟨e, h⟩
  · simp [next, advance, items, hf, hstart, h.1, Outline.items_step h]
  · simp [next, advance, items, hf, hstart, h.1, Outline.items_fault hs h]

theorem item_eq (r : StatementReader) (k : Nat) : r.item k = r.items[k]? := by
  induction k generalizing r with
  | zero => rw [item, r.next_items.1, List.head?_eq_getElem?]
  | succ k ih => rw [item, ih, r.next_items.2, List.getElem?_tail]

end StatementReader

end SqlOutline
