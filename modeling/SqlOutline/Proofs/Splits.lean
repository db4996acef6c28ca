import SqlOutline.Proofs.Fails
import SqlOutline.Proofs.Yields

namespace SqlOutline
open Parse

theorem Ahead.dropNoise_append {s : Ahead} (h : s.dropNoise ≠ []) (x : Ahead) :
    dropNoise (s ++ x) = s.dropNoise ++ x := by
  rw [dropNoise, List.dropWhile_append, if_neg (by simpa [dropNoise] using h)]
  rfl

namespace Outline

/-- The statements that are read from `s` one after the other up to its end, the noise in front of
them and that behind each. -/
inductive Splits (depth : Nat) : Ahead → List Token → List Statement → List (List Token) → Prop where
  | done {s : Ahead} (noise : s.dropNoise = []) : Splits depth s s [] []
  | step {s r : Ahead} {noise : List Token} {st : Statement} {sts : List Statement}
      {gaps : List (List Token)} (first : (Statement.read depth).Gives s.dropNoise st r)
      (rest : Splits depth r noise sts gaps) :
      Splits depth s (s.takeWhile Ahead.isNoise) (st :: sts) (noise :: gaps)

/-- After some statements of `s` there is one that comes to the fault `e`, where `r` is left. -/
inductive Fails (depth : Nat) : Ahead → Fault → Ahead → Prop where
  | here {s r : Ahead} {e : Fault} (start : s.dropNoise ≠ [])
      (first : (Statement.read depth).Fails s.dropNoise e r) : Fails depth s e r
  | later {s m r : Ahead} {st : Statement} {e : Fault}
      (first : (Statement.read depth).Gives s.dropNoise st m) (rest : Fails depth m e r) :
      Fails depth s e r

variable {depth : Nat} {s r : Ahead} {e : Fault} {st : Statement} {sts : List Statement}

theorem result_done (h : s.dropNoise = []) : (ofAhead depth s).result = .ok [] := by
  rw [ofAhead, if_pos (by simp [h])]
  rfl

theorem result_step (h : (Statement.read depth).Gives s.dropNoise st r) :
    (ofAhead depth s).result = (ofAhead depth r).result.map (st :: ·) := by
  obtain ⟨hstatements, hfault⟩ := ofAhead_cons h
  rw [result, result, hstatements, hfault]
  cases (ofAhead depth r).fault <;> rfl

theorem result_fault (start : s.dropNoise ≠ [])
    (h : (Statement.read depth).Fails s.dropNoise e r) : (ofAhead depth s).result = .error e := by
  rw [ofAhead, if_neg (by simpa using start)]
  dsimp only
  split
  next e' he =>
    cases h.1.symm.trans he
    rfl
  next st hst => cases h.1.symm.trans hst

theorem Splits.result {noise : List Token} {gaps : List (List Token)}
    (h : Splits depth s noise sts gaps) : (ofAhead depth s).result = .ok sts := by
  induction h with
  | done noise => exact result_done noise
  | step first _ ih => rw [result_step first, ih, Except.map]

theorem Fails.result (h : Fails depth s e r) : (ofAhead depth s).result = .error e := by
  induction h with
  | here start first => exact result_fault start first
  | later first _ ih => rw [result_step first, ih, Except.map]

/-- The recursion is on what a statement leaves, as where the outline is made. -/
theorem splits_or_fails (depth : Nat) (s : Ahead) :
    (∃ noise sts gaps, Splits depth s noise sts gaps) ∨ ∃ e r, Fails depth s e r := by
  induction hl : s.length using Nat.strongRecOn generalizing s with
  | ind l ih =>
    by_cases hs : s.dropNoise = []
    · exact .inl ⟨s, [], [], .done hs⟩
    · rcases gives_or_fails (Statement.read depth) s.dropNoise with ⟨st, h⟩ | ⟨e, h⟩
      · have hlt := Progresses.readStatement depth _ _ h.1
        have hle := s.dropNoise_suffix.length_le
        have hrest := ih _ (by omega) ((Statement.read depth).run s.dropNoise).ahead rfl
        rcases hrest with ⟨noise, sts, gaps, hr⟩ | ⟨e, r, hr⟩
        · exact .inl ⟨_, _, _, .step h hr⟩
        · exact .inr ⟨e, r, .later h hr⟩
      · exact .inr ⟨e, _, .here hs h⟩

theorem result_eq_ok_iff :
    (ofAhead depth s).result = .ok sts ↔ ∃ noise gaps, Splits depth s noise sts gaps := by
  constructor
  · intro h
    rcases splits_or_fails depth s with ⟨noise, sts', gaps, hs⟩ | ⟨e, r, hs⟩
    · cases h.symm.trans hs.result
      exact ⟨noise, gaps, hs⟩
    · cases h.symm.trans hs.result
  · intro h
    obtain ⟨noise, gaps, h⟩ := h
    exact h.result

theorem result_eq_error_iff : (ofAhead depth s).result = .error e ↔ ∃ r, Fails depth s e r := by
  constructor
  · intro h
    rcases splits_or_fails depth s with ⟨noise, sts', gaps, hs⟩ | ⟨e', r, hs⟩
    · cases h.symm.trans hs.result
    · cases h.symm.trans hs.result
      exact ⟨r, hs⟩
  · intro h
    obtain ⟨r, h⟩ := h
    exact h.result

theorem Fails.suffix (h : Fails depth s e r) : r <:+ s := by
  induction h with
  | here _ first => exact first.suffix.trans (Ahead.dropNoise_suffix _)
  | later first _ ih => exact ih.trans (first.suffix.trans (Ahead.dropNoise_suffix _))

end Outline

end SqlOutline
