import SqlOutline.Outline
import SqlOutline.Proofs.Gives
import SqlOutline.Statement.Reader

namespace SqlOutline
open Parse

namespace StatementReader

def ofText (s : Settings) (t : List Char) : StatementReader :=
  { depth := s.depth, ahead := tokenize s t }

/-- The statement is one of those that the reader can come to deliver, whichever of its moves are
made, and whatever faults come after. -/
inductive Yields : StatementReader → Statement → Prop where
  | advance {r : StatementReader} {st : Statement} (moved : r.advance.1 = .ok true)
      (found : r.advance.2.current = some st) : Yields r st
  | next {r : StatementReader} {st : Statement} (found : r.next.1 = some (.ok st)) : Yields r st
  | afterAdvance {r : StatementReader} {st : Statement} (later : Yields r.advance.2 st) :
      Yields r st
  | afterNext {r : StatementReader} {st : Statement} (later : Yields r.next.2 st) : Yields r st

variable {r : StatementReader} {st : Statement}

theorem depth_advance (r : StatementReader) : r.advance.2.depth = r.depth := by
  unfold advance
  split
  · rfl
  split
  · rfl
  · dsimp only
    split <;> rfl

theorem ahead_advance (r : StatementReader) : r.advance.2.ahead <:+ r.ahead := by
  unfold advance
  split
  · exact List.suffix_refl _
  split
  · exact r.ahead.dropNoise_suffix
  · have h := ((Statement.read r.depth).forward r.ahead.dropNoise).trans r.ahead.dropNoise_suffix
    dsimp only
    split <;> exact h

/-- Taking the statement out leaves the rest of the reader as the move has left it. -/
theorem next_snd (r : StatementReader) :
    r.next.2.depth = r.advance.2.depth ∧ r.next.2.ahead = r.advance.2.ahead := by
  unfold next
  split <;> simp_all

theorem gives_of_advance (moved : r.advance.1 = .ok true) (found : r.advance.2.current = some st) :
    (Statement.read r.depth).Gives r.ahead.dropNoise st r.advance.2.ahead := by
  unfold advance at moved found ⊢
  split at moved
  · cases moved
  split at moved
  · cases moved
  · rename_i hf he
    rw [if_neg hf, if_neg he] at found ⊢
    dsimp only at moved found ⊢
    split at moved
    next s hs =>
      simp only [hs, Option.some.injEq] at found ⊢
      exact ⟨found ▸ hs, rfl⟩
    next => cases moved

theorem advance_of_next (found : r.next.1 = some (.ok st)) :
    r.advance.1 = .ok true ∧ r.advance.2.current = some st := by
  unfold next at found
  split at found
  next r' h =>
    rw [h]
    exact ⟨rfl, by simpa using found⟩
  next => cases found
  next => cases found

/-- A statement that a reader delivers is read from tokens that were ahead of it. -/
theorem Yields.gives (h : r.Yields st) :
    ∃ s r', Ahead.dropNoise s <:+ r.ahead ∧
      (Statement.read r.depth).Gives (Ahead.dropNoise s) st r' := by
  induction h with
  | @advance r st moved found =>
    exact ⟨r.ahead, _, r.ahead.dropNoise_suffix, gives_of_advance moved found⟩
  | @next r st found =>
    obtain ⟨moved, found⟩ := advance_of_next found
    exact ⟨r.ahead, _, r.ahead.dropNoise_suffix, gives_of_advance moved found⟩
  | @afterAdvance r st _ ih =>
    rw [depth_advance] at ih
    obtain ⟨s, r', hs, h⟩ := ih
    exact ⟨s, r', hs.trans (ahead_advance r), h⟩
  | @afterNext r st _ ih =>
    rw [(next_snd r).1, (next_snd r).2, depth_advance] at ih
    obtain ⟨s, r', hs, h⟩ := ih
    exact ⟨s, r', hs.trans (ahead_advance r), h⟩

end StatementReader

/-- An outline starts with the statement that is read first. -/
theorem Outline.ofAhead_cons {depth : Nat} {s r : Ahead} {st : Statement}
    (h : (Statement.read depth).Gives s.dropNoise st r) :
    (ofAhead depth s).statements = st :: (ofAhead depth r).statements ∧
      (ofAhead depth s).fault = (ofAhead depth r).fault := by
  have hlt := Parse.Progresses.readStatement depth _ _ h.1
  obtain ⟨ha, rfl⟩ := h
  rw [ofAhead]
  split
  next he =>
    rw [List.isEmpty_iff.mp he] at hlt
    exact absurd hlt (Nat.not_lt_zero _)
  next =>
    dsimp only
    split
    next e he => cases ha.symm.trans he
    next st' hst =>
      cases ha.symm.trans hst
      exact ⟨rfl, rfl⟩

end SqlOutline
