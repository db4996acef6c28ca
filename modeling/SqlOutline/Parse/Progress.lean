import SqlOutline.Statement.Parse

namespace SqlOutline

/-- A parse that succeeds has read at least one token. -/
def Parse.Progresses {α : Type} (p : Parse α) : Prop :=
  ∀ s a, (p.run s).answer = .ok a → (p.run s).ahead.length < s.length

namespace Parse.Progresses

variable {α β : Type}

theorem bind {p : Parse α} (hp : p.Progresses) (f : α → Parse β) : (p >>= f).Progresses := by
  intro s b h
  simp only [run_bind, Reply.andThen] at h ⊢
  split at h
  next a ha =>
    dsimp only
    exact Nat.lt_of_le_of_lt ((f a).forward _).length_le (hp s a ha)
  next => cases h

theorem of_bind (p : Parse α) {f : α → Parse β} (hf : ∀ a, (f a).Progresses) :
    (p >>= f).Progresses := by
  intro s b h
  simp only [run_bind, Reply.andThen] at h ⊢
  split at h
  next a ha =>
    dsimp only
    exact Nat.lt_of_lt_of_le (hf a _ b h) (p.forward s).length_le
  next => cases h

theorem map {p : Parse α} (hp : p.Progresses) (f : α → β) : (f <$> p).Progresses :=
  hp.bind _

theorem fail (fault : Ahead → Fault) : (Parse.fail fault : Parse α).Progresses := by
  intro s a h
  cases h

theorem failExpecting (expected : String) : (Parse.failExpecting expected : Parse α).Progresses :=
  .fail _

theorem expect (expected : String) (wanted : Token → Bool) :
    (Parse.expect expected wanted).Progresses := by
  intro s t h
  cases s with
  | nil => cases h
  | cons u s =>
    rw [run_expect_cons] at h ⊢
    split at h
    · simp [*]
    · cases h

theorem clause (sub : Parse Select) (kind : ClauseKind) : (Parse.clause sub kind).Progresses :=
  (expect _ _).bind _

theorem readSelect (sub : Parse Select) (w : Option Clause) : (Select.read sub w).Progresses :=
  Progresses.bind ((clause _ _).bind _) _

theorem readNested (depth room : Nat) : (Select.readNested depth room).Progresses := by
  cases room with
  | zero => exact .fail _
  | succ room => exact of_bind _ fun _ => readSelect _ _

theorem readMain (sub : Parse Select) (w : Option Clause) :
    (Statement.readMain sub w).Progresses := by
  refine of_bind _ fun t => ?_
  split
  · exact failExpecting _
  · split
    · exact (readSelect _ _).map _
    · exact ((clause _ _).bind _).map _
    · exact ((clause _ _).bind _).map _
    · exact ((clause _ _).bind _).map _
    · exact ((clause _ _).bind _).map _
    · split
      · exact failExpecting _
      · exact .fail _

theorem readStatement (depth : Nat) : (Statement.read depth).Progresses :=
  of_bind _ fun _ => (readMain _ _).bind _

end Parse.Progresses

end SqlOutline
