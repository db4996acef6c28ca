import SqlOutline.Parse.Progress
import SqlOutline.Proofs.Alike
import SqlOutline.Proofs.Gives

namespace SqlOutline
open Parse

/-- A relation between parses that holds of the clauses, read with `sub` for the subqueries on the one
side and with `sub'` on the other, and of what is put together from parses it holds of. `out` relates
what the two give, and `R` the clauses. -/
structure Congruence (R : Clause → Clause → Prop) (sub sub' : Parse Select) where
  Rel {α β : Type} (p : Parse α) (q : Parse β) (out : α → β → Prop) : Prop
  pure {α β : Type} {a : α} {b : β} {out : α → β → Prop} (h : out a b) :
    Rel (Pure.pure a) (Pure.pure b) out
  bind {α α' β β' : Type} {p : Parse α} {q : Parse β} {f : α → Parse α'} {g : β → Parse β'}
    {out : α → β → Prop} {out' : α' → β' → Prop} (hp : Rel p q out)
    (hf : ∀ a b, out a b → Rel (f a) (g b) out') : Rel (p >>= f) (q >>= g) out'
  failExpecting {α β : Type} {out : α → β → Prop} (expected : String) :
    Rel (Parse.failExpecting expected) (Parse.failExpecting expected) out
  ite_atKeyword {α β : Type} {ks : List Keyword} {p p' : Parse α} {q q' : Parse β}
    {out : α → β → Prop} (progress : p.Progresses) (hp : Rel p q out) (hp' : Rel p' q' out) :
    Rel (Parse.atKeyword ks >>= fun b => if b = true then p else p')
      (Parse.atKeyword ks >>= fun b => if b = true then q else q') out
  clause (kind : ClauseKind) : Rel (Parse.clause sub kind) (Parse.clause sub' kind) R
  clause? (kind : ClauseKind) :
    Rel (Parse.clause? sub kind) (Parse.clause? sub' kind) (Option.Rel R)
  clauses (kind : ClauseKind) :
    Rel (Parse.clauses sub kind) (Parse.clauses sub' kind) (List.Forall₂ R)
  operations (core : Rel (Select.readCore sub) (Select.readCore sub') (Core.Alike R)) :
    Rel (Select.readOperations sub) (Select.readOperations sub') (SetOperation.Alike R)

namespace Congruence

variable {R : Clause → Clause → Prop} {sub sub' : Parse Select} {w w' : Option Clause}
  (C : Congruence R sub sub')

theorem map {α α' β β' : Type} {p : Parse α} {q : Parse β} {f : α → α'} {g : β → β'}
    {out : α → β → Prop} {out' : α' → β' → Prop} (hp : C.Rel p q out)
    (hf : ∀ a b, out a b → out' (f a) (g b)) : C.Rel (f <$> p) (g <$> q) out' :=
  C.bind hp fun a b hab => C.pure (hf a b hab)

theorem readCore : C.Rel (Select.readCore sub) (Select.readCore sub') (Core.Alike R) := by
  apply C.bind (C.clause _)
  intro _ _ hs
  apply C.bind (C.clause? _)
  intro _ _ hi
  apply C.bind (C.clause? _)
  intro _ _ hf
  apply C.bind (C.clause? _)
  intro _ _ hw
  apply C.bind (C.clause? _)
  intro _ _ hg
  apply C.bind (C.clause? _)
  intro _ _ hh
  exact C.pure ⟨hs, hi, hf, hw, hg, hh⟩

theorem read (hw : Option.Rel R w w') :
    C.Rel (Select.read sub w) (Select.read sub' w') (Select.Alike R) := by
  apply C.bind C.readCore
  intro _ _ hc
  apply C.bind (C.operations C.readCore)
  intro _ _ ho
  apply C.bind (C.clause? _)
  intro _ _ hb
  apply C.bind (C.clause? _)
  intro _ _ hf
  apply C.bind (C.clause? _)
  intro _ _ hp
  exact C.pure (.mk hw hc ho ⟨hb, hf, hp⟩)

theorem readSource :
    C.Rel (Statement.readSource sub) (Statement.readSource sub') (Source.Alike R) := by
  refine C.ite_atKeyword ((Progresses.clause _ _).map _) ?_ ?_
  · exact C.map (C.clause _) fun _ _ h => .values h
  refine C.ite_atKeyword ((Progresses.readSelect _ _).map _) ?_ ?_
  · exact C.map (C.read .none) fun _ _ h => .select h
  refine C.ite_atKeyword ((Progresses.clause _ _).map _) ?_ ?_
  · exact C.map (C.clause _) fun _ _ h => .defaultValues h
  refine C.ite_atKeyword ((Progresses.clause _ _).map _) ?_ (C.failExpecting _)
  exact C.map (C.clause _) fun _ _ h => .execute h

theorem readInsert (hw : Option.Rel R w w') :
    C.Rel (Statement.readInsert sub w) (Statement.readInsert sub' w') (Insert.Alike R) := by
  apply C.bind (C.clause _)
  intro _ _ hi
  apply C.bind (C.clause? _)
  intro _ _ ho
  apply C.bind C.readSource
  intro _ _ hs
  exact C.pure ⟨hw, hi, ho, hs⟩

theorem readUpdate (hw : Option.Rel R w w') :
    C.Rel (Statement.readUpdate sub w) (Statement.readUpdate sub' w') (Update.Alike R) := by
  apply C.bind (C.clause _)
  intro _ _ hu
  apply C.bind (C.clause _)
  intro _ _ hs
  apply C.bind (C.clause? _)
  intro _ _ ho
  apply C.bind (C.clause? _)
  intro _ _ hf
  apply C.bind (C.clause? _)
  intro _ _ hc
  apply C.bind (C.clause? _)
  intro _ _ hp
  exact C.pure ⟨hw, hu, hs, ho, hf, hc, hp⟩

theorem readDelete (hw : Option.Rel R w w') :
    C.Rel (Statement.readDelete sub w) (Statement.readDelete sub' w') (Delete.Alike R) := by
  apply C.bind (C.clause _)
  intro _ _ hd
  apply C.bind (C.clause? _)
  intro _ _ ho
  apply C.bind (C.clause? _)
  intro _ _ hf
  apply C.bind (C.clause? _)
  intro _ _ hc
  apply C.bind (C.clause? _)
  intro _ _ hp
  exact C.pure ⟨hw, hd, ho, hf, hc, hp⟩

theorem readMerge (hw : Option.Rel R w w') :
    C.Rel (Statement.readMerge sub w) (Statement.readMerge sub' w') (Merge.Alike R) := by
  apply C.bind (C.clause _)
  intro _ _ hm
  apply C.bind (C.clause _)
  intro _ _ hu
  apply C.bind (C.clause _)
  intro _ _ hn
  apply C.bind (C.clause _)
  intro _ _ hb
  apply C.bind (C.clauses _)
  intro _ _ hbs
  apply C.bind (C.clause? _)
  intro _ _ ho
  apply C.bind (C.clause? _)
  intro _ _ hp
  exact C.pure ⟨hw, hm, hu, hn, hb, hbs, ho, hp⟩

end Congruence

/-- A property that the clauses have, read with `sub` for the subqueries, and what is put together from
parses that have it. -/
structure Trait (sub : Parse Select) where
  Holds {α : Type} (p : Parse α) : Prop
  pure {α : Type} (a : α) : Holds (Pure.pure a)
  bind {α β : Type} {p : Parse α} {f : α → Parse β} (hp : Holds p)
    (hf : ∀ ⦃s a r⦄, p.Gives s a r → Holds (f a)) : Holds (p >>= f)
  failExpecting {α : Type} (expected : String) : Holds (Parse.failExpecting expected : Parse α)
  atKeyword (ks : List Keyword) : Holds (Parse.atKeyword ks)
  clause (kind : ClauseKind) : Holds (Parse.clause sub kind)
  clause? (kind : ClauseKind) : Holds (Parse.clause? sub kind)
  clauses (kind : ClauseKind) : Holds (Parse.clauses sub kind)
  operations (core : Holds (Select.readCore sub)) : Holds (Select.readOperations sub)

namespace Trait

variable {sub : Parse Select} (T : Trait sub)

/-- To have a property is a congruence. What a parse gives is related to itself. -/
def congruence : Congruence Eq sub sub where
  Rel p _ out := T.Holds p ∧ ∀ ⦃s a r⦄, p.Gives s a r → ∃ b, out a b
  pure h := ⟨T.pure _, fun s a r ha => (gives_pure.mp ha).1 ▸ ⟨_, h⟩⟩
  bind hp hf := by
    refine ⟨T.bind hp.1 fun s a r h => ?_, fun s b r h => ?_⟩
    · obtain ⟨b, hab⟩ := hp.2 h
      exact (hf a b hab).1
    · obtain ⟨a, m, ha, h⟩ := gives_bind.mp h
      obtain ⟨b, hab⟩ := hp.2 ha
      exact (hf a b hab).2 h
  failExpecting expected := ⟨T.failExpecting expected, fun _ _ _ h => absurd h gives_failExpecting⟩
  ite_atKeyword _ hp hq := by
    refine ⟨T.bind (T.atKeyword _) fun s b r _ => ?_, fun s a r h => ?_⟩
    · split
      · exact hp.1
      · exact hq.1
    · obtain ⟨b, m, -, h⟩ := gives_bind.mp h
      split at h
      · exact hp.2 h
      · exact hq.2 h
  clause kind := ⟨T.clause kind, fun _ c _ _ => ⟨c, rfl⟩⟩
  clause? kind := ⟨T.clause? kind, fun _ c _ _ => ⟨c, Clause.rel_option_self (fun _ => rfl) c⟩⟩
  clauses kind := ⟨T.clauses kind, fun _ cs _ _ => ⟨cs, List.forall₂_same.mpr fun _ _ => rfl⟩⟩
  operations core :=
    ⟨T.operations core.1, fun _ os _ _ => ⟨os, SetOperation.alike_self (fun _ => rfl) os⟩⟩

theorem readSelect (w : Option Clause) : T.Holds (Select.read sub w) :=
  (T.congruence.read (Clause.rel_option_self (fun _ => rfl) w)).1

theorem readInsert (w : Option Clause) : T.Holds (Statement.readInsert sub w) :=
  (T.congruence.readInsert (Clause.rel_option_self (fun _ => rfl) w)).1

theorem readUpdate (w : Option Clause) : T.Holds (Statement.readUpdate sub w) :=
  (T.congruence.readUpdate (Clause.rel_option_self (fun _ => rfl) w)).1

theorem readDelete (w : Option Clause) : T.Holds (Statement.readDelete sub w) :=
  (T.congruence.readDelete (Clause.rel_option_self (fun _ => rfl) w)).1

theorem readMerge (w : Option Clause) : T.Holds (Statement.readMerge sub w) :=
  (T.congruence.readMerge (Clause.rel_option_self (fun _ => rfl) w)).1

theorem map {α β : Type} {p : Parse α} (h : T.Holds p) (f : α → β) : T.Holds (f <$> p) :=
  T.bind h fun _ _ _ _ => T.pure _

/-- The statement has the property too, if to find none has it. -/
theorem readMain {w : Option Clause}
    (unrecognized : ∀ t : Token,
      T.Holds (fail fun _ => .unrecognized t.text t.start : Parse Statement))
    (current : T.Holds Parse.current) : T.Holds (Statement.readMain sub w) := by
  refine T.bind current fun s t r _ => ?_
  split
  · exact T.failExpecting _
  split
  · exact T.map (T.readSelect w) _
  · exact T.map (T.readInsert w) _
  · exact T.map (T.readUpdate w) _
  · exact T.map (T.readDelete w) _
  · exact T.map (T.readMerge w) _
  split
  · exact T.failExpecting _
  · exact unrecognized _

end Trait

end SqlOutline
