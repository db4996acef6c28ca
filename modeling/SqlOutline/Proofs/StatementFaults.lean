import SqlOutline.Proofs.FaultCoupling

namespace SqlOutline.Coupling
open Parse

variable {J : Coupling} {n : Nat} {sub sub' : Parse Select} {w w' : Option Clause}

/-- What looks at the next token finds one of the same kind on either side, or none on both. -/
theorem Faults.current_bind {α β : Type} (hJ : J.Faithful) {f : Option Token → Parse α}
    {g : Option Token → Parse β} (none : J.Faults n (J.Met n) (f none) (g none))
    (some : ∀ t t', t'.kind = t.kind → J.Faults n
      (fun s s' => J.Met n s s' ∧ s.head? = some t ∧ s'.head? = some t') (f (some t)) (g (some t'))) :
    J.Faults n (J.Met n) (current >>= f) (current >>= g) := by
  intro s s' e r hs h live
  obtain ⟨t, m, ht, hf⟩ := (fails_bind.mp h).resolve_left fails_current
  obtain ⟨rfl, rfl⟩ := gives_current.mp ht
  have hk := hJ.head? hs (J.live_of_suffix hf.suffix live)
  have hcurrent : current.Gives s' s'.head? s' := gives_current.mpr ⟨rfl, rfl⟩
  have key : J.Echoes n e r (g s'.head?) s' := by
    cases ht : m.head? with
    | none =>
      rw [ht] at hf hk
      rw [Option.map_eq_none_iff.mp hk]
      exact none hs hf live
    | some t =>
      rw [ht] at hf hk
      obtain ⟨t', ht', hkind⟩ := Option.map_eq_some_iff.mp hk
      rw [ht']
      exact some t t' hkind ⟨hs, ht, ht'⟩ hf live
  exact key.of_imp fun _ _ hq => fails_bind.mpr (.inr ⟨_, _, hcurrent, hq⟩)

namespace Queries

variable (hsub : J.Queries n sub sub') (hJ : J.Faithful)
include hsub hJ

theorem readOperand
    (core : J.Faults (n + 1) (J.Met (n + 1)) (Select.readCore sub) (Select.readCore sub'))
    (operator operator' : Clause) :
    J.Faults (n + 1) (J.Met (n + 1)) (Select.readOperand sub operator)
      (Select.readOperand sub' operator') := by
  have hclose := Token.marks_isPunctuation (p := .closeParen) (by decide)
  refine .take?_bind (Token.marks_isPunctuation (by decide)) (fun t t' hopen _ _ => ?_) ?_
  · refine .of_imp (.succ ?_) fun s s' h => h.2 hopen n rfl
    apply Faults.bind Runs.trivia .trivia
    intro gap gap' _
    refine .ite_atKeyword hJ ?_ (.failExpecting _)
    apply Faults.bind (hsub.runs.of_imp fun _ _ h => h.1) hsub.faults
    intro q q' _
    apply Faults.bind (Runs.expect _ hclose) (.expect hJ _ hclose)
    intro close close' _
    exact .bind Runs.trivia .trivia fun _ _ _ => .pure
  · exact .bind hsub.toSubs.congruence.readCore core fun _ _ _ => .pure

/-- Going side by side and echoing the faults is a congruence as well, where subqueries do both. -/
def congruence : Congruence J.Clauses sub sub' where
  Rel p q out := J.Runs (J.Met (n + 1)) p q out (J.Met (n + 1)) ∧
    J.Faults (n + 1) (J.Met (n + 1)) p q
  pure h := ⟨.pure h, .pure⟩
  bind hp hf := ⟨.bind hp.1 fun a b hab => (hf a b hab).1,
    .bind hp.1 hp.2 fun a b hab => (hf a b hab).2⟩
  failExpecting expected := ⟨.fail, .failExpecting expected⟩
  ite_atKeyword progress hp hq := ⟨.ite_atKeyword progress hp.1 hq.1,
    .ite_atKeyword hJ (hp.2.of_imp fun _ _ h => h.1) hq.2⟩
  clause kind := ⟨hsub.toSubs.clause kind, hsub.clause hJ kind⟩
  clause? kind := ⟨hsub.toSubs.clause? kind, hsub.clause? hJ kind⟩
  clauses kind := ⟨hsub.toSubs.clauses kind, hsub.clauses hJ kind⟩
  operations core := by
    refine ⟨hsub.toSubs.congruence.operations core.1, ?_⟩
    exact .each
      (fun _ _ _ _ one => .bind (hsub.toSubs.following one) fun _ _ ho =>
        hsub.toSubs.readOperand core.1 ho)
      fun _ _ _ _ one => .bind (hsub.toSubs.following one) (hsub.following hJ _ _) fun _ _ _ =>
        hsub.readOperand hJ core.2 _ _

/-- Where no statement starts, the token that stands there is at fault, or what a WITH clause has
promised is missing. -/
theorem readMain (hw : Option.Rel J.Clauses w w') :
    J.Faults (n + 1) (J.Met (n + 1)) (Statement.readMain sub w) (Statement.readMain sub' w') := by
  refine .current_bind hJ (.failExpecting _) fun t t' hk => ?_
  let C := hsub.congruence hJ
  have hsome : w'.isSome = w.isSome := by cases hw <;> rfl
  simp only [hk]
  split
  · exact .of_imp (.map (C.read hw).2) fun _ _ h => h.1
  · exact .of_imp (.map (C.readInsert hw).2) fun _ _ h => h.1
  · exact .of_imp (.map (C.readUpdate hw).2) fun _ _ h => h.1
  · exact .of_imp (.map (C.readDelete hw).2) fun _ _ h => h.1
  · exact .of_imp (.map (C.readMerge hw).2) fun _ _ h => h.1
  · rw [hsome]
    split
    · exact .of_imp (.failExpecting _) fun _ _ h => h.1
    · intro s s' e r hs h _
      obtain ⟨he, rfl⟩ := fails_fail.mp h
      obtain ⟨met, ht, ht'⟩ := hs
      refine ⟨.statement, s', ?_, fails_fail.mpr ⟨?_, rfl⟩, met, ?_⟩
      · rw [he, ht]
        rfl
      · rw [ht']
        rfl
      · rintro rfl
        cases ht

end Queries

/-- Nested queries come to the same faults where both may nest as deep. -/
theorem faults_readNested (hJ : J.Faithful) (depth n : Nat) :
    J.Faults n (fun s s' => J.Met n s s' ∧ s.atKeyword [.select] = true)
      (Select.readNested depth n) (Select.readNested depth n) := by
  induction n generalizing depth with
  | zero =>
    intro s s' e r hs h _
    obtain ⟨he, rfl⟩ := fails_fail.mp h
    refine ⟨.room depth, s', he, fails_fail.mpr ⟨rfl, rfl⟩, hs.1, ?_⟩
    rintro rfl
    cases hs.2
  | succ n ih =>
    have hsub : J.Queries n (Select.readNested (depth + 1) n) (Select.readNested (depth + 1) n) :=
      ⟨⟨runs_readNested fun _ _ _ => Nat.le_refl n, .readNested _ _⟩, ih (depth + 1)⟩
    refine .of_imp ?_ fun _ _ h => h.1
    exact .bind (.log _ _) .log fun _ _ _ => ((hsub.congruence hJ).read .none).2

/-- Where a statement of the first stream comes to a fault, that of the second comes to its like. -/
theorem faults_readStatement (hJ : J.Faithful) (n : Nat) :
    J.Faults (n + 1) (J.Met (n + 1)) (Statement.read n) (Statement.read n) := by
  have hsub : J.Queries n (Select.readNested 0 n) (Select.readNested 0 n) :=
    ⟨⟨runs_readNested fun _ _ _ => Nat.le_refl n, .readNested _ _⟩, faults_readNested hJ 0 n⟩
  refine .bind (hsub.toSubs.clause? _) (hsub.clause? hJ _) fun w w' hw => ?_
  refine .bind (hsub.toSubs.readMain hw) (hsub.readMain hJ hw) fun _ _ _ => ?_
  exact .bind (.log _ _) .log fun _ _ _ => .pure

end SqlOutline.Coupling
