import SqlOutline.Proofs.ClauseCoupling
import SqlOutline.Proofs.Congruence

namespace SqlOutline.Coupling
open Parse

variable {J : Coupling} {n : Nat} {sub sub' : Parse Select} {w w' : Option Clause}

theorem operations_of_forall₂ {R : Clause → Clause → Prop} {os os' : List SetOperation}
    (h : List.Forall₂ (fun o o' => R o.operator o'.operator ∧ o.query.Alike R o'.query) os os') :
    SetOperation.Alike R os os' := by
  induction h with
  | nil => exact .nil
  | @cons o o' _ _ h _ ih =>
    obtain ⟨operator, query⟩ := o
    obtain ⟨operator', query'⟩ := o'
    exact .cons h.1 h.2 ih

namespace Subs

variable (hsub : J.Subs n sub sub')
include hsub

theorem readOperand
    (core : J.Runs (J.Met (n + 1)) (Select.readCore sub) (Select.readCore sub')
      (Core.Alike J.Clauses) (J.Met (n + 1)))
    {operator operator' : Clause} (ho : J.Clauses operator operator') :
    J.Runs (J.Met (n + 1)) (Select.readOperand sub operator) (Select.readOperand sub' operator')
      (fun o o' => J.Clauses o.operator o'.operator ∧ o.query.Alike J.Clauses o'.query)
      (J.Met (n + 1)) := by
  refine .take?_bind (Token.marks_isPunctuation (by decide)) (fun t t' hopen _ one => ?_) ?_
  · refine .of_imp ?_ fun s s' h => h.2 hopen n rfl
    apply Runs.bind Runs.trivia
    intro gap gap' hgap
    refine .ite_atKeyword (hsub.progress.bind _) ?_ .fail
    apply Runs.bind hsub.runs
    intro q q' hq
    apply Runs.bind (Runs.expect _ (Token.marks_isPunctuation (by decide)))
    intro close close' hc
    apply Runs.bind (Runs.mono Runs.trivia fun _ _ h => h.succ)
    intro rest rest' hrest
    refine .pure ⟨ho.push (J.same_append one hgap), hq.push fun c d h => ?_⟩
    exact h.push (J.same_append hc.2 hrest)
  · apply Runs.bind core
    intro c c' hc
    exact .pure ⟨ho, .mk .none hc .nil ⟨.none, .none, .none⟩⟩

/-- Where subqueries go side by side, going side by side is a congruence. -/
def congruence : Congruence J.Clauses sub sub' where
  Rel p q out := J.Runs (J.Met (n + 1)) p q out (J.Met (n + 1))
  pure := .pure
  bind := .bind
  failExpecting _ := .fail
  ite_atKeyword := .ite_atKeyword
  clause := hsub.clause
  clause? := hsub.clause?
  clauses := hsub.clauses
  operations core := by
    have each : J.Runs (J.Met (n + 1)) (Select.readOperations sub) (Select.readOperations sub') _
        (J.Met (n + 1)) :=
      .each fun t t' _ _ one => .bind (hsub.following one) fun _ _ ho => hsub.readOperand core ho
    intro s s' os r hs h live
    obtain ⟨os', r', hos, hall, hr⟩ := each hs h live
    exact ⟨os', r', hos, operations_of_forall₂ hall, hr⟩

/-- What a statement is, its first keyword decides on either side. -/
theorem readMain (hw : Option.Rel J.Clauses w w') :
    J.Runs (J.Met (n + 1)) (Statement.readMain sub w) (Statement.readMain sub' w')
      (Statement.Alike J.Clauses) (J.Met (n + 1)) := by
  intro s s' statement r hs h live
  simp only [Statement.gives_readMain] at h ⊢
  cases h with
  | select h =>
    obtain ⟨q, r', hq, alike, met⟩ := hsub.congruence.read hw hs h live
    exact ⟨_, r', .select hq, .select alike, met⟩
  | insert h =>
    obtain ⟨i, r', hi, alike, met⟩ := hsub.congruence.readInsert hw hs h live
    exact ⟨_, r', .insert hi, .insert alike, met⟩
  | update h =>
    obtain ⟨u, r', hu, alike, met⟩ := hsub.congruence.readUpdate hw hs h live
    exact ⟨_, r', .update hu, .update alike, met⟩
  | delete h =>
    obtain ⟨d, r', hd, alike, met⟩ := hsub.congruence.readDelete hw hs h live
    exact ⟨_, r', .delete hd, .delete alike, met⟩
  | merge h =>
    obtain ⟨m, r', hm, alike, met⟩ := hsub.congruence.readMerge hw hs h live
    exact ⟨_, r', .merge hm, .merge alike, met⟩

end Subs

/-- Nested queries go side by side where the second may nest as deep as the first, or where the
streams cannot be coupled on the lowest level. -/
theorem runs_readNested {m n depth depth' : Nat} (h : ∀ s s', J.rel 0 s s' → m ≤ n) :
    J.Runs (J.Met n) (Select.readNested depth m) (Select.readNested depth' n)
      (Select.Alike J.Clauses) (J.Met n) := by
  induction n generalizing m depth depth' with
  | zero =>
    intro s s' q r hs hq live
    obtain rfl := Nat.le_zero.mp (h s s' hs.rel)
    exact absurd hq gives_fail
  | succ n ih =>
    cases m with
    | zero => exact .fail
    | succ m =>
      have hsub : J.Subs n (Select.readNested (depth + 1) m) (Select.readNested (depth' + 1) n) :=
        ⟨ih fun s s' hs => Nat.le_of_succ_le_succ (h s s' hs), .readNested _ _⟩
      exact .bind (.log _ _) fun _ _ _ => hsub.congruence.read .none

/-- A statement that is read from the first stream is read from the second as well. -/
theorem runs_readStatement {m n : Nat} (h : ∀ s s', J.rel 0 s s' → m ≤ n) :
    J.Runs (J.Met (n + 1)) (Statement.read m) (Statement.read n) (Statement.Alike J.Clauses)
      (J.Met (n + 1)) := by
  have hsub : J.Subs n (Select.readNested 0 m) (Select.readNested 0 n) :=
    ⟨runs_readNested h, .readNested _ _⟩
  apply Runs.bind (hsub.clause? _)
  intro _ _ hw
  apply Runs.bind (hsub.readMain hw)
  intro _ _ hs
  exact .bind (.log _ _) fun _ _ _ => .pure hs

end SqlOutline.Coupling
