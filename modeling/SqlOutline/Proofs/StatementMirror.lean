import SqlOutline.Proofs.Congruence
import SqlOutline.Proofs.Mirror
import SqlOutline.Proofs.OutlineCoupling

namespace SqlOutline
open Parse

namespace Parse.Mirrors

variable {f : Token → Token} (hf : Token.Relabels f) {sub : Parse Select}
  (hsub : Mirrors f sub sub (Select.Alike (Clause.Image f))) {w w' : Option Clause}

include hf hsub

theorem readOperand
    (core : Mirrors f (Select.readCore sub) (Select.readCore sub) (Core.Alike (Clause.Image f)))
    {operator operator' : Clause} (ho : Clause.Image f operator operator') :
    Mirrors f (Select.readOperand sub operator) (Select.readOperand sub operator') fun o o' =>
      Clause.Image f o.operator o'.operator ∧ o.query.Alike (Clause.Image f) o'.query := by
  apply bind (take? (hf.isPunctuation .openParen))
  rintro paren _ ⟨rfl, -⟩
  cases paren with
  | none =>
    apply bind core
    intro c c' hc
    exact .pure ⟨ho, .mk .none hc .nil ⟨.none, .none, .none⟩⟩
  | some paren =>
    apply bind (trivia hf)
    rintro gap _ rfl
    refine ite_atKeyword hf ?_ (failExpecting hf _)
    apply bind hsub
    intro q q' hq
    apply bind (expect hf (hf.isPunctuation .closeParen) _)
    rintro close _ ⟨rfl, -⟩
    apply bind (trivia hf)
    rintro rest _ rfl
    exact .pure ⟨ho.push (paren :: gap), hq.push fun _ _ h => h.push (close :: rest)⟩

/-- Where subqueries mirror themselves, mirroring is a congruence. -/
def congruence : Congruence (Clause.Image f) sub sub where
  Rel := Mirrors f
  pure := .pure
  bind := bind
  failExpecting := failExpecting hf
  ite_atKeyword _ := ite_atKeyword hf
  clause := clause hf hsub
  clause? := clause? hf hsub
  clauses := clauses hf hsub
  operations core := by
    have operations : Mirrors f (Select.readOperations sub) (Select.readOperations sub) _ :=
      each hf fun _ hl hd => bind (following hf hsub hl hd) fun _ _ ho =>
        readOperand hf hsub core ho
    exact fun s hs => (operations s hs).mono fun _ _ h => Coupling.operations_of_forall₂ h

/-- A keyword decides which statement it is, and what is inert on one side starts none on either. -/
theorem readMain (hw : Option.Rel (Clause.Image f) w w') :
    Mirrors f (Statement.readMain sub w) (Statement.readMain sub w')
      (Statement.Alike (Clause.Image f)) := by
  apply bind current
  rintro t _ rfl
  cases t with
  | none => exact failExpecting hf _
  | some t =>
    have hsome : w'.isSome = w.isSome := by cases hw <;> rfl
    simp only [Option.map_some, hsome, hf.text, hf.start]
    generalize hother : (if w.isSome = true then Parse.failExpecting Statement.expected
      else Parse.fail fun _ => .unrecognized t.text t.start : Parse Statement) = other
    have starts : Mirrors f other other (Statement.Alike (Clause.Image f)) := by
      rw [← hother]
      split
      · exact failExpecting hf _
      · exact .fail fun _ => rfl
    rcases hf.kind t with hk | ⟨ht, ht'⟩
    · rw [hk]
      split
      · exact map ((congruence hf hsub).read hw) fun _ _ h => .select h
      · exact map ((congruence hf hsub).readInsert hw) fun _ _ h => .insert h
      · exact map ((congruence hf hsub).readUpdate hw) fun _ _ h => .update h
      · exact map ((congruence hf hsub).readDelete hw) fun _ _ h => .delete h
      · exact map ((congruence hf hsub).readMerge hw) fun _ _ h => .merge h
      · exact starts
    · split
      case h_6 =>
        split
        case h_6 => exact starts
        all_goals simp_all [Kind.isInert]
      all_goals simp_all [Kind.isInert]

end Parse.Mirrors

section Relabels

variable {f : Token → Token} (hf : Token.Relabels f)
include hf

theorem Select.mirrors_readNested (depth room : Nat) :
    Mirrors f (readNested depth room) (readNested depth room) (Select.Alike (Clause.Image f)) := by
  induction room generalizing depth with
  | zero =>
    refine .fail fun s => ?_
    cases s with
    | nil => rfl
    | cons t s => simp [Ahead.current, hf.start]
  | succ room ih =>
    exact .bind (.log _ _) fun _ _ _ =>
      (Parse.Mirrors.congruence hf (ih (depth + 1))).read .none

theorem Statement.mirrors_read (depth : Nat) :
    Mirrors f (read depth) (read depth) (Statement.Alike (Clause.Image f)) := by
  have hsub := Select.mirrors_readNested hf 0 depth
  refine .bind (.clause? hf hsub _) fun _ _ hw => ?_
  refine .bind (.readMain hf hsub hw) fun _ _ hst => ?_
  exact .bind (.log _ _) fun _ _ _ => .pure hst

theorem Ahead.dropNoise_map (s : Ahead) : dropNoise (s.map f) = s.dropNoise.map f := by
  have hnoise : isNoise ∘ f = isNoise := by
    funext t
    simp only [Function.comp_apply, isNoise, hf.isTrivia, hf.isPunctuation]
  rw [dropNoise, List.dropWhile_map, hnoise]
  rfl

/-- The statements that are read from the one stream are read from the other, and a fault is the same.
The induction is on what a statement leaves. -/
theorem Outline.mirrors_result (depth : Nat) {s : Ahead} (hs : s.NoDelete) :
    (∃ sts sts', (ofAhead depth s).result = .ok sts ∧ (ofAhead depth (s.map f)).result = .ok sts' ∧
        List.Forall₂ (Statement.Alike (Clause.Image f)) sts sts') ∨
      ∃ e, (ofAhead depth s).result = .error e ∧ (ofAhead depth (s.map f)).result = .error e := by
  induction hl : s.length using Nat.strongRecOn generalizing s with
  | ind l ih =>
    have hread := Statement.mirrors_read hf depth
    have hdrop := Ahead.dropNoise_map hf s
    have hstart := hs.suffix s.dropNoise_suffix
    by_cases hnil : s.dropNoise = []
    · have hnil' : Ahead.dropNoise (s.map f) = [] := by rw [hdrop, hnil, List.map_nil]
      exact .inl ⟨[], [], result_done hnil, result_done hnil', .nil⟩
    rcases gives_or_fails (Statement.read depth) s.dropNoise with ⟨st, h⟩ | ⟨e, h⟩
    · generalize ((Statement.read depth).run s.dropNoise).ahead = r at h
      obtain ⟨st', h', hst⟩ := hread.gives hstart h
      rw [← hdrop] at h'
      have hlt : r.length < l := by
        have := h.length_lt (Progresses.readStatement depth)
        have := s.dropNoise_suffix.length_le
        omega
      rw [result_step h, result_step h']
      rcases ih _ hlt (hstart.suffix h.suffix) rfl with ⟨sts, sts', hr, hr', hsts⟩ | ⟨e, hr, hr'⟩
      · rw [hr, hr']
        exact .inl ⟨_, _, rfl, rfl, .cons hst hsts⟩
      · rw [hr, hr']
        exact .inr ⟨e, rfl, rfl⟩
    · generalize ((Statement.read depth).run s.dropNoise).ahead = r at h
      have h' := hread.fails hstart h
      rw [← hdrop] at h'
      have hstart' : Ahead.dropNoise (s.map f) ≠ [] := by simpa [hdrop] using hnil
      exact .inr ⟨e, result_fault hnil h, result_fault hstart' h'⟩

end Relabels

end SqlOutline
