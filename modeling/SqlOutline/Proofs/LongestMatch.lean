import Mathlib.Computability.RegularExpressions
import SqlOutline.Proofs.OpenLexeme

namespace SqlOutline
open Lexeme

/-- The longest part of a text, from its start, that is in the language. -/
structure LongestMatch (L : Language Char) (u w : List Char) : Prop where
  mem : w ∈ L
  starts : w <+: u
  longest : ∀ v ∈ L, v <+: u → v.length ≤ w.length

abbrev Pattern := RegularExpression Char

namespace Pattern

def anyOf (cs : List Char) : Pattern :=
  (cs.map RegularExpression.char).sum

def optional (P : Pattern) : Pattern :=
  1 + P

variable {P Q : Pattern} {c : Char} {w : List Char}

theorem nil_mem : [] ∈ P.matches' ↔ P.matchEpsilon = true :=
  (P.rmatch_iff_matches' []).symm

theorem cons_mem : c :: w ∈ P.matches' ↔ w ∈ (P.deriv c).matches' := by
  rw [← RegularExpression.rmatch_iff_matches', ← RegularExpression.rmatch_iff_matches']
  rfl

theorem matchEpsilon_anyOf (cs : List Char) : (anyOf cs).matchEpsilon = false := by
  induction cs with
  | nil => rfl
  | cons d cs ih => exact ih

theorem deriv_char (d : Char) :
    ((RegularExpression.char d).deriv c).matches' = if c = d then 1 else 0 := by
  by_cases h : c = d
  · subst h
    simp
  · simp [h, Ne.symm h]

theorem deriv_anyOf (cs : List Char) :
    ((anyOf cs).deriv c).matches' = if c ∈ cs then 1 else 0 := by
  induction cs with
  | nil => simp [anyOf]
  | cons d cs ih =>
    have hcons : anyOf (d :: cs) = .char d + anyOf cs := rfl
    rw [hcons, RegularExpression.deriv_add, RegularExpression.matches'_add, deriv_char, ih]
    by_cases h : c = d
    · subst h
      by_cases hcs : c ∈ cs <;> simp [hcs, Language.add_self]
    · simp [h]

theorem deriv_optional : ((optional P).deriv c).matches' = (P.deriv c).matches' := by
  simp [optional, RegularExpression.deriv]

theorem deriv_mul_of_nil (h : P.matchEpsilon = true) :
    ((P * Q).deriv c).matches' = (P.deriv c).matches' * Q.matches' + (Q.deriv c).matches' := by
  simp [RegularExpression.deriv, h]

theorem deriv_mul (h : P.matchEpsilon = false) :
    ((P * Q).deriv c).matches' = (P.deriv c).matches' * Q.matches' := by
  simp [RegularExpression.deriv, h]

end Pattern

theorem LongestMatch.of_deriv {P : Pattern} {c : Char} {u w : List Char}
    (h : LongestMatch (P.deriv c).matches' u w) : LongestMatch P.matches' (c :: u) (c :: w) := by
  refine ⟨Pattern.cons_mem.mpr h.mem, List.cons_prefix_cons.mpr ⟨rfl, h.starts⟩, ?_⟩
  intro v hv hstarts
  cases v with
  | nil => exact Nat.zero_le _
  | cons d v =>
    obtain ⟨rfl, htail⟩ := List.cons_prefix_cons.mp hstarts
    exact Nat.succ_le_succ (h.longest v (Pattern.cons_mem.mp hv) htail)

/-- A run is the longest part of the text that the state takes in. -/
theorem Lexeme.Munch.longest_run {m : Munch} {L : Language Char}
    (h : ∀ w, w ∈ L ↔ ∃ m', m.after w = some m') (u : List Char) :
    LongestMatch L u (m.run u).1 := by
  refine ⟨(h _).mpr ⟨_, m.after_run u⟩, ⟨(m.run u).2, m.run_append u⟩, ?_⟩
  rintro v hv ⟨rest, rfl⟩
  obtain ⟨m', hm'⟩ := (h v).mp hv
  rw [run_append_of_after hm', List.length_append]
  exact Nat.le_add_right _ _

end SqlOutline
