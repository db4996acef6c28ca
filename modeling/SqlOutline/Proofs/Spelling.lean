import Mathlib.Logic.Basic
import SqlOutline.Lexeme.Kind

namespace SqlOutline
open Text

namespace Kind

/-- What a lexeme can only be if no other rule fits. -/
def isWord : Kind → Bool
  | .punctuation _ | .keyword _ | .connective _ | .systemIdentifier => true
  | _ => false

/-- The words that are of the kind for their letters alone. -/
def words : Kind → List String
  | .keyword k => [k.spelling]
  | .connective c => [c.keyword.spelling]
  | .systemIdentifier => systemIdentifiers
  | .systemVariable => systemVariables
  | .operator => Lexeme.operatorWords
  | _ => []

end Kind

namespace Lexeme

variable {quoted : Bool} {c : Char} {t : List Char} {k : Kind}

theorem quotedKind_ne (h : k ≠ .string ∧ k ≠ .incompleteString) (delimiter : Char) (t : List Char) :
    ¬ quotedKind delimiter t = k := by
  rintro rfl
  unfold quotedKind at h
  split at h
  · exact h.1 rfl
  · exact h.2 rfl

theorem wordKind_ne (h : k.isWord = false) (hi : k ≠ .incompleteIdentifier ∧ k ≠ .identifier) :
    ¬ wordKind quoted t = k := by
  rintro rfl
  unfold wordKind at h hi
  repeat' split at h
  all_goals simp_all [Kind.isWord]

theorem wordKind_of_kind (hk : k.isWord = true) (h : kind quoted (c :: t) = k) :
    wordKind quoted (c :: t) = k := by
  have hquoted := quotedKind_ne (k := k) (by constructor <;> rintro rfl <;> cases hk)
  cases k with
  | punctuation p | keyword k | connective c | systemIdentifier =>
    simp only [kind, ite_eq_iff, reduceCtorEq, hquoted, and_false, or_false, false_or] at h
    obtain ⟨-, -, -, -, -, -, -, -, -, -, -, h⟩ := h
    exact h
  | _ => cases hk

/-- Only the sign itself is punctuation. -/
theorem eq_char_of_kind {p : Punctuation} (h : kind quoted t = .punctuation p) : t = [p.char] := by
  cases t with
  | nil => cases h
  | cons c t =>
    have h := wordKind_of_kind rfl h
    unfold wordKind at h
    split at h
    next q hq =>
      cases h
      exact Punctuation.eq_char_of_ofText? hq
    next => grind

theorem upper_of_any {ws : List String} (h : ws.any (·.toList == upper t) = true) :
    ∃ w ∈ ws, upper t = w.toList := by
  obtain ⟨w, hw, he⟩ := List.any_eq_true.mp h
  exact ⟨w, hw, (beq_iff_eq.mp he).symm⟩

theorem upper_of_wordKind (h : (wordKind quoted t).words ≠ []) :
    ∃ w ∈ (wordKind quoted t).words, upper t = w.toList := by
  revert h
  unfold wordKind
  split
  next => exact fun h => absurd rfl h
  split
  next ha => exact fun _ => ⟨"AND", List.mem_singleton_self _, ha⟩
  split
  next ho => exact fun _ => ⟨"OR", List.mem_singleton_self _, ho⟩
  split
  next k hk =>
    have hspelling := List.find?_some (Keyword.ofText?.eq_1 t ▸ hk)
    exact fun _ => ⟨k.spelling, List.mem_singleton_self _, (beq_iff_eq.mp hspelling).symm⟩
  split
  next hs => exact fun _ => isSystemIdentifier_iff.mp hs
  split
  next => exact fun h => absurd rfl h
  split
  next => exact fun h => absurd rfl h
  next => exact fun h => absurd rfl h

/-- A lexeme is known by its letters, all of them, unless it is an operator of signs. -/
theorem upper_of_kind (hk : kind quoted t = k) (h : k.words ≠ []) :
    (∃ w ∈ k.words, upper t = w.toList) ∨
      k = .operator ∧ ∃ sign ∈ operatorSigns, t.head? = some sign := by
  cases t with
  | nil =>
    subst hk
    exact absurd rfl h
  | cons c t =>
    cases hword : k.isWord with
    | true =>
      obtain rfl := wordKind_of_kind hword hk
      exact .inl (upper_of_wordKind h)
    | false =>
      have hquoted := quotedKind_ne (k := k) (by constructor <;> rintro rfl <;> exact h rfl)
      have hnoword : ¬ wordKind quoted (c :: t) = k :=
        wordKind_ne hword (by constructor <;> rintro rfl <;> exact h rfl)
      cases k with
      | systemVariable =>
        simp only [kind, ite_eq_iff, reduceCtorEq, hquoted, hnoword, and_false, or_false, false_or,
          and_true] at hk
        exact .inl (isSystemVariable_iff.mp hk.2.2)
      | operator =>
        simp only [kind, ite_eq_iff, reduceCtorEq, hquoted, hnoword, and_false, or_false, false_or,
          and_true] at hk
        obtain ⟨-, -, -, -, -, -, -, -, -, -, hsign | hspelled⟩ := hk
        · exact .inr ⟨rfl, c, List.contains_iff_mem.mp hsign, rfl⟩
        · exact .inl (upper_of_any hspelled)
      | keyword | connective | systemIdentifier => cases hword
      | _ => exact absurd rfl h

end Lexeme

end SqlOutline
