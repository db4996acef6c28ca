import Mathlib.Data.Bool.AllAny
import SqlOutline.Proofs.LongestMatch

namespace SqlOutline
open Lexeme

namespace Pattern
open RegularExpression

def digit : Pattern :=
  anyOf "0123456789".toList

def hexDigit : Pattern :=
  anyOf "0123456789ABCDEFabcdef".toList

def sign : Pattern :=
  anyOf ['+', '-']

def fraction : Pattern :=
  char '.' * digit.star

def exponent : Pattern :=
  anyOf ['e', 'E'] * (optional sign * digit.star)

/-- A backslash takes in the line break behind it, be it of one character or of two. -/
def binaryItem : Pattern :=
  hexDigit + char '\\' * (optional (char '\r') * optional (char '\n'))

def binary : Pattern :=
  char '0' * (anyOf ['x', 'X'] * binaryItem.star)

def number : Pattern :=
  (digit * digit.star * optional fraction + char '.' * (digit * digit.star)) * optional exponent

def amount : Pattern :=
  digit.star * optional fraction

def money (symbol : Char) : Pattern :=
  char symbol * (optional sign * amount)

variable {P : Pattern} {c : Char}

theorem matchEpsilon_optional (P : Pattern) : (optional P).matchEpsilon = true :=
  rfl

/-- Two tests that only ASCII can pass agree if they agree there. -/
theorem eq_of_ascii {p q : Char → Bool} (hp : ∀ c, p c = true → c.toNat < 128)
    (hq : ∀ c, q c = true → c.toNat < 128) (h : ∀ n < 128, p (.ofNat n) = q (.ofNat n)) (c : Char) :
    p c = q c := by
  by_cases hc : c.toNat < 128
  · simpa using h c.toNat hc
  · rw [Bool.eq_false_iff.mpr fun h => hc (hp c h), Bool.eq_false_iff.mpr fun h => hc (hq c h)]

theorem ascii_of_contains {cs : List Char} (h : cs.all (·.toNat < 128) = true) (c : Char)
    (hc : cs.contains c = true) : c.toNat < 128 :=
  List.all_iff_forall_prop.mp h c (List.contains_iff_mem.mp hc)

theorem ascii_of_isDigit (hc : c.isDigit = true) : c.toNat < 128 := by
  have hle : c.toNat ≤ 57 := by
    simp only [Char.isDigit, Bool.and_eq_true, decide_eq_true_eq, UInt32.le_iff_toNat_le] at hc
    exact hc.2
  omega

theorem ascii_of_isHexDigit (hc : isHexDigit c = true) : c.toNat < 128 := by
  simp only [isHexDigit, Bool.or_eq_true, Bool.and_eq_true, decide_eq_true_eq, Char.le_def,
    UInt32.le_iff_toNat_le] at hc
  rcases hc with (hc | hc) | hc
  · exact ascii_of_isDigit hc
  · exact Nat.lt_of_le_of_lt hc.2 (by decide)
  · exact Nat.lt_of_le_of_lt hc.2 (by decide)

theorem isDigit_eq (c : Char) : c.isDigit = "0123456789".toList.contains c :=
  eq_of_ascii (fun _ => ascii_of_isDigit) (ascii_of_contains (by decide)) (by decide) c

theorem isHexDigit_eq (c : Char) : isHexDigit c = "0123456789ABCDEFabcdef".toList.contains c :=
  eq_of_ascii (fun _ => ascii_of_isHexDigit) (ascii_of_contains (by decide)) (by decide +kernel) c

theorem isDigit_iff : c.isDigit = true ↔ c ∈ "0123456789".toList := by
  rw [isDigit_eq, List.contains_iff_mem]

theorem isHexDigit_iff : isHexDigit c = true ↔ c ∈ "0123456789ABCDEFabcdef".toList := by
  rw [isHexDigit_eq, List.contains_iff_mem]

theorem deriv_star : (P.star.deriv c).matches' = (P.deriv c).matches' * P.star.matches' :=
  rfl

theorem deriv_optional_char (d : Char) :
    ((optional (char d) * P).deriv c).matches' =
      (if c = d then P.matches' else 0) + (P.deriv c).matches' := by
  rw [deriv_mul_of_nil (matchEpsilon_optional _), deriv_optional, deriv_char, ite_mul,
    one_mul, zero_mul]

theorem deriv_sign :
    ((optional sign * P).deriv c).matches' =
      (if c = '+' ∨ c = '-' then P.matches' else 0) + (P.deriv c).matches' := by
  rw [deriv_mul_of_nil (matchEpsilon_optional _), deriv_optional, sign, deriv_anyOf, ite_mul,
    one_mul, zero_mul]
  simp

theorem deriv_digits :
    (digit.star.deriv c).matches' = if c.isDigit then digit.star.matches' else 0 := by
  rw [deriv_star, digit, deriv_anyOf, ite_mul, one_mul, zero_mul]
  simp only [isDigit_iff]

theorem deriv_fraction :
    (fraction.deriv c).matches' = if c = '.' then digit.star.matches' else 0 := by
  rw [fraction, deriv_mul rfl, deriv_char, ite_mul, one_mul, zero_mul]

theorem deriv_exponent : (exponent.deriv c).matches' =
    if c = 'e' ∨ c = 'E' then (optional sign * digit.star).matches' else 0 := by
  rw [exponent, deriv_mul (matchEpsilon_anyOf _), deriv_anyOf, ite_mul, one_mul, zero_mul]
  simp

theorem deriv_amount : (amount.deriv c).matches' =
    (if c.isDigit then amount.matches' else 0) + if c = '.' then digit.star.matches' else 0 := by
  rw [amount, deriv_mul_of_nil rfl, deriv_digits, deriv_optional, deriv_fraction, ite_mul, zero_mul]
  rfl

theorem deriv_binaryItems : (binaryItem.star.deriv c).matches' =
    (if isHexDigit c then binaryItem.star.matches' else 0) +
      if c = '\\' then
        (optional (char '\r') * (optional (char '\n') * binaryItem.star)).matches'
      else 0 := by
  rw [deriv_star, binaryItem, RegularExpression.deriv_add, matches'_add, add_mul, deriv_mul rfl,
    hexDigit, deriv_anyOf, deriv_char, ite_mul, ite_mul, ite_mul, one_mul, one_mul, zero_mul, zero_mul,
    zero_mul, matches'_mul, mul_assoc]
  simp only [isHexDigit_iff]
  rfl

end Pattern

open Pattern RegularExpression in
/-- What may follow in a literal. In the states that are not inside of one, nothing. -/
def Pattern.rest : Munch → Pattern
  | .binary => binaryItem.star
  | .binaryBackslash => optional (char '\r') * (optional (char '\n') * binaryItem.star)
  | .binaryReturn => optional (char '\n') * binaryItem.star
  | .digits point => (if point then digit.star else amount) * optional exponent
  | .exponent => optional sign * digit.star
  | .exponentDigits => digit.star
  | .money => optional sign * amount
  | .amount point => if point then digit.star else amount
  | _ => 0

namespace Pattern

/-- What may follow a character, of which nothing does if it does not belong. -/
def behind (next : Option Munch) : Language Char :=
  next.elim 0 fun m => (rest m).matches'

variable {m : Munch} {c : Char}

theorem behind_none : behind none = 0 :=
  rfl

theorem behind_some (m : Munch) : behind (some m) = (rest m).matches' :=
  rfl

theorem ne_of_isDigit (h : c.isDigit = true) : c ≠ '.' ∧ c ≠ 'e' ∧ c ≠ 'E' ∧ c ≠ '+' ∧ c ≠ '-' := by
  refine ⟨?_, ?_, ?_, ?_, ?_⟩ <;> rintro rfl <;> cases h

theorem deriv_rest_amount (point : Bool) (c : Char) :
    ((rest (.amount point)).deriv c).matches' = behind (Munch.afterAmount point c) := by
  have hrest : ((rest (.amount point)).deriv c).matches' =
      (if c.isDigit then (rest (.amount point)).matches' else 0) +
        if c = '.' ∧ point = false then digit.star.matches' else 0 := by
    cases point with
    | true =>
      simp only [Bool.true_eq_false, and_false, if_false, add_zero]
      exact deriv_digits
    | false =>
      simp only [and_true]
      exact deriv_amount
  rw [hrest, Munch.afterAmount]
  by_cases hd : c.isDigit = true
  · simp [hd, ne_of_isDigit hd, behind_some]
  by_cases hp : c = '.' ∧ point = false
  · simp [hp, behind_some, rest]
  · simp [hd, hp, behind_none]

theorem deriv_rest_digits (point : Bool) (c : Char) :
    ((rest (.digits point)).deriv c).matches' = behind (Munch.afterDigits point c) := by
  have hnil : (rest (.amount point)).matchEpsilon = true := by cases point <;> rfl
  have hrest : rest (.digits point) = rest (.amount point) * optional exponent := rfl
  rw [hrest, deriv_mul_of_nil hnil, deriv_rest_amount, deriv_optional, deriv_exponent,
    Munch.afterAmount, Munch.afterDigits]
  by_cases hd : c.isDigit = true
  · simp [hd, ne_of_isDigit hd, behind_some, hrest]
  by_cases hp : c = '.' ∧ point = false
  · simp [hp, behind_some, rest]
  by_cases he : c = 'e' ∨ c = 'E'
  · simp [hd, hp, he, behind_none, behind_some, rest]
  · simp [hd, hp, he, behind_none]

theorem deriv_rest_binary (c : Char) :
    (binaryItem.star.deriv c).matches' = behind (Munch.afterBinary c) := by
  rw [deriv_binaryItems, Munch.afterBinary]
  by_cases hx : isHexDigit c = true
  · have hb : c ≠ '\\' := by
      rintro rfl
      cases hx
    simp [hx, hb, behind_some, rest]
  by_cases hb : c = '\\'
  · rw [if_neg hx, if_pos hb, if_neg hx, if_pos hb, zero_add, behind_some]
    rfl
  · simp [hx, hb, behind_none]

/-- The state of the lexer stands for what may follow, before a character and behind it. -/
theorem deriv_rest (h : (rest m).matchEpsilon = true) (c : Char) :
    ((rest m).deriv c).matches' = behind (m.next c) := by
  cases m with
  | digits point => exact deriv_rest_digits point c
  | amount point => exact deriv_rest_amount point c
  | exponentDigits =>
    rw [rest, deriv_digits, Munch.next]
    by_cases hd : c.isDigit = true <;> simp [hd, behind_none, behind_some, rest]
  | exponent =>
    rw [rest, deriv_sign, deriv_digits, Munch.next]
    by_cases hd : c.isDigit = true
    · simp [hd, ne_of_isDigit hd, behind_some, rest]
    by_cases hs : c = '+' ∨ c = '-' <;> simp [hd, hs, behind_none, behind_some, rest]
  | money =>
    have hrest : rest .money = optional sign * rest (.amount false) := rfl
    rw [hrest, deriv_sign, deriv_rest_amount, Munch.next]
    by_cases hs : c = '+' ∨ c = '-'
    · have hnone : Munch.afterAmount false c = none := by rcases hs with rfl | rfl <;> rfl
      simp [hs, hnone, behind_none, behind_some]
    · simp [hs]
  | binary => exact deriv_rest_binary c
  | binaryReturn =>
    rw [rest, deriv_optional_char, deriv_rest_binary, Munch.next]
    by_cases hn : c = '\n'
    · have hnone : Munch.afterBinary c = none := by subst hn; rfl
      rw [if_pos hn, if_pos hn, hnone, behind_none, add_zero, behind_some, rest]
    · rw [if_neg hn, if_neg hn, zero_add]
  | binaryBackslash =>
    rw [rest, deriv_optional_char, deriv_optional_char, deriv_rest_binary, Munch.next]
    by_cases hr : c = '\r'
    · have hn : c ≠ '\n' := by subst hr; decide
      have hnone : Munch.afterBinary c = none := by subst hr; rfl
      rw [if_pos hr, if_pos hr, if_neg hn, hnone, behind_none, add_zero, add_zero, behind_some,
        rest]
    by_cases hn : c = '\n'
    · have hnone : Munch.afterBinary c = none := by subst hn; rfl
      rw [if_neg hr, if_neg hr, if_pos hn, if_pos hn, hnone, behind_none, zero_add, add_zero,
        behind_some, rest]
    · rw [if_neg hr, if_neg hr, if_neg hn, if_neg hn, zero_add, zero_add]
  | _ => cases h

theorem matchEpsilon_of_afterDigits {point : Bool} {m' : Munch}
    (h : Munch.afterDigits point c = some m') : (rest m').matchEpsilon = true := by
  unfold Munch.afterDigits at h
  split at h
  · cases h
    cases point <;> rfl
  split at h
  · cases h
    rfl
  split at h <;> cases h
  rfl

theorem matchEpsilon_of_afterAmount {point : Bool} {m' : Munch}
    (h : Munch.afterAmount point c = some m') : (rest m').matchEpsilon = true := by
  unfold Munch.afterAmount at h
  split at h
  · cases h
    cases point <;> rfl
  split at h <;> cases h
  rfl

theorem matchEpsilon_of_afterBinary {m' : Munch} (h : Munch.afterBinary c = some m') :
    (rest m').matchEpsilon = true := by
  unfold Munch.afterBinary at h
  split at h
  · cases h
    rfl
  split at h <;> cases h
  rfl

/-- Inside of a literal every state may be the last. -/
theorem matchEpsilon_rest {m' : Munch} (h : (rest m).matchEpsilon = true)
    (hm : m.next c = some m') : (rest m').matchEpsilon = true := by
  cases m with
  | digits point => exact matchEpsilon_of_afterDigits hm
  | amount point => exact matchEpsilon_of_afterAmount hm
  | binary => exact matchEpsilon_of_afterBinary hm
  | exponent | exponentDigits =>
    simp only [Munch.next] at hm
    split at hm <;> cases hm
    rfl
  | money =>
    simp only [Munch.next] at hm
    split at hm
    · cases hm
      rfl
    · exact matchEpsilon_of_afterAmount hm
  | binaryReturn =>
    simp only [Munch.next] at hm
    split at hm
    · cases hm
      rfl
    · exact matchEpsilon_of_afterBinary hm
  | binaryBackslash =>
    simp only [Munch.next] at hm
    split at hm
    · cases hm
      rfl
    split at hm
    · cases hm
      rfl
    · exact matchEpsilon_of_afterBinary hm
  | _ => cases h

theorem mem_rest_iff (h : (rest m).matchEpsilon = true) (w : List Char) :
    w ∈ (rest m).matches' ↔ ∃ m', m.after w = some m' := by
  induction w generalizing m with
  | nil => simp [nil_mem, h, Munch.after]
  | cons c w ih =>
    rw [cons_mem, deriv_rest h, Munch.after]
    cases hm : m.next c with
    | none => simp [behind_none]
    | some m₁ => exact ih (matchEpsilon_rest h hm)

end Pattern

end SqlOutline
