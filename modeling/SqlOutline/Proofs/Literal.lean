import SqlOutline.Proofs.LiteralPattern
import SqlOutline.Proofs.Sign

namespace SqlOutline
open Lexeme

namespace Lexeme
open Pattern RegularExpression

/-- The text starts as a number that is not binary. -/
def OpensNumber (s : List Char) : Prop :=
  ∃ c u, s = c :: u ∧ (c.isDigit = true ∨ c = '.' ∧ u.head?.any Char.isDigit = true)

/-- The text starts as an amount of money. A dollar alone does not make it one. -/
def OpensMoney (symbol : Char) (s : List Char) : Prop :=
  ∃ u, s = symbol :: u ∧ isCurrencySign symbol = true ∧
    (symbol = '$' → u.head?.any (fun d => d = '+' || d = '-' || d = '.' || d.isDigit) = true)

theorem Munch.run_congr {m m' : Munch} {t : List Char} (h : ∀ c ∈ t.head?, m.next c = m'.next c) :
    m.run t = m'.run t := by
  cases t with
  | nil => rfl
  | cons c t => rw [run, run, h c rfl]

variable {c : Char} {v : List Char}

theorem longest_rest {m : Munch} (h : (rest m).matchEpsilon = true) (u : List Char) :
    LongestMatch (rest m).matches' u (m.run u).1 :=
  Munch.longest_run (mem_rest_iff h) u

theorem longest_binary (h : OpensBinary (c :: v)) :
    LongestMatch binary.matches' (c :: v) (c :: ((Munch.start c).run v).1) := by
  obtain ⟨x, u, hx, rfl, rfl⟩ : ∃ x u, x ∈ ['x', 'X'] ∧ c = '0' ∧ v = x :: u := by
    rcases h with ⟨u, hu⟩ | ⟨u, hu⟩ <;> obtain ⟨rfl, rfl⟩ := List.cons.inj hu
    · exact ⟨'x', u, by simp, rfl, rfl⟩
    · exact ⟨'X', u, by simp, rfl, rfl⟩
  have hrun : (Munch.start '0').run (x :: u) =
      (x :: (Munch.binary.run u).1, (Munch.binary.run u).2) := by
    have hafter : (Munch.start '0').after [x] = some .binary := by
      rcases List.mem_pair.mp hx with rfl | rfl <;> rfl
    exact Munch.run_append_of_after hafter u
  have hzero : (binary.deriv '0').matches' = (anyOf ['x', 'X'] * binaryItem.star).matches' := by
    rw [binary, deriv_mul rfl, deriv_char, if_pos rfl, one_mul]
  have hsecond : ((anyOf ['x', 'X'] * binaryItem.star).deriv x).matches' =
      (rest .binary).matches' := by
    rw [deriv_mul rfl, deriv_anyOf, if_pos hx, one_mul, rest]
  rw [hrun]
  refine .of_deriv (hzero ▸ .of_deriv ?_)
  rw [hsecond]
  exact longest_rest rfl u

theorem deriv_number (h : c.isDigit = true) :
    (number.deriv c).matches' = (rest (.digits false)).matches' := by
  rw [number, deriv_mul rfl, RegularExpression.deriv_add, matches'_add, deriv_mul rfl,
    deriv_mul rfl, deriv_mul rfl, deriv_char, if_neg (ne_of_isDigit h).1, digit, deriv_anyOf,
    if_pos (isDigit_iff.mp h), one_mul, zero_mul, add_zero]
  rfl

theorem start_of_isDigit (h : c.isDigit = true) :
    Munch.start c = if c = '0' then .zero else .digits false := by
  have hblank : ∀ d ∈ "0123456789".toList, Text.isBlank d = false :=
    List.all_iff_forall_prop.mp (by decide)
  simp [Munch.start, h, hblank c (isDigit_iff.mp h)]

/-- A zero starts a number like any other digit, unless what follows makes it binary. -/
theorem run_of_isDigit (hbinary : ¬ OpensBinary (c :: v)) (h : c.isDigit = true) :
    (Munch.start c).run v = (Munch.digits false).run v := by
  rw [start_of_isDigit h]
  split
  next hc =>
    subst hc
    refine Munch.run_congr fun d hd => ?_
    obtain ⟨u, rfl⟩ := List.head?_eq_some_iff.mp hd
    have hx : ¬ (d = 'x' ∨ d = 'X') := by
      rintro (rfl | rfl)
      · exact hbinary (.inl ⟨u, rfl⟩)
      · exact hbinary (.inr ⟨u, rfl⟩)
    simp [Munch.next, not_or.mp hx]
  next => rfl

theorem longest_number (hbinary : ¬ OpensBinary (c :: v)) (h : OpensNumber (c :: v)) :
    LongestMatch number.matches' (c :: v) (c :: ((Munch.start c).run v).1) := by
  obtain ⟨d, u, hdu, h⟩ := h
  obtain ⟨rfl, rfl⟩ := List.cons.inj hdu
  rcases h with hdigit | ⟨rfl, hsecond⟩
  · rw [run_of_isDigit hbinary hdigit]
    refine .of_deriv ?_
    rw [deriv_number hdigit]
    exact longest_rest rfl v
  · obtain ⟨d, hd, hdigit⟩ := (Option.any_eq_true _ _).mp hsecond
    obtain ⟨u, rfl⟩ := List.head?_eq_some_iff.mp hd
    have hrun : (Munch.start '.').run (d :: u) =
        (d :: ((Munch.digits true).run u).1, ((Munch.digits true).run u).2) := by
      have hafter : (Munch.start '.').after [d] = some (.digits true) := by
        have hstart : Munch.start '.' = .dot := rfl
        simp [hstart, Munch.after, Munch.next, hdigit]
      exact Munch.run_append_of_after hafter u
    have hpoint : (number.deriv '.').matches' =
        (digit * digit.star * optional exponent).matches' := by
      rw [number, deriv_mul rfl, RegularExpression.deriv_add, matches'_add, deriv_mul rfl,
        deriv_mul rfl, deriv_mul rfl, deriv_char, if_pos rfl, digit, deriv_anyOf,
        if_neg (by decide), zero_mul, zero_mul, zero_add, one_mul]
      rfl
    have hdigits : ((digit * digit.star * optional exponent).deriv d).matches' =
        (rest (.digits true)).matches' := by
      rw [deriv_mul rfl, deriv_mul rfl, digit, deriv_anyOf, if_pos (isDigit_iff.mp hdigit), one_mul]
      rfl
    rw [hrun]
    refine .of_deriv (hpoint ▸ .of_deriv ?_)
    rw [hdigits]
    exact longest_rest rfl u

theorem start_of_isCurrencySign (h : isCurrencySign c = true) :
    Munch.start c = if c = '$' then .dollar else .money := by
  have hall : ∀ d ∈ currencySigns, Munch.start d = if d = '$' then .dollar else .money :=
    List.all_iff_forall_prop.mp (by decide +kernel)
  exact hall c (List.contains_iff_mem.mp h)

theorem longest_money {symbol : Char} (h : OpensMoney symbol (c :: v)) :
    LongestMatch (money symbol).matches' (c :: v) (c :: ((Munch.start c).run v).1) := by
  obtain ⟨u, hu, hsign, hdollar⟩ := h
  obtain ⟨rfl, rfl⟩ := List.cons.inj hu
  have hrun : (Munch.start c).run v = Munch.money.run v := by
    rw [start_of_isCurrencySign hsign]
    split
    next hc =>
      refine Munch.run_congr fun d hd => ?_
      have hnext := hdollar hc
      rw [hd] at hnext
      rcases (by simpa [or_assoc] using hnext : d = '+' ∨ d = '-' ∨ d = '.' ∨ d.isDigit = true) with
        rfl | rfl | rfl | hdigit
      · rfl
      · rfl
      · rfl
      · simp [Munch.next, hdigit]
    next => rfl
  have hsymbol : ((money c).deriv c).matches' = (rest .money).matches' := by
    rw [money, deriv_mul rfl, deriv_char, if_pos rfl, one_mul, rest]
  rw [hrun]
  refine .of_deriv ?_
  rw [hsymbol]
  exact longest_rest rfl v

section kind

variable {quoted : Bool} {s w : List Char}

theorem opensBinary_cons :
    OpensBinary (c :: w) ↔ c = '0' ∧ w.head?.any (fun d => d = 'x' || d = 'X') = true := by
  cases w with
  | nil => simp [OpensBinary, List.cons_prefix_cons]
  | cons d w =>
    simp [OpensBinary, List.cons_prefix_cons, @eq_comm _ '0', @eq_comm _ 'x', @eq_comm _ 'X',
      ← and_or_left]

theorem opensNumber_cons :
    OpensNumber (c :: w) ↔ c.isDigit = true ∨ c = '.' ∧ w.head?.any Char.isDigit = true := by
  cases w <;> simp [OpensNumber]

theorem kind_of_opensNumber (hbinary : ¬ OpensBinary (c :: w)) (h : OpensNumber (c :: w)) :
    kind quoted (c :: w) = .number := by
  have hall : ∀ d ∈ ".0123456789".toList, Text.isBlank d = false ∧ d ∉ ['@', '\'', 'N', '"'] ∧
      d ∉ ['-', '/'] ∧ d ≠ '$' ∧ isCurrencySign d = false :=
    List.all_iff_forall_prop.mp (by decide)
  rw [opensBinary_cons] at hbinary
  rw [opensNumber_cons] at h
  have hmem : c ∈ ".0123456789".toList := by
    rcases h with h | ⟨rfl, -⟩
    · exact List.mem_cons_of_mem _ (isDigit_iff.mp h)
    · decide
  obtain ⟨hblank, hc, hmark, hdollar, hcurrency⟩ := hall c hmem
  rw [kind_of_start hblank hc (opens_no_comment hmark), if_neg hdollar, hcurrency,
    if_neg (by simp), if_neg hbinary, if_pos h]

theorem kind_of_opensMoney {symbol : Char} (h : OpensMoney symbol (c :: w)) :
    kind quoted (c :: w) = .money := by
  obtain ⟨u, hu, hsign, hdollar⟩ := h
  obtain ⟨rfl, rfl⟩ := List.cons.inj hu
  have hall : ∀ d ∈ currencySigns,
      Text.isBlank d = false ∧ d ∉ ['@', '\'', 'N', '"'] ∧ d ∉ ['-', '/'] :=
    List.all_iff_forall_prop.mp (by decide)
  obtain ⟨hblank, hc, hmark⟩ := hall c (List.contains_iff_mem.mp hsign)
  rw [kind_of_start hblank hc (opens_no_comment hmark), if_pos hsign]
  split
  next hc =>
    obtain ⟨d, hd, hnext⟩ := (Option.any_eq_true _ _).mp (hdollar hc)
    simp only [Bool.or_eq_true, decide_eq_true_eq, or_assoc] at hnext
    have hletter : ∀ d ∈ "+-.0123456789".toList, Text.isAlphabetic d = false :=
      List.all_iff_forall_prop.mp (by decide +kernel)
    have hmem : d ∈ "+-.0123456789".toList := by
      rcases hnext with rfl | rfl | rfl | hdigit
      · decide
      · decide
      · decide
      · exact List.mem_append_right "+-.".toList (isDigit_iff.mp hdigit)
    obtain ⟨u, rfl⟩ := List.head?_eq_some_iff.mp hd
    simp [hletter d hmem]
  next => rfl

theorem opensBinary_of_kind (h : kind quoted s = .binary) : OpensBinary s := by
  cases s with
  | nil => cases h
  | cons c s =>
    have hquoted := quotedKind_ne (k := .binary) (by decide)
    have hword : ¬ wordKind quoted (c :: s) = .binary := wordKind_ne rfl (by decide)
    simp only [kind, ite_eq_iff, reduceCtorEq, hquoted, hword, and_false, or_false, false_or,
      and_true] at h
    obtain ⟨-, -, -, -, -, -, -, -, hzero⟩ := h
    exact opensBinary_cons.mpr hzero

theorem opensNumber_of_kind (h : kind quoted s = .number) : ¬ OpensBinary s ∧ OpensNumber s := by
  cases s with
  | nil => cases h
  | cons c s =>
    have hquoted := quotedKind_ne (k := .number) (by decide)
    have hword : ¬ wordKind quoted (c :: s) = .number := wordKind_ne rfl (by decide)
    simp only [kind, ite_eq_iff, reduceCtorEq, hquoted, hword, and_false, or_false, false_or,
      and_true] at h
    obtain ⟨-, -, -, -, -, -, -, -, hzero, hdigit⟩ := h
    exact ⟨fun h => hzero (opensBinary_cons.mp h), opensNumber_cons.mpr hdigit⟩

end kind

/-- A test that only a character that belongs can pass sees the same in the lexeme. -/
theorem Munch.any_head?_run {m : Munch} {p : Char → Bool} (h : ∀ d, p d = true → m.next d ≠ none)
    (v : List Char) : (m.run v).1.head?.any p = v.head?.any p := by
  cases v with
  | nil => rfl
  | cons d v =>
    cases hd : m.next d with
    | none =>
      have hp : p d = false := Bool.eq_false_iff.mpr fun hp => h d hp hd
      simp [run, hd, hp]
    | some m' => simp [run, hd]

theorem opensBinary_run :
    OpensBinary (c :: ((Munch.start c).run v).1) ↔ OpensBinary (c :: v) := by
  rw [opensBinary_cons, opensBinary_cons]
  refine and_congr_right ?_
  rintro rfl
  rw [Munch.any_head?_run]
  intro d hd
  have hx : d = 'x' ∨ d = 'X' := by simpa using hd
  rcases hx with rfl | rfl <;> exact nofun

theorem opensNumber_run :
    OpensNumber (c :: ((Munch.start c).run v).1) ↔ OpensNumber (c :: v) := by
  rw [opensNumber_cons, opensNumber_cons]
  refine or_congr_right (and_congr_right ?_)
  rintro rfl
  rw [Munch.any_head?_run]
  intro d hd
  have hstart : Munch.start '.' = .dot := rfl
  simp [hstart, Munch.next, hd]

theorem opensMoney_run {symbol : Char} (h : OpensMoney symbol (c :: v)) :
    OpensMoney symbol (c :: ((Munch.start c).run v).1) := by
  obtain ⟨u, hu, hsign, hdollar⟩ := h
  obtain ⟨rfl, rfl⟩ := List.cons.inj hu
  refine ⟨_, rfl, hsign, ?_⟩
  rintro rfl
  rw [Munch.any_head?_run]
  · exact hdollar rfl
  intro d hd
  have hstart : Munch.start '$' = .dollar := rfl
  have hnext : (d = '+' ∨ d = '-') ∨ d = '.' ∨ d.isDigit = true := by simpa [or_assoc] using hd
  rcases hnext with hs | rfl | hdigit
  · simp [hstart, Munch.next, hs]
  · exact Option.some_ne_none _
  · simp [hstart, Munch.next, Munch.afterAmount, hdigit]

end Lexeme

/-- Literals are longest matches. Where a text goes on with a binary literal, with a number or with
an amount of money, the token is of that kind, and its text is the longest that the pattern of such
literals matches. No other token is a binary literal or a number. -/
theorem literals_longest (settings : Settings) (text : List Char) :
    ∀ t ∈ tokenize settings text,
      let rest := text.drop t.start
      (t.kind = .binary ↔ OpensBinary rest) ∧
      (t.kind = .number ↔ ¬ OpensBinary rest ∧ OpensNumber rest) ∧
      (OpensBinary rest → LongestMatch Pattern.binary.matches' rest t.text) ∧
      (¬ OpensBinary rest → OpensNumber rest → LongestMatch Pattern.number.matches' rest t.text) ∧
      ∀ symbol, OpensMoney symbol rest →
        t.kind = .money ∧ LongestMatch (Pattern.money symbol).matches' rest t.text := by
  intro t ht rest
  obtain ⟨c, v, hrest, hlexeme, -⟩ := run_of_mem_tokenize ht
  rw [show rest = c :: v from hrest, hlexeme]
  simp only [Token.ofLexeme]
  refine ⟨⟨fun h => ?_, fun h => ?_⟩, ⟨fun h => ?_, fun h => ?_⟩, longest_binary, longest_number,
    fun symbol h => ⟨kind_of_opensMoney (opensMoney_run h), longest_money h⟩⟩
  · exact opensBinary_run.mp (opensBinary_of_kind h)
  · exact kind_of_opensBinary (opensBinary_run.mpr h)
  · exact (opensNumber_of_kind h).imp (mt opensBinary_run.mpr) opensNumber_run.mp
  · exact kind_of_opensNumber (mt opensBinary_run.mp h.1) (opensNumber_run.mpr h.2)

/-- The line break belongs to the binary literal, a second point to the next number, and an exponent
and an amount need no digit. -/
theorem literals_longest_marks :
    let text := "0xA\\\r\n-1.2.3e $-.".toList
    let amount := Pattern.money '$'
    tokenize {} text = [⟨.binary, 0, "0xA\\\r\n".toList⟩, ⟨.operator, 6, ['-']⟩,
        ⟨.number, 7, "1.2".toList⟩, ⟨.number, 10, ".3e".toList⟩, ⟨.money, 14, "$-.".toList⟩] ∧
      LongestMatch Pattern.binary.matches' text "0xA\\\r\n".toList ∧
      LongestMatch Pattern.number.matches' "1.2.3e $-.".toList "1.2".toList ∧
      LongestMatch Pattern.number.matches' ".3e $-.".toList ".3e".toList ∧
      LongestMatch amount.matches' "$-.".toList "$-.".toList := by
  intro text amount
  have htokens : tokenize {} text = [⟨.binary, 0, "0xA\\\r\n".toList⟩, ⟨.operator, 6, ['-']⟩,
      ⟨.number, 7, "1.2".toList⟩, ⟨.number, 10, ".3e".toList⟩, ⟨.money, 14, "$-.".toList⟩] := by
    decide +kernel
  have hliteral := literals_longest {} text
  rw [htokens] at hliteral
  obtain ⟨-, -, hbinary, -⟩ := hliteral ⟨.binary, 0, "0xA\\\r\n".toList⟩ (by simp)
  obtain ⟨-, hnumber, -, hlongest, -⟩ := hliteral ⟨.number, 7, "1.2".toList⟩ (by simp)
  obtain ⟨-, hnumber', -, hlongest', -⟩ := hliteral ⟨.number, 10, ".3e".toList⟩ (by simp)
  obtain ⟨-, -, -, -, hmoney⟩ := hliteral ⟨.money, 14, "$-.".toList⟩ (by simp)
  obtain ⟨hno, hopens⟩ := hnumber.mp rfl
  obtain ⟨hno', hopens'⟩ := hnumber'.mp rfl
  have hdollar : OpensMoney '$' "$-.".toList := ⟨"-.".toList, rfl, by decide, fun _ => by decide⟩
  exact ⟨htokens, hbinary (.inl ⟨_, rfl⟩), hlongest hno hopens, hlongest' hno' hopens',
    (hmoney '$' hdollar).2⟩

end SqlOutline
