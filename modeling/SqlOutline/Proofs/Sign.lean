import Mathlib.Data.Bool.AllAny
import SqlOutline.Proofs.Spelling
import SqlOutline.Proofs.TokenEnd

namespace SqlOutline

/-- The operators of two signs. -/
def compoundOperators : List String :=
  ["<>", "<=", ">=", "!=", "!<", "!>", "=*", "+=", "-=", "*=", "/=", "%=", "&=", "|=", "^=", "::"]

/-- What opens a comment, and would be two operators otherwise. -/
def commentMarks : List String :=
  ["--", "/*"]

namespace Lexeme
open Text

variable {quoted : Bool} {c : Char} {s t : List Char}

namespace Munch

/-- A sign goes on with what makes a comment or a compound operator of it, and with nothing else. -/
theorem next_start_sign (hc : c ∈ operatorSigns) (d : Char) :
    (start c).next d =
      if [c, d] = "--".toList then some .lineComment
      else if [c, d] = "/*".toList then some (.blockComment 1 none)
      else if ∃ w ∈ compoundOperators, [c, d] = w.toList then some .full
      else none := by
  have hstart : start '=' = .oneOf ['*'] ∧ start '~' = .full ∧ start '-' = .dash ∧
      start '/' = .slash ∧ start '<' = .oneOf ['>', '='] ∧ start '!' = .oneOf ['=', '<', '>'] ∧
      start ':' = .oneOf [':'] := by
    decide
  have heq : ∀ c ∈ ['+', '*', '>', '&', '|', '^', '%'], start c = .oneOf ['='] :=
    List.all_iff_forall_prop.mp (by decide)
  -- One case for each sign, as the second is any character.
  simp only [operatorSigns, List.mem_cons, List.not_mem_nil, or_false] at hc
  rcases hc with rfl | rfl | rfl | rfl | rfl | rfl | rfl | rfl | rfl | rfl | rfl | rfl | rfl | rfl
  all_goals simp [hstart, heq, next, compoundOperators]

/-- A sign opens a comment, or makes an operator with the sign behind it, or stands alone where no
such sign is behind it. -/
theorem run_start_sign (hc : c ∈ operatorSigns) (v : List Char) :
    (∃ w ∈ commentMarks, w.toList <+: c :: ((start c).run v).1) ∨
      (∃ w ∈ compoundOperators, c :: ((start c).run v).1 = w.toList) ∨
      (start c).run v = ([], v) ∧
        ∀ d ∈ v.head?, ∀ w ∈ compoundOperators ++ commentMarks, [c, d] ≠ w.toList := by
  cases v with
  | nil => exact .inr (.inr ⟨rfl, by simp⟩)
  | cons d u =>
    have hnext := next_start_sign hc d
    split at hnext
    next hdash =>
      refine .inl ⟨"--", by decide, ?_⟩
      rw [run, hnext, ← hdash]
      exact ⟨_, rfl⟩
    split at hnext
    next hslash =>
      refine .inl ⟨"/*", by decide, ?_⟩
      rw [run, hnext, ← hslash]
      exact ⟨_, rfl⟩
    split at hnext
    next hcompound =>
      obtain ⟨w, hw, hcd⟩ := hcompound
      have hfull : Munch.full.run u = ([], u) := by cases u <;> rfl
      refine .inr (.inl ⟨w, hw, ?_⟩)
      rw [run, hnext, ← hcd]
      simp only [hfull]
    next hdash hslash hcompound =>
      refine .inr (.inr ⟨by simp [run, hnext], ?_⟩)
      intro e he w hw hce
      obtain rfl : d = e := Option.some.inj he
      rcases List.mem_append.mp hw with hw | hw
      · exact hcompound ⟨w, hw, hce⟩
      · simp only [commentMarks, List.mem_pair] at hw
        rcases hw with rfl | rfl
        · exact hdash hce
        · exact hslash hce

end Munch

theorem kind_lineComment : kind quoted s = .lineComment ↔ "--".toList <+: s := by
  cases s with
  | nil => simp [kind]
  | cons c s =>
    have hquoted := quotedKind_ne (k := .lineComment) (by decide)
    have hword : ¬ wordKind quoted (c :: s) = .lineComment := wordKind_ne rfl (by decide)
    constructor
    · intro h
      simp only [kind, ite_eq_iff, reduceCtorEq, hquoted, hword, and_false, or_false, false_or,
        and_true] at h
      exact List.isPrefixOf_iff_prefix.mp h.2.2
    · rintro ⟨t, ht⟩
      rw [← ht]
      simp [kind, show isBlank '-' = false from rfl]

theorem opens_no_comment (hc : c ∉ ['-', '/']) : ∀ w ∈ commentMarks, ¬ w.toList <+: c :: t := by
  have hhead : ∀ w ∈ commentMarks, ∃ d ∈ ['-', '/'], ∃ u, w.toList = d :: u := by
    simp [commentMarks]
  intro w hw hmark
  obtain ⟨d, hd, u, hdu⟩ := hhead w hw
  rw [hdu, List.cons_prefix_cons] at hmark
  exact hc (hmark.1 ▸ hd)

/-- The kind of a lexeme that no blank, comment, string or variable starts. -/
theorem kind_of_start (hblank : isBlank c = false) (hc : c ∉ ['@', '\'', 'N', '"'])
    (hmarks : ∀ w ∈ commentMarks, ¬ w.toList <+: c :: t) :
    kind quoted (c :: t) =
      if c = '$' then if t.head?.any isAlphabetic then .systemColumn else .money
      else if isCurrencySign c then .money
      else if c = '0' ∧ t.head?.any (fun d => d = 'x' || d = 'X') then .binary
      else if c.isDigit ∨ (c = '.' ∧ t.head?.any Char.isDigit) then .number
      else if operatorSigns.contains c ∨ operatorWords.any (·.toList == upper (c :: t)) then .operator
      else wordKind quoted (c :: t) := by
  simp only [List.mem_cons, List.not_mem_nil, or_false, not_or] at hc
  obtain ⟨hat, hquote, hN, hdouble⟩ := hc
  have hdash := hmarks "--" (by decide)
  have hslash := hmarks "/*" (by decide)
  rw [← List.isPrefixOf_iff_prefix] at hdash hslash
  simp only [kind, hblank, hdash, hslash]
  simp [hat, hquote, Ne.symm hN, hdouble]

/-- A sign opens an operator where it opens no comment. -/
theorem kind_sign (hc : c ∈ operatorSigns) :
    kind quoted (c :: t) = .operator ↔ ∀ w ∈ commentMarks, ¬ w.toList <+: c :: t := by
  constructor
  · intro h w hw hmark
    simp only [commentMarks, List.mem_pair] at hw
    rcases hw with rfl | rfl
    · rw [kind_lineComment.mpr hmark] at h
      cases h
    · obtain ⟨u, hu⟩ := hmark
      rw [← hu] at h
      have hcomment := (kind_of_comment quoted u).symm.trans h
      split at hcomment <;> cases hcomment
  · intro hmarks
    have hall : ∀ d ∈ operatorSigns, isBlank d = false ∧ d ∉ ['@', '\'', 'N', '"'] ∧
        d ∉ ['$', '.', '0'] ∧ isCurrencySign d = false ∧ d.isDigit = false :=
      List.all_iff_forall_prop.mp (by decide)
    obtain ⟨hblank, hstart, hother, hcurrency, hdigit⟩ := hall c hc
    simp only [List.mem_cons, List.not_mem_nil, or_false, not_or] at hother
    obtain ⟨hdollar, hpoint, hzero⟩ := hother
    rw [kind_of_start hblank hstart hmarks, if_neg hdollar, hcurrency, if_neg Bool.false_ne_true,
      if_neg (hzero ·.1), hdigit, if_neg (by simp [hpoint]),
      if_pos (.inl (List.contains_iff_mem.mpr hc))]

/-- An operator is a word, or two signs that make one together, or a sign that makes nothing with what
is behind it. -/
theorem run_of_operator {v : List Char}
    (h : kind quoted (c :: ((Munch.start c).run v).1) = .operator) :
    (∃ w ∈ operatorWords, upper (c :: ((Munch.start c).run v).1) = w.toList) ∨
      (∃ w ∈ compoundOperators, c :: ((Munch.start c).run v).1 = w.toList) ∨
      c ∈ operatorSigns ∧ (Munch.start c).run v = ([], v) ∧
        ∀ d ∈ v.head?, ∀ w ∈ compoundOperators ++ commentMarks, [c, d] ≠ w.toList := by
  rcases upper_of_kind h (by decide) with hword | ⟨-, sign, hsign, hhead⟩
  · exact .inl hword
  obtain rfl : c = sign := Option.some.inj hhead
  refine .inr (((Munch.run_start_sign hsign v).resolve_left ?_).imp_right (.intro hsign))
  rintro ⟨w, hw, hmark⟩
  exact (kind_sign hsign).mp h w hw hmark

end Lexeme

end SqlOutline
