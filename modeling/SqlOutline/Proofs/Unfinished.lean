import SqlOutline.Proofs.FinalFault
import SqlOutline.Proofs.Slice
import SqlOutline.Proofs.StatementCompletion

namespace SqlOutline
open Lexeme

section kinds

variable {s : Settings}

theorem Blanks.kinds {gap : List Token} (h : Blanks s gap) : Token.kinds gap = [] :=
  Token.kinds_of_trivia h.isTrivia

theorem kinds_later (p : Nat) (u : List Char) :
    Token.kinds (tokensAt s p u) = Token.kinds (tokensAt s 0 u) := by
  have hlater := tokensAt_later s 0 p u
  rw [Nat.zero_add] at hlater
  rw [hlater, Token.kinds, Token.significant, List.filter_map, List.map_map]
  rfl

theorem kinds_dropBlanks (u : List Char) :
    Token.kinds (tokensAt s 0 (u.dropWhile Text.isBlank)) = Token.kinds (tokensAt s 0 u) := by
  cases hb : s.blanks with
  | false =>
    rw [← tokensAt_dropBlanks hb 0 u]
    exact (kinds_later _ _).symm
  | true =>
    cases u with
    | nil => rfl
    | cons c u =>
      by_cases hc : Text.isBlank c = true
      · have hblank := Blanks.ofLexeme hb hc 0 (u.takeWhile Text.isBlank)
        rw [List.dropWhile_cons_of_pos hc, tokensAt, if_neg (by simp [hb])]
        simp only [Munch.start, hc, if_true, Munch.run_blank]
        rw [← List.singleton_append, Token.kinds_append, hblank.kinds, List.nil_append]
        exact (kinds_later _ _).symm
      · rw [List.dropWhile_cons_of_neg hc]

/-- A line break behind a closed text keeps what stands before it from what stands behind. -/
theorem kinds_lineBreak {u : List Char} (h : LexicallyClosed (tokensAt s 0 u)) (v : List Char) :
    Token.kinds (tokensAt s 0 (u ++ '\n' :: v)) =
      Token.kinds (tokensAt s 0 u) ++ Token.kinds (tokensAt s 0 v) := by
  obtain ⟨ts, gap, gap', hts, hgap, hgap', hmore⟩ := tokensAt_lineBreak 0 u v h
  rw [hmore, hts, Token.kinds_append, Token.kinds_append, Token.kinds_append, hgap.kinds,
    hgap'.kinds, List.append_nil, List.nil_append, kinds_later (_ + _), kinds_dropBlanks]

end kinds

namespace Token

/-- The text of the token, taken on its own, is one lexeme and makes this token. -/
def standsAlone (t : Token) : Bool :=
  match t.text with
  | [] => false
  | c :: u =>
    !Text.isBlank c && (Munch.start c).run u = (u, []) && .ofLexeme true 0 t.text = t &&
      .ofLexeme false 0 t.text = t

theorem standsAlone_of_mem_finishing : ∀ t ∈ finishing, t.standsAlone = true := by
  decide +kernel

theorem lexicallyClosed_of_mem_finishing : ∀ t ∈ finishing, LexicallyClosed [t] := by
  decide

variable {s : Settings}

theorem standsAlone.tokens {t : Token} (h : t.standsAlone = true) : tokensAt s 0 t.text = [t] := by
  unfold standsAlone at h
  split at h
  next => cases h
  next c u htext =>
    simp only [Bool.and_eq_true, Bool.not_eq_true', decide_eq_true_eq] at h
    obtain ⟨⟨⟨hblank, hrun⟩, hquoted⟩, hplain⟩ := h
    have htoken : ofLexeme s.quoted 0 (c :: u) = t := by
      rw [← htext]
      cases s.quoted <;> assumption
    rw [htext, tokensAt, if_neg (by simp [hblank])]
    simp only [hrun, htoken, tokensAt]

/-- The tokens written out, each with a line break behind it. -/
def print (ts : List Token) : List Char :=
  ts.flatMap fun t => t.text ++ ['\n']

/-- What is written so is read again, but for the places. -/
theorem kinds_print {x : List Token} (hx : x ⊆ finishing) :
    kinds (tokensAt s 0 (print x)) = kinds x := by
  induction x with
  | nil => simp [print, tokensAt]
  | cons t x ih =>
    obtain ⟨ht, hx⟩ := List.cons_subset.mp hx
    have hclosed := lexicallyClosed_of_mem_finishing t ht
    have htokens := standsAlone.tokens (s := s) (standsAlone_of_mem_finishing t ht)
    have hprint : print (t :: x) = t.text ++ '\n' :: print x := by
      simp [print]
    rw [hprint, kinds_lineBreak (htokens ▸ hclosed), ih hx, htokens, ← kinds_append,
      List.singleton_append]

end Token

/-- A fault at the end of a text means that there has to be more of it, and nothing else. Where every
token of the text is closed and every parenthesis of it may hold a subquery, the fault is one of
coming to the end if and only if some text on a new line behind makes statements of the whole. -/
theorem unexpectedEnd_iff_unfinished (settings : Settings) (text : List Char) (e : Fault)
    (hclosed : LexicallyClosed (tokenize settings text))
    (hroom : Token.opened (tokenize settings text) ≤ settings.depth)
    (h : (Outline.ofText settings text).result = .error e) :
    (∃ expected, e = .unexpectedEnd expected) ↔
      ∃ more sts, (Outline.ofText settings (text ++ '\n' :: more)).result = .ok sts := by
  obtain ⟨r, hr⟩ := Outline.result_eq_error_iff.mp h
  rw [← hr.eq_nil_iff]
  constructor
  · intro hend
    obtain ⟨x, hx, sts, hsts⟩ := hr.finish hend hroom
    have hkinds : Token.kinds (tokenize settings (text ++ '\n' :: Token.print x)) =
        Token.kinds (tokenize settings text ++ x) := by
      rw [tokenize, kinds_lineBreak hclosed, Token.kinds_print hx, Token.kinds_append, tokenize]
    have hagree := Outline.agree_of_kinds settings.depth hkinds
    rw [hsts] at hagree
    generalize hmore : (Outline.ofAhead settings.depth _).result = result at hagree
    cases hagree with
    | @ok _ sts' => exact ⟨Token.print x, sts', hmore⟩
  · intro hmore
    obtain ⟨more, sts, hsts⟩ := hmore
    by_contra hne
    obtain ⟨r', hr'⟩ := hr.continued hne (hclosed.continued more)
    cases hr'.result.symm.trans hsts

/-- A query in a query in a clause, with a CASE that is still open: only the nearest parenthesis is
reported, and all of it can be finished. -/
theorem unexpectedEnd_iff_unfinished_case :
    let text := "UPDATE (SELECT 1 UNION (SELECT CASE".toList
    let e := Fault.unexpectedEnd "')'"
    LexicallyClosed (tokenize {} text) ∧ Token.opened (tokenize {} text) ≤ ({} : Settings).depth ∧
      (Outline.ofText {} text).result = .error e ∧
      ∃ more sts, (Outline.ofText {} (text ++ '\n' :: more)).result = .ok sts := by
  intro text e
  have htokens : tokenize {} text = [⟨.keyword .update, 0, "UPDATE".toList⟩,
      ⟨.punctuation .openParen, 7, ['(']⟩, ⟨.keyword .select, 8, "SELECT".toList⟩,
      ⟨.number, 15, ['1']⟩, ⟨.keyword .union, 17, "UNION".toList⟩,
      ⟨.punctuation .openParen, 23, ['(']⟩, ⟨.keyword .select, 24, "SELECT".toList⟩,
      ⟨.keyword .case, 31, "CASE".toList⟩] := by
    decide +kernel
  have hclosed : LexicallyClosed (tokenize {} text) := by
    rw [htokens]
    decide
  have hroom : Token.opened (tokenize {} text) ≤ ({} : Settings).depth := by
    rw [htokens]
    decide
  have hfault : (Outline.ofText {} text).fault = some e := by
    rw [Outline.ofText, htokens]
    decide +kernel
  have hresult : (Outline.ofText {} text).result = .error e := by
    rw [Outline.result, hfault]
  exact ⟨hclosed, hroom, hresult,
    (unexpectedEnd_iff_unfinished {} text e hclosed hroom hresult).mp ⟨_, rfl⟩⟩

end SqlOutline
