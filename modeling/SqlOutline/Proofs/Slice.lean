import SqlOutline.Proofs.Lossless
import SqlOutline.Proofs.OpenLexeme

namespace SqlOutline
open Lexeme

/-- The token as it is where the text starts `n` characters later. -/
def Token.back (n : Nat) (t : Token) : Token :=
  { t with start := t.start - n }

/-- The token as it is where the text starts `n` characters earlier. -/
def Token.later (n : Nat) (t : Token) : Token :=
  { t with start := t.start + n }

theorem Token.back_later (n : Nat) (t : Token) : (t.later n).back n = t := by
  simp [back, later]

/-- A run does not look beyond the character that ends it, and needs none to end. -/
theorem Lexeme.Munch.run_take {m : Munch} {t v w : List Char} (h : (m.run t).2 = v ++ w) :
    m.run ((m.run t).1 ++ v) = ((m.run t).1, v) := by
  induction t generalizing m with
  | nil =>
    obtain ⟨rfl, rfl⟩ := List.nil_eq_append_iff.mp h
    rfl
  | cons c t ih =>
    cases hn : m.next c with
    | none =>
      simp only [run, hn] at h ⊢
      cases v with
      | nil => rfl
      | cons d v =>
        obtain ⟨rfl, -⟩ := List.cons.inj h
        simp [run, hn]
    | some m' =>
      simp only [run, hn] at h ⊢
      simp only [List.cons_append, run, hn, ih h]

variable {s : Settings} {p : Nat} {u : List Char} {pre mid post : List Token}

/-- Lexing may start at any token. -/
theorem tokensAt_drop (h : tokensAt s p u = pre ++ mid) :
    ∃ before rest, u = before ++ rest ∧ tokensAt s (p + before.length) rest = mid ∧
      ∀ t ∈ mid.head?, t.start = p + before.length := by
  fun_induction tokensAt s p u generalizing pre with
  | case1 p =>
    obtain ⟨rfl, rfl⟩ := List.nil_eq_append_iff.mp h
    exact ⟨[], [], rfl, by simp [tokensAt], by simp⟩
  | case2 p c u _ ih =>
    obtain ⟨before, rest, rfl, hmid, hstart⟩ := ih h
    rw [Nat.add_assoc, Nat.add_comm 1, ← List.length_cons (a := c)] at hmid hstart
    exact ⟨c :: before, rest, rfl, hmid, hstart⟩
  | case3 p c u hb run =>
    rename_i ih
    cases pre with
    | nil =>
      obtain rfl : _ = mid := h
      refine ⟨[], c :: u, rfl, ?_, by simp [Token.ofLexeme]⟩
      rw [tokensAt, if_neg hb]
      rfl
    | cons t pre =>
      obtain ⟨before, rest, hrun, hmid, hstart⟩ := ih (List.cons.inj h).2
      have hlen : p + 1 + run.1.length + before.length = p + (c :: run.1 ++ before).length := by
        rw [List.length_append, List.length_cons]
        omega
      rw [hlen] at hmid hstart
      refine ⟨c :: run.1 ++ before, rest, ?_, hmid, hstart⟩
      rw [List.append_assoc, ← hrun]
      exact congrArg (c :: ·) (Munch.run_append _ _).symm

/-- Lexing may stop behind any token. -/
theorem tokensAt_take (h : tokensAt s p u = mid ++ post) :
    ∃ rest after, u = rest ++ after ∧ tokensAt s p rest = mid ∧
      p + rest.length = mid.getLast?.elim p (·.span.last + 1) := by
  cases mid with
  | nil => exact ⟨[], u, rfl, by simp [tokensAt], rfl⟩
  | cons t mid =>
    fun_induction tokensAt s p u generalizing t mid with
    | case1 => cases h
    | case2 p c u hb ih =>
      obtain ⟨rest, after, rfl, hmid, hlast⟩ := ih t mid h
      refine ⟨c :: rest, after, rfl, ?_, ?_⟩
      · rw [tokensAt, if_pos hb, hmid]
      · rw [List.getLast?_cons] at hlast ⊢
        rw [List.length_cons, Nat.add_comm rest.length, ← Nat.add_assoc]
        exact hlast
    | case3 p c u hb run ih =>
      have hrun : run.1 ++ run.2 = u := Munch.run_append _ _
      obtain ⟨rfl, hrest⟩ := List.cons.inj h
      obtain ⟨rest, after, hsplit, hmid, hlast⟩ :
          ∃ rest after, run.2 = rest ++ after ∧ tokensAt s (p + 1 + run.1.length) rest = mid ∧
            p + 1 + run.1.length + rest.length =
              mid.getLast?.elim (p + 1 + run.1.length) (·.span.last + 1) := by
        cases mid with
        | nil => exact ⟨[], run.2, rfl, by simp [tokensAt], rfl⟩
        | cons t mid => exact ih t mid hrest
      refine ⟨c :: run.1 ++ rest, after, ?_, ?_, ?_⟩
      · rw [List.append_assoc, ← hsplit]
        exact congrArg (c :: ·) hrun.symm
      · have hrun' : (Munch.start c).run (run.1 ++ rest) = (run.1, rest) := Munch.run_take hsplit
        rw [List.cons_append, tokensAt, if_neg hb]
        simp only [hrun', hmid]
      · have hlen : p + (c :: run.1 ++ rest).length = p + 1 + run.1.length + rest.length := by
          rw [List.length_append, List.length_cons]
          omega
        have htoken := Token.last_span (t := .ofLexeme s.quoted p (c :: run.1)) (List.cons_ne_nil _ _)
        rw [hlen, hlast, List.getLast?_cons]
        cases mid.getLast? with
        | some t => rfl
        | none =>
          refine Eq.trans ?_ htoken.symm
          simp only [Token.ofLexeme, Token.length, List.length_cons, Option.elim_none]
          omega

/-- Where a text begins changes the starts of its tokens and nothing else. -/
theorem tokensAt_later (s : Settings) (p n : Nat) (u : List Char) :
    tokensAt s (p + n) u = (tokensAt s p u).map (Token.later n) := by
  fun_induction tokensAt s p u with
  | case1 => simp [tokensAt]
  | case2 p c u hb ih =>
    rw [tokensAt, if_pos hb, Nat.add_right_comm]
    exact ih
  | case3 p c u hb run ih =>
    have hp : p + n + 1 + run.1.length = p + 1 + run.1.length + n := by omega
    rw [tokensAt, if_neg hb, List.map_cons, ← ih, ← hp]
    rfl

theorem tokensAt_back (s : Settings) (p n : Nat) (u : List Char) :
    (tokensAt s (p + n) u).map (Token.back n) = tokensAt s p u := by
  simp [tokensAt_later, Function.comp_def, Token.back_later]

/-- No token starts before one that stands in front of it. -/
theorem start_le_of_tokenize {s : Settings} {text : List Char} {pre mid : List Token} {t : Token}
    (h : tokenize s text = pre ++ mid) (ht : mid.head? = some t) : ∀ u ∈ mid, t.start ≤ u.start := by
  obtain ⟨before, rest, -, rfl, hstart⟩ := tokensAt_drop h
  intro u hu
  obtain ⟨front, after, -, hu⟩ := text_of_mem_tokensAt _ _ hu
  rw [hu, hstart t ht]
  exact Nat.le_add_right _ _

/-- The part of a text from the start of one token to the end of another has the tokens between. -/
theorem tokenize_slice {s : Settings} {text : List Char} {pre mid post : List Token} {t u : Token}
    (h : tokenize s text = pre ++ mid ++ post) (ht : mid.head? = some t)
    (hu : mid.getLast? = some u) :
    tokenize s ((text.drop t.start).take (u.span.last + 1 - t.start)) = mid.map (.back t.start) := by
  rw [List.append_assoc] at h
  obtain ⟨before, rest, rfl, hrest, hstart⟩ := tokensAt_drop h
  obtain ⟨slice, after, rfl, hslice, hlast⟩ := tokensAt_take hrest
  have hs : t.start = 0 + before.length := hstart t (by simp [ht])
  have hl : 0 + before.length + slice.length = u.span.last + 1 := by rw [hlast, hu]; rfl
  have hlen : u.span.last + 1 - t.start = slice.length := by omega
  rw [hlen, hs, Nat.zero_add, List.drop_left, List.take_left, ← hslice, tokenize,
    ← tokensAt_back s 0 before.length]

/-- A run of tokens is what its own part of the text is read as. The part of a text from the first
character of one token to the last of another has the tokens from the one to the other and no more,
each back by as much as was cut off in front. A source that is given the part alone delivers the same,
so it carries nothing from one token to the next. -/
theorem tokens_between (settings : Settings) (text : List Char) (i j : Nat) (t u : Token)
    (hij : i ≤ j) (hi : (tokenize settings text)[i]? = some t)
    (hj : (tokenize settings text)[j]? = some u) :
    let part := (text.drop t.span.first).take (u.span.last + 1 - t.span.first)
    let run := ((tokenize settings text).drop i).take (j + 1 - i)
    (∀ v ∈ run, t.span.first ≤ v.start) ∧
      tokenize settings part = run.map (.back t.span.first) ∧
      ∀ k, (TokenSource.advance^[k + 1] (.ofText settings part)).current =
        (run.map (.back t.span.first))[k]? := by
  intro part run
  have hback : run ++ ((tokenize settings text).drop i).drop (j + 1 - i) =
      (tokenize settings text).drop i := List.take_append_drop _ _
  have hfront : tokenize settings text =
      (tokenize settings text).take i ++ (tokenize settings text).drop i :=
    (List.take_append_drop _ _).symm
  have hhead : ((tokenize settings text).drop i).head? = some t := by rw [List.head?_drop, hi]
  have ht : run.head? = some t := by rw [List.head?_take, if_neg (by omega), hhead]
  have hu : run.getLast? = some u := by
    have hlast : i + (j + 1 - i - 1) = j := by omega
    rw [List.getLast?_take, if_neg (by omega), List.getElem?_drop, hlast, hj]
    rfl
  have hsplit : tokenize settings text =
      (tokenize settings text).take i ++ run ++ ((tokenize settings text).drop i).drop (j + 1 - i) := by
    rw [List.append_assoc, hback]
    exact hfront
  have hpart : tokenize settings part = run.map (.back t.span.first) := tokenize_slice hsplit ht hu
  refine ⟨fun v hv => ?_, hpart, fun k => ?_⟩
  · exact start_le_of_tokenize hfront hhead v (List.mem_of_mem_take hv)
  · rw [← hpart]
    exact (TokenSource.holds_ofText settings part).current_iterate k

/-- The comment holds a quote and the string a comment mark, and each ends where it did. -/
theorem tokens_between_comment :
    let text := "1--b'\n'c--'2".toList
    let s : Settings := { blanks := true }
    (tokenize s text)[1]? = some ⟨.lineComment, 1, "--b'".toList⟩ ∧
      (tokenize s text)[3]? = some ⟨.string, 6, "'c--'".toList⟩ ∧
      tokenize s "--b'\n'c--'".toList =
        [⟨.lineComment, 0, "--b'".toList⟩, ⟨.whitespace, 4, ['\n']⟩, ⟨.string, 5, "'c--'".toList⟩] := by
  intro text s
  have htokens : tokenize s text = [⟨.number, 0, ['1']⟩, ⟨.lineComment, 1, "--b'".toList⟩,
      ⟨.whitespace, 5, ['\n']⟩, ⟨.string, 6, "'c--'".toList⟩, ⟨.number, 11, ['2']⟩] := by
    decide +kernel
  have hi : (tokenize s text)[1]? = some ⟨.lineComment, 1, "--b'".toList⟩ := by rw [htokens]; rfl
  have hj : (tokenize s text)[3]? = some ⟨.string, 6, "'c--'".toList⟩ := by rw [htokens]; rfl
  have hbetween := (tokens_between s text 1 3 _ _ (by decide) hi hj).2.1
  rw [htokens] at hbetween
  exact ⟨hi, hj, hbetween⟩

/-- What is put behind a text leaves every token but the last as it is. -/
theorem tokensAt_dropLast_prefix (s : Settings) (p : Nat) (u v : List Char) :
    (tokensAt s p u).dropLast <+: tokensAt s p (u ++ v) := by
  fun_induction tokensAt s p u with
  | case1 => exact List.nil_prefix
  | case2 p c u hb ih =>
    rw [List.cons_append, tokensAt, if_pos hb]
    exact ih
  | case3 p c u hb run ih =>
    rw [List.cons_append, tokensAt, if_neg hb]
    rcases Munch.after_or_run (Munch.start c) u with ⟨m, hm⟩ | ⟨-, hlocal⟩
    · -- The text ends inside this lexeme, so that no other token comes before the last.
      have hrest : run.2 = [] := congrArg Prod.snd (Munch.run_of_after hm)
      rw [hrest, tokensAt]
      exact List.nil_prefix
    · simp only [hlocal v]
      cases hrest : tokensAt s (p + 1 + run.1.length) run.2 with
      | nil => exact List.nil_prefix
      | cons t ts =>
        rw [hrest] at ih
        exact List.cons_prefix_cons.mpr ⟨rfl, ih⟩

/-- Text that is appended can change the last token and no other. Each of the others is a token of the
longer text as well, of the same number, kind, text and place, whatever the longer text opens or
closes. -/
theorem tokens_before_last (settings : Settings) (text more : List Char) :
    (tokenize settings text).dropLast <+: tokenize settings (text ++ more) :=
  tokensAt_dropLast_prefix settings 0 text more

end SqlOutline
