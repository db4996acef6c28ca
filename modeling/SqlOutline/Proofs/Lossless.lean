import Mathlib.Data.List.Chain
import SqlOutline.Proofs.Reading

namespace SqlOutline
open Lexeme

/-- One token stands directly behind the other, the first at `p`, and none is empty. -/
def Token.Tiles : Nat → List Token → Prop
  | _, [] => True
  | p, t :: ts => t.start = p ∧ t.text ≠ [] ∧ Tiles (p + t.length) ts

namespace Token

theorem last_span {t : Token} (h : t.text ≠ []) : t.span.last + 1 = t.start + t.length := by
  have : 0 < t.length := List.length_pos_of_ne_nil h
  simp only [span]
  omega

theorem length_span {t : Token} (h : t.text ≠ []) : t.span.length = t.length := by
  rw [Span.length, last_span h]
  exact Nat.add_sub_cancel_left _ _

namespace Tiles

variable {p : Nat} {ts : List Token}

theorem head (h : Tiles p ts) : ∀ t ∈ ts.head?, t.start = p := by
  cases ts with
  | nil => simp
  | cons t ts => simpa using h.1

theorem text_ne_nil (h : Tiles p ts) : ∀ t ∈ ts, t.text ≠ [] := by
  induction ts generalizing p with
  | nil => simp
  | cons t ts ih =>
    intro u hu
    rcases List.mem_cons.mp hu with rfl | hu
    · exact h.2.1
    · exact ih h.2.2 u hu

theorem chain (h : Tiles p ts) : ts.IsChain fun t u => u.start = t.span.last + 1 := by
  induction ts generalizing p with
  | nil => exact .nil
  | cons t ts ih =>
    obtain ⟨rfl, hne, hrest⟩ := h
    rw [List.isChain_cons]
    refine ⟨fun u hu => ?_, ih hrest⟩
    rw [hrest.head u hu, last_span hne]

theorem last (h : Tiles p ts) :
    ∀ t ∈ ts.getLast?, t.span.last + 1 = p + (ts.flatMap Token.text).length := by
  induction ts generalizing p with
  | nil => simp
  | cons t ts ih =>
    obtain ⟨rfl, hne, hrest⟩ := h
    intro u hu
    cases ts with
    | nil =>
      obtain rfl : t = u := by simpa using hu
      simpa [length] using last_span hne
    | cons v ts =>
      rw [List.getLast?_cons_cons] at hu
      rw [ih hrest u hu, List.flatMap_cons (x := t), List.length_append]
      exact Nat.add_assoc _ _ _

end Tiles

end Token

section tokensAt

variable {s : Settings} (p : Nat) (u : List Char)

/-- Where blanks are tokens no character stands outside of one. -/
theorem flatMap_text_tokensAt (hs : s.blanks = true) :
    (tokensAt s p u).flatMap Token.text = u := by
  fun_induction tokensAt s p u with
  | case1 => rfl
  | case2 p c u hb => simp [hs] at hb
  | case3 p c u _ run ih =>
    rw [List.flatMap_cons, ih]
    exact congrArg (c :: ·) (Munch.run_append _ _)

theorem tiles_tokensAt (hs : s.blanks = true) : Token.Tiles p (tokensAt s p u) := by
  fun_induction tokensAt s p u with
  | case1 => trivial
  | case2 p c u hb => simp [hs] at hb
  | case3 p c u _ run ih =>
    refine ⟨rfl, List.cons_ne_nil _ _, ?_⟩
    rw [Token.length, Token.ofLexeme, List.length_cons, Nat.add_comm _ 1, ← Nat.add_assoc]
    exact ih

/-- A token is what the lexer takes in from the place where the token starts. -/
theorem run_of_mem_tokensAt {t : Token} (ht : t ∈ tokensAt s p u) :
    ∃ before c v, u = before ++ c :: v ∧
      t = .ofLexeme s.quoted (p + before.length) (c :: ((Munch.start c).run v).1) := by
  fun_induction tokensAt s p u with
  | case1 => cases ht
  | case2 p c u _ ih =>
    obtain ⟨before, d, v, rfl, rfl⟩ := ih ht
    refine ⟨c :: before, d, v, rfl, ?_⟩
    rw [List.length_cons, Nat.add_comm before.length, Nat.add_assoc]
  | case3 p c u _ run ih =>
    have hrun : run.1 ++ run.2 = u := Munch.run_append _ _
    rcases List.mem_cons.mp ht with rfl | ht
    · exact ⟨[], c, u, rfl, rfl⟩
    · obtain ⟨before, d, v, hrest, rfl⟩ := ih ht
      refine ⟨c :: run.1 ++ before, d, v, ?_, ?_⟩
      · rw [List.append_assoc, ← hrest]
        exact congrArg (c :: ·) hrun.symm
      · rw [List.length_append, List.length_cons]
        congr 1
        omega

/-- A token is a piece of the text, and its start says which. -/
theorem text_of_mem_tokensAt {t : Token} (ht : t ∈ tokensAt s p u) :
    ∃ before after, u = before ++ t.text ++ after ∧ t.start = p + before.length := by
  obtain ⟨before, c, v, rfl, rfl⟩ := run_of_mem_tokensAt p u ht
  refine ⟨before, ((Munch.start c).run v).2, ?_, rfl⟩
  rw [List.append_assoc, Token.ofLexeme, List.cons_append, Munch.run_append]

end tokensAt

theorem Token.text_eq_slice {s : Settings} {u : List Char} {t : Token} (ht : t ∈ tokenize s u)
    (hne : t.text ≠ []) : t.text = (u.drop t.span.first).take (t.span.last + 1 - t.span.first) := by
  obtain ⟨before, after, rfl, hstart⟩ := text_of_mem_tokensAt 0 u ht
  rw [last_span hne, span, hstart, Nat.zero_add, Nat.add_sub_cancel_left, List.append_assoc,
    List.drop_left, length, List.take_left]

/-- Lexing loses nothing. Read with its blanks, every text is the texts of its tokens, one directly
behind the other from the first character to the last, each of them where its span says. The tokens
are those that a source gives one at a time, so what a lexeme has looked at and put back is neither
lost nor read twice. -/
theorem tokenize_lossless (settings : Settings) (text : List Char) :
    let s := { settings with blanks := true }
    let tokens := tokenize s text
    (∀ k, (TokenSource.advance^[k + 1] (.ofText s text)).current = tokens[k]?) ∧
    (∀ t ∈ tokens, t.text ≠ []) ∧
    tokens.flatMap Token.text = text ∧
    (∀ t ∈ tokens.head?, t.span.first = 0) ∧
    tokens.IsChain (fun t u => u.span.first = t.span.last + 1) ∧
    (∀ t ∈ tokens.getLast?, t.span.last + 1 = text.length) ∧
    ∀ t ∈ tokens, t.span.last + 1 - t.span.first = t.length ∧
      t.text = (text.drop t.span.first).take (t.span.last + 1 - t.span.first) := by
  intro s tokens
  have htiles : Token.Tiles 0 tokens := tiles_tokensAt 0 text rfl
  have htext : tokens.flatMap Token.text = text := flatMap_text_tokensAt 0 text rfl
  refine ⟨(TokenSource.holds_ofText s text).current_iterate, htiles.text_ne_nil, htext, htiles.head,
    htiles.chain, fun t ht => ?_, fun t ht => ?_⟩
  · rw [htiles.last t ht, htext, Nat.zero_add]
  · have hne := htiles.text_ne_nil t ht
    exact ⟨Token.length_span hne, Token.text_eq_slice ht hne⟩

end SqlOutline
