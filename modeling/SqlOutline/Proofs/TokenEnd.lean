import SqlOutline.Proofs.LineBreak

namespace SqlOutline
open Lexeme

variable {s : Settings} {text : List Char} {t : Token}

/-- A token is the run of the lexer on the rest of the text, from the first character of the token. -/
theorem run_of_mem_tokenize (ht : t ∈ tokenize s text) :
    ∃ c v, text.drop t.start = c :: v ∧
      t = .ofLexeme s.quoted t.start (c :: ((Munch.start c).run v).1) ∧
      text.drop (t.start + t.length) = ((Munch.start c).run v).2 := by
  obtain ⟨before, c, v, rfl, rfl⟩ := run_of_mem_tokensAt 0 text ht
  refine ⟨c, v, ?_, ?_, ?_⟩
  · rw [Token.ofLexeme, Nat.zero_add, List.drop_left]
  · rfl
  · have hrun : c :: v = (c :: ((Munch.start c).run v).1) ++ ((Munch.start c).run v).2 := by
      rw [List.cons_append, Munch.run_append]
    rw [Token.length, Token.ofLexeme, Nat.zero_add, hrun, ← List.append_assoc, ← List.length_append,
      List.drop_left]

theorem starts_of_mem_tokenize (ht : t ∈ tokenize s text) : t.text <+: text.drop t.start := by
  obtain ⟨c, v, hrest, hlexeme, -⟩ := run_of_mem_tokenize ht
  rw [hrest, hlexeme]
  exact ⟨((Munch.start c).run v).2, congrArg (c :: ·) (Munch.run_append _ _)⟩

/-- A token that runs to the end of the text is the last. -/
theorem getLast?_of_end {p : Nat} {u : List Char} (ht : t ∈ tokensAt s p u)
    (hend : p + u.length ≤ t.start + t.length) : (tokensAt s p u).getLast? = some t := by
  fun_induction tokensAt s p u with
  | case1 => cases ht
  | case2 p c u _ ih =>
    refine ih ht ?_
    rw [List.length_cons] at hend
    omega
  | case3 p c u _ run ih =>
    have hlength : run.1.length + run.2.length = u.length := by
      rw [← List.length_append, Munch.run_append]
    rw [List.length_cons] at hend
    rcases List.mem_cons.mp ht with rfl | ht
    · have hlast : (Token.ofLexeme s.quoted p (c :: run.1)).start +
          (Token.ofLexeme s.quoted p (c :: run.1)).length = p + (run.1.length + 1) := rfl
      have hrest : run.2 = [] := List.eq_nil_of_length_eq_zero (by omega)
      rw [hrest, tokensAt, List.getLast?_singleton]
    · rw [List.getLast?_cons, ih ht (by omega), Option.getD_some]

/-- The end of such a token is the end of the text. -/
theorem last_of_behind (ht : t ∈ tokenize s text) (h : text.drop (t.start + t.length) = []) :
    (tokenize s text).getLast? = some t ∧ t.span.last + 1 = text.length := by
  obtain ⟨before, after, htext, hstart⟩ := text_of_mem_tokensAt 0 text ht
  obtain ⟨c, v, -, hlexeme, -⟩ := run_of_mem_tokenize ht
  have hne : t.text ≠ [] := by
    rw [hlexeme]
    exact List.cons_ne_nil _ _
  have hle : text.length ≤ t.start + t.length := List.drop_eq_nil_iff.mp h
  have hge : t.start + t.length ≤ text.length := by
    rw [htext, hstart, List.length_append, List.length_append, Token.length]
    omega
  refine ⟨getLast?_of_end ht (by omega), ?_⟩
  rw [Token.last_span hne]
  omega

end SqlOutline
