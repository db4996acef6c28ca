import SqlOutline.Proofs.Slice
import SqlOutline.Proofs.StatementCoupling
import SqlOutline.Proofs.StatementSegments
import SqlOutline.Proofs.Yields

namespace SqlOutline
open Parse

/-- The clause with each of its tokens put through `f`. -/
def Clause.map (f : Token → Token) (c : Clause) : Clause :=
  ⟨c.kind, f c.lead, c.body.map f⟩

/-- A span of clauses is the span of their tokens. -/
theorem Clause.spanOf_eq (cs : List Clause) :
    Clause.spanOf cs = ⟨(cs.flatMap Clause.tokens).head?.elim 0 Token.start,
      (cs.flatMap Clause.tokens).getLast?.elim 0 (·.span.last)⟩ := by
  have hfirst : cs.head?.elim 0 (·.span.first) =
      (cs.flatMap Clause.tokens).head?.elim 0 Token.start := by
    cases cs <;> rfl
  have hlast : cs.getLast?.elim 0 (·.span.last) =
      (cs.flatMap Clause.tokens).getLast?.elim 0 (·.span.last) := by
    rcases List.eq_nil_or_concat cs with rfl | ⟨cs, c, rfl⟩
    · rfl
    · rw [List.concat_eq_append, List.getLast?_concat, List.flatMap_append, List.flatMap_singleton, Clause.tokens,
        List.getLast?_append_of_ne_nil _ (List.cons_ne_nil _ _), List.getLast?_cons,
        ← List.getLastD_eq_getLast?]
      rfl
  rw [spanOf, hfirst, hlast]

/-- The first stream goes on with `x`, the second ends there, and up to there it has the tokens of
the first, each put through `f`. -/
def Ahead.Cut (f : Token → Token) (x s s' : Ahead) : Prop :=
  ∃ w, s = w ++ x ∧ s' = w.map f

namespace Ahead.Cut

variable {f : Token → Token} {x s s' : Ahead}

theorem trivia (h : Cut f x s s') (hf : ∀ t, (f t).kind = t.kind)
    (hx : x <:+ s.dropWhile Token.isTrivia) :
    s'.takeWhile Token.isTrivia = (s.takeWhile Token.isTrivia).map f ∧
      Cut f x (s.dropWhile Token.isTrivia) (s'.dropWhile Token.isTrivia) := by
  obtain ⟨w, rfl, rfl⟩ := h
  have settled : w.dropWhile Token.isTrivia = [] → x.Settled := by
    intro hw
    rw [List.dropWhile_append, hw, List.isEmpty_nil, if_pos rfl] at hx
    have hd := (List.dropWhile_suffix Token.isTrivia (l := x)).length_le
    rw [hx.eq_of_length_le hd]
    exact settled_dropWhile x
  have hp : Token.isTrivia ∘ f = Token.isTrivia := funext fun t => congrArg Kind.isTrivia (hf t)
  obtain ⟨htake, hdrop⟩ := trivia_before settled
  rw [htake, hdrop, List.takeWhile_map, List.dropWhile_map, hp]
  exact ⟨rfl, _, rfl, rfl⟩

theorem beside (h : Cut f x s s') (hf : ∀ t, (f t).kind = t.kind) (n : Nat) :
    Beside (fun _ => Cut f x) (fun ts us => us = ts.map f) (x <:+ ·) n s s' := by
  obtain ⟨w, rfl, rfl⟩ := h
  cases w with
  | nil =>
    refine .beyond (fun r hr hx => hr.eq_of_length_le hx.length_le) ?_
    intro t ht
    cases ht
  | cons t w => exact .token (hf t) rfl ⟨w, rfl, rfl⟩ fun _ _ _ => ⟨w, rfl, rfl⟩

end Ahead.Cut

/-- Two streams of which the second ends where the first goes on with `x`. -/
def Coupling.cut {f : Token → Token} (hf : ∀ t, (f t).kind = t.kind) (x : Ahead) : Coupling where
  rel _ := Ahead.Cut f x
  same ts us := us = ts.map f
  live r := x <:+ r
  same_nil := List.map_nil.symm
  same_append ht hu := (congrArg₂ _ ht hu).trans List.map_append.symm
  live_of_suffix h hx := hx.trans h
  rel_succ h := h
  gap h live := h.trivia hf live
  beside h _ _ _ := h.beside hf _

section cut

variable {f : Token → Token} (hf : ∀ t, (f t).kind = t.kind)
include hf

theorem Coupling.Clauses.eq_map {x : Ahead} ⦃c d : Clause⦄ (h : (Coupling.cut hf x).Clauses c d) :
    d = c.map f := by
  obtain ⟨kind, lead, body⟩ := d
  obtain ⟨hkind, hlead, hbody⟩ := h
  obtain rfl : kind = c.kind := hkind
  obtain rfl : body = c.body.map f := hbody
  obtain rfl : lead = f c.lead := List.cons.inj hlead |>.1
  rfl

/-- What is read of a statement does not depend on what follows it. -/
theorem Statement.gives_cut {depth : Nat} {w x : Ahead} {st : Statement}
    (h : (read depth).Gives (w ++ x) st x) (hw : ∀ t ∈ w.head?, t.isTrivia = false) :
    (read depth).Gives (w.map f) (st.map (.map f)) [] := by
  have hlt := h.length_lt (Parse.Progresses.readStatement depth)
  have met : (Coupling.cut hf x).Met (depth + 1) (w ++ x) (w.map f) := by
    cases w with
    | nil => exact absurd hlt (Nat.lt_irrefl _)
    | cons t w =>
      have ht := hw t rfl
      refine ⟨⟨t :: w, rfl, rfl⟩, ?_, ?_⟩
      · simpa [Ahead.Settled] using ht
      · simpa [Ahead.Settled, Token.isTrivia, hf] using ht
  have runs := Coupling.runs_readStatement (J := .cut hf x) (m := depth) fun _ _ _ => Nat.le_refl _
  obtain ⟨st', r', hread, alike, ⟨u, hu, rfl⟩, -, -⟩ := runs met h (List.suffix_refl x)
  obtain rfl : u = [] := List.self_eq_append_left.mp hu
  rw [← alike.eq_map (Coupling.Clauses.eq_map hf)]
  exact hread

end cut

/-- A statement spans its tokens from the first to the last. -/
theorem Statement.span_eq {st : Statement} {t u : Token} (ht : st.tokens.head? = some t)
    (hu : st.tokens.getLast? = some u) : st.span = ⟨t.start, u.span.last⟩ := by
  rw [tokens] at ht hu
  rw [span, Clause.spanOf_eq, ht, hu]
  rfl

/-- The tokens of a statement that a reader delivers are a part of those of the text, and no noise
stands first. -/
theorem StatementReader.Yields.split {settings : Settings} {text : List Char} {st : Statement}
    (h : (ofText settings text).Yields st) :
    ∃ pre x, tokenize settings text = pre ++ (st.tokens ++ x) ∧
      (Statement.read settings.depth).Gives (st.tokens ++ x) st x ∧
      ∃ t, st.tokens.head? = some t ∧ Ahead.isNoise t = false := by
  obtain ⟨s, x, ⟨pre, hpre⟩, hread⟩ := h.gives
  have hs : Ahead.dropNoise s = st.tokens ++ x :=
    (Parse.Segments.readStatement settings.depth hread).split
  have hnoise := Ahead.not_noise_of_dropNoise s
  rw [hs] at hpre hread hnoise
  refine ⟨pre, x, hpre.symm, hread, ?_⟩
  cases htokens : st.tokens with
  | nil =>
    have hlt := hread.length_lt (Parse.Progresses.readStatement settings.depth)
    rw [htokens] at hlt
    exact absurd hlt (Nat.lt_irrefl _)
  | cons t ts => exact ⟨t, rfl, hnoise t (by rw [htokens]; rfl)⟩

/-- Tokens that are all read as one statement are the outline of that statement. -/
theorem Outline.result_of_gives {depth : Nat} {s : Ahead} {st : Statement}
    (h : (Statement.read depth).Gives s st []) (hs : ∀ t ∈ s.head?, Ahead.isNoise t = false) :
    (ofAhead depth s).result = .ok [st] := by
  rw [← Ahead.dropNoise_of_head hs] at h
  obtain ⟨hstatements, hfault⟩ := ofAhead_cons h
  have hnil : ofAhead depth [] = {} := by simp [ofAhead, Ahead.dropNoise]
  rw [result, hfault, hstatements, hnil]

/-- Each statement of a text stands for itself. The part of the text that it spans, read on its own,
has this statement and no other, with every token back by as much as was cut off in front. What comes
after it in the text, faults included, makes no difference. -/
theorem statement_selfContained (settings : Settings) (text : List Char) (st : Statement)
    (h : (StatementReader.ofText settings text).Yields st) :
    (∀ t ∈ st.tokens, st.span.first ≤ t.start) ∧
      (Outline.ofText settings
        ((text.drop st.span.first).take (st.span.last + 1 - st.span.first))).result =
          .ok [st.map (.map (.back st.span.first))] := by
  obtain ⟨pre, x, htokens, hread, t, ht, hnoise⟩ := h.split
  obtain ⟨u, hu⟩ : ∃ u, st.tokens.getLast? = some u :=
    ⟨_, List.getLast?_eq_some_getLast fun he => by simp [he] at ht⟩
  rw [Statement.span_eq ht hu, Outline.ofText]
  constructor
  · intro v hv
    exact start_le_of_tokenize htokens (by rw [List.head?_append, ht]; rfl) v (by simp [hv])
  · rw [tokenize_slice (htokens.trans (List.append_assoc _ _ _).symm) ht hu]
    refine Outline.result_of_gives (Statement.gives_cut (f := .back t.start) (fun _ => rfl) hread
      fun v hv => ?_) ?_
    · obtain rfl : t = v := Option.some.inj (ht.symm.trans hv)
      exact (Bool.or_eq_false_iff.mp hnoise).1
    · rw [List.head?_map, ht]
      intro v ht
      cases ht
      exact hnoise

/-- What follows the statement of this text is none. -/
theorem statement_selfContained_beforeFault : ∃ st,
    (StatementReader.ofText {} "; SELECT (1);)".toList).Yields st ∧ st.span = ⟨2, 11⟩ ∧
      (Outline.ofText {} "SELECT (1)".toList).result = .ok [st.map (.map (.back 2))] := by
  have htokens : tokenize {} "; SELECT (1);)".toList =
      [⟨.punctuation .semicolon, 0, [';']⟩, ⟨.keyword .select, 2, "SELECT".toList⟩,
        ⟨.punctuation .openParen, 9, ['(']⟩, ⟨.number, 10, ['1']⟩,
        ⟨.punctuation .closeParen, 11, [')']⟩, ⟨.punctuation .semicolon, 12, [';']⟩,
        ⟨.punctuation .closeParen, 13, [')']⟩] := by
    decide +kernel
  have hreader : StatementReader.ofText {} "; SELECT (1);)".toList = ⟨64, _, none, false⟩ :=
    congrArg (StatementReader.mk 64 · none false) htokens
  have hspan : (StatementReader.ofText {} "; SELECT (1);)".toList).advance.2.current.map
      Statement.span = some ⟨2, 11⟩ := by
    rw [hreader]
    decide +kernel
  obtain ⟨st, hst, hspan⟩ := Option.map_eq_some_iff.mp hspan
  have hy : (StatementReader.ofText {} "; SELECT (1);)".toList).Yields st :=
    .advance (by rw [hreader]; decide +kernel) hst
  have hresult := (statement_selfContained {} _ st hy).2
  rw [hspan] at hresult
  exact ⟨st, hy, hspan, hresult⟩

end SqlOutline
