import Mathlib.Data.List.Chain
import SqlOutline.Proofs.Segmentation
import SqlOutline.Proofs.SelfContained
import SqlOutline.Proofs.Slot

namespace SqlOutline
open Lexeme Parse

namespace Span

/-- The span reaches from the first of the tokens to the last. -/
structure Covers (a : Span) (ts : List Token) : Prop where
  ends : ∃ t u, ts.head? = some t ∧ ts.getLast? = some u ∧ a = ⟨t.span.first, u.span.last⟩
  first_le_last : a.first ≤ a.last
  length : a.first + a.length = a.last + 1

/-- One span stands behind the other in a text. Whatever is between them is blank, and where blanks
are tokens nothing is. -/
structure Next (s : Settings) (text : List Char) (a b : Span) : Prop where
  lt : a.last < b.first
  blank : ∀ i, a.last < i → i < b.first → ∃ c, text[i]? = some c ∧ Text.isBlank c = true
  adjacent : s.blanks = true → b.first = a.last + 1

end Span

namespace Token

variable {s : Settings} {text : List Char} {ts us : List Token} {t : Token}

/-- The tokens stand in the text in their order and one next to the other. -/
structure Laid (s : Settings) (text : List Char) (ts : List Token) : Prop where
  nonempty : ∀ t ∈ ts, t.text ≠ []
  order : ts.Pairwise fun t u => t.span.last < u.span.first
  chain : ts.IsChain fun t u => Span.Next s text t.span u.span

theorem first_le_last (h : t.text ≠ []) : t.span.first ≤ t.span.last := by
  have := last_span h
  have : 0 < t.length := List.length_pos_of_ne_nil h
  simp only [span] at *
  omega

/-- The first token of a text stands behind blanks only. -/
theorem first_tokensAt (s : Settings) (p : Nat) (u before : List Char) (hp : p = before.length) :
    ∀ t ∈ (tokensAt s p u).head?, p ≤ t.span.first ∧
      (∀ i, p ≤ i → i < t.span.first → ∃ c, (before ++ u)[i]? = some c ∧ Text.isBlank c = true) ∧
      (s.blanks = true → t.span.first = p) := by
  fun_induction tokensAt s p u generalizing before with
  | case1 => simp
  | case2 p c u hb ih =>
    intro t ht
    simp only [Bool.and_eq_true, Bool.not_eq_true'] at hb
    obtain ⟨hle, hblank, -⟩ := ih (before ++ [c]) (by simp [hp]) t ht
    rw [List.append_assoc, List.singleton_append] at hblank
    refine ⟨by omega, fun i hi hlt => ?_, by simp [hb]⟩
    rcases Nat.eq_or_lt_of_le hi with rfl | hi
    · exact ⟨c, by simp [hp], hb.1⟩
    · exact hblank i hi hlt
  | case3 p c u hb run =>
    intro t ht
    obtain rfl := Option.some.inj ht
    refine ⟨Nat.le_refl _, fun i hi hlt => ?_, fun _ => rfl⟩
    exact absurd (Nat.lt_of_le_of_lt hi hlt) (Nat.lt_irrefl _)

theorem chain_tokensAt (s : Settings) (p : Nat) (u before : List Char) (hp : p = before.length) :
    (tokensAt s p u).IsChain fun t v => Span.Next s (before ++ u) t.span v.span := by
  fun_induction tokensAt s p u generalizing before with
  | case1 => exact .nil
  | case2 p c u _ ih => simpa using ih (before ++ [c]) (by simp [hp])
  | case3 p c u _ run ih =>
    have hrun : run.1 ++ run.2 = u := Munch.run_append _ _
    have htext : before ++ c :: u = (before ++ c :: run.1) ++ run.2 := by simp [← hrun]
    have hend : p + 1 + run.1.length = (before ++ c :: run.1).length := by
      simp only [hp, List.length_append, List.length_cons]
      omega
    have hlast : (ofLexeme s.quoted p (c :: run.1)).span.last + 1 = p + 1 + run.1.length := by
      rw [last_span (List.cons_ne_nil c run.1)]
      simp only [ofLexeme, Token.length, List.length_cons]
      omega
    rw [htext, List.isChain_cons]
    refine ⟨fun v hv => ?_, ih _ hend⟩
    obtain ⟨hle, hblank, hadj⟩ := first_tokensAt s _ run.2 _ hend v hv
    refine ⟨by omega, fun i hi hlt => hblank i (by omega) hlt, fun hs => ?_⟩
    rw [hadj hs, hlast]

theorem pairwise_tokensAt (s : Settings) (p : Nat) (u : List Char) :
    (tokensAt s p u).Pairwise fun t v => t.span.last < v.span.first := by
  fun_induction tokensAt s p u with
  | case1 => exact .nil
  | case2 p c u _ ih => exact ih
  | case3 p c u _ run ih =>
    refine List.pairwise_cons.mpr ⟨fun v hv => ?_, ih⟩
    obtain ⟨front, -, -, hstart⟩ := text_of_mem_tokensAt _ _ hv
    simp only [span, ofLexeme, Token.length, List.length_cons]
    omega

theorem laid_tokenize (s : Settings) (text : List Char) : Laid s text (tokenize s text) where
  nonempty t ht := by
    obtain ⟨_, c, v, -, rfl⟩ := run_of_mem_tokensAt 0 text ht
    exact List.cons_ne_nil _ _
  order := pairwise_tokensAt s 0 text
  chain := chain_tokensAt s 0 text [] rfl

namespace Laid

theorem part (h : Laid s text us) (hts : ts <:+: us) : Laid s text ts :=
  ⟨fun t ht => h.nonempty t (hts.subset ht), h.order.sublist hts.sublist,
    List.IsChain.infix h.chain hts⟩

theorem first_le (h : Laid s text ts) (ht : ts.head? = some t) :
    ∀ u ∈ ts, t.span.first ≤ u.span.first := by
  obtain ⟨us, rfl⟩ := List.head?_eq_some_iff.mp ht
  intro u hu
  rcases List.mem_cons.mp hu with rfl | hu
  · exact Nat.le_refl _
  · have := first_le_last (h.nonempty t List.mem_cons_self)
    have := (List.pairwise_cons.mp h.order).1 u hu
    omega

theorem le_last (h : Laid s text ts) (ht : ts.getLast? = some t) :
    ∀ u ∈ ts, u.span.last ≤ t.span.last := by
  obtain ⟨us, rfl⟩ := List.getLast?_eq_some_iff.mp ht
  intro u hu
  rcases List.mem_append.mp hu with hu | hu
  · have := first_le_last (h.nonempty t (by simp))
    have := (List.pairwise_append.mp h.order).2.2 u hu t (by simp)
    omega
  · obtain rfl := List.mem_singleton.mp hu
    exact Nat.le_refl _

end Laid

end Token


namespace Clause

variable {s : Settings} {text : List Char} {cs : List Clause} {c d : Clause}

theorem getLast?_tokens (c : Clause) : c.tokens.getLast? = some (c.body.getLastD c.lead) := by
  rw [tokens, List.getLast?_cons, List.getLastD_eq_getLast?]

theorem mem_tokens_last (c : Clause) : c.body.getLastD c.lead ∈ c.tokens :=
  List.mem_of_getLast? c.getLast?_tokens

/-- Clauses in a row span their tokens. -/
theorem covers_spanOf (h : Token.Laid s text (cs.flatMap tokens)) (hne : cs ≠ []) :
    (spanOf cs).Covers (cs.flatMap tokens) := by
  obtain ⟨c, cs, rfl⟩ := List.exists_cons_of_ne_nil hne
  have hcons : (c :: cs).flatMap tokens = c.lead :: (c.body ++ cs.flatMap tokens) := rfl
  obtain ⟨u, hu⟩ : ∃ u, ((c :: cs).flatMap tokens).getLast? = some u :=
    ⟨_, List.getLast?_eq_some_getLast (by simp [hcons])⟩
  have hspan : spanOf (c :: cs) = ⟨c.lead.span.first, u.span.last⟩ := by
    rw [spanOf_eq, hu]
    rfl
  have hle : c.lead.span.first ≤ u.span.last :=
    Nat.le_trans (Token.first_le_last (h.nonempty c.lead (by simp [hcons])))
      (h.le_last hu c.lead (by simp [hcons]))
  refine ⟨⟨c.lead, u, rfl, hu, hspan⟩, ?_, ?_⟩
  · rw [hspan]
    exact hle
  · rw [hspan]
    simp only [Span.length]
    omega

theorem covers_of_mem (h : Token.Laid s text (cs.flatMap tokens)) (hc : c ∈ cs) :
    c.span.Covers c.tokens := by
  have hpart : [c].flatMap tokens <:+: cs.flatMap tokens := by
    obtain ⟨front, back, rfl⟩ := List.append_of_mem hc
    exact ⟨front.flatMap tokens, back.flatMap tokens, by simp⟩
  have hcovers := covers_spanOf (h.part hpart) (List.cons_ne_nil c [])
  rw [List.flatMap_singleton] at hcovers
  exact hcovers

/-- Of two clauses the first ends before the second starts. -/
theorem pairwise_span (h : Token.Laid s text (cs.flatMap tokens)) :
    cs.Pairwise fun c d => c.span.last < d.span.first := by
  refine (List.pairwise_flatMap.mp h.order).2.imp fun {c d} hlt => ?_
  exact hlt _ c.mem_tokens_last d.lead List.mem_cons_self

theorem chain_span (h : Token.Laid s text (cs.flatMap tokens)) :
    cs.IsChain fun c d => Span.Next s text c.span d.span := by
  have hchain := h.chain
  rw [List.flatMap, List.isChain_flatten (by simp [tokens]), List.isChain_map] at hchain
  refine hchain.2.imp fun c d hnext => ?_
  have hspans := hnext _ c.getLast?_tokens d.lead rfl
  exact ⟨hspans.lt, hspans.blank, hspans.adjacent⟩

/-- A clause lies within the clauses around it. -/
theorem span_mem (h : Token.Laid s text (cs.flatMap tokens)) (hc : c ∈ cs) :
    (spanOf cs).first ≤ c.span.first ∧ c.span.last ≤ (spanOf cs).last := by
  obtain ⟨t, u, ht, hu, hspan⟩ := (covers_spanOf h (List.ne_nil_of_mem hc)).ends
  rw [hspan]
  exact ⟨h.first_le ht _ (List.mem_flatMap.mpr ⟨c, hc, List.mem_cons_self⟩),
    h.le_last hu _ (List.mem_flatMap.mpr ⟨c, hc, c.mem_tokens_last⟩)⟩

end Clause

namespace Statement

variable {s : Settings} {text : List Char} {depth : Nat} {st st' : Statement} {r r' : Ahead}

/-- Where a statement and its clauses stand in the text. -/
structure Placed (s : Settings) (text : List Char) (st : Statement) : Prop where
  covers : st.span.Covers st.tokens
  clause : ∀ c ∈ st.clauses, c.span.Covers c.tokens ∧
    st.span.first ≤ c.span.first ∧ c.span.last ≤ st.span.last
  disjoint : st.clauses.Pairwise fun c d => c.span.last < d.span.first
  between : st.clauses.IsChain fun c d => Span.Next s text c.span d.span
  /-- Where blanks are tokens the tokens are the text. -/
  text_eq : s.blanks = true →
    st.tokens.flatMap Token.text = (text.drop st.span.first).take (st.span.last + 1 - st.span.first)
  operand : ∀ o ∈ st.operands,
    o.query.span.Covers o.query.tokens ∧ o.operator.span.last < o.query.span.first

theorem clauses_ne_nil (st : Statement) : st.clauses ≠ [] := by
  rw [← st.map_snd_slots]
  cases st with
  | select q => simpa [slots] using q.slots_ne_nil
  | insert i => simp [slots, Insert.slots, Clause.filled]
  | update u => simp [slots, Update.slots, Clause.filled]
  | delete d => simp [slots, Delete.slots, Clause.filled]
  | merge m => simp [slots, Merge.slots]

theorem placed_of_part (h : st.tokens <:+: tokenize s text) : st.Placed s text := by
  have hlaid : Token.Laid s text (st.clauses.flatMap Clause.tokens) :=
    (Token.laid_tokenize s text).part h
  have hcovers := Clause.covers_spanOf hlaid st.clauses_ne_nil
  refine ⟨hcovers, fun c hc => ⟨Clause.covers_of_mem hlaid hc, Clause.span_mem hlaid hc⟩,
    Clause.pairwise_span hlaid, Clause.chain_span hlaid, fun hs => ?_, fun o ho => ?_⟩
  · obtain ⟨t, u, ht, hu, hspan⟩ := hcovers.ends
    obtain ⟨pre, post, htokens⟩ := h
    have hslice := tokenize_slice htokens.symm ht hu
    have htext := flatMap_text_tokensAt (s := s) 0
      ((text.drop t.start).take (u.span.last + 1 - t.start)) hs
    change (tokenize s _).flatMap _ = _ at htext
    rw [hslice] at htext
    rw [show st.span = _ from hspan]
    simpa [List.flatMap_map, Token.back, Token.span] using htext
  · have hpart := st.operand_clauses o ho
    have hlaid : Token.Laid s text ((o.operator :: o.query.clauses).flatMap Clause.tokens) := by
      obtain ⟨front, back, hclauses⟩ := hpart
      exact hlaid.part ⟨front.flatMap Clause.tokens, back.flatMap Clause.tokens, by
        rw [← hclauses, List.flatMap_append, List.flatMap_append]⟩
    have hne : o.query.clauses ≠ [] := by
      rw [← o.query.map_snd_slots]
      simpa using o.query.slots_ne_nil
    obtain ⟨c, cs, hq⟩ := List.exists_cons_of_ne_nil hne
    have hlt := (List.pairwise_cons.mp (Clause.pairwise_span hlaid)).1 c (by simp [hq])
    refine ⟨Clause.covers_spanOf (hlaid.part ⟨o.operator.tokens, [], by simp⟩) hne, ?_⟩
    rw [Select.span, Clause.spanOf, hq]
    exact hlt

theorem placed_of_gives (h : (Statement.read depth).Gives r st r') (hr : r <:+ tokenize s text) :
    st.Placed s text := by
  have hsplit := (Segments.readStatement depth h).split
  exact placed_of_part (List.IsInfix.trans ⟨[], r', hsplit.symm⟩ hr.isInfix)

/-- What is read behind a statement stands behind it. -/
theorem span_lt (h : (Statement.read depth).Gives r st r') (hr : r <:+ tokenize s text)
    (h' : st'.tokens <:+: r') : st.span.last < st'.span.first := by
  obtain ⟨pre, hpre⟩ := hr
  have hsplit := (Segments.readStatement depth h).split
  have hlaid : Token.Laid s text (st.tokens ++ r') :=
    (Token.laid_tokenize s text).part ⟨pre, [], by simp [← hpre, hsplit]⟩
  have hst := Clause.covers_spanOf (hlaid.part ⟨[], r', rfl⟩) st.clauses_ne_nil
  have hst' := Clause.covers_spanOf
    (hlaid.part (h'.trans (List.suffix_append st.tokens r').isInfix)) st'.clauses_ne_nil
  obtain ⟨_, u, -, hu, hspan⟩ := hst.ends
  obtain ⟨t, _, ht, -, hspan'⟩ := hst'.ends
  rw [show st.span = _ from hspan, show st'.span = _ from hspan']
  have ht := h'.subset (List.mem_of_mem_head? ht)
  exact (List.pairwise_append.mp hlaid.order).2.2 u (List.mem_of_getLast? hu) t ht

end Statement

/-- Each statement of an outline was read from some place on, and the next from behind it. -/
theorem Outline.Splits.placed {settings : Settings} {text : List Char} {s : Ahead}
    {noise : List Token} {sts : List Statement} {gaps : List (List Token)}
    (h : Splits settings.depth s noise sts gaps) (hs : s <:+ tokenize settings text) :
    (∀ st ∈ sts, st.tokens <:+: s ∧ st.Placed settings text) ∧
      sts.Pairwise fun st st' => st.span.last < st'.span.first := by
  induction h with
  | done => simp
  | @step s r noise st sts gaps first rest ih =>
    have hdrop := s.dropNoise_suffix
    have hsplit := (Segments.readStatement settings.depth first).split
    have hr : r <:+ s := first.suffix.trans hdrop
    obtain ⟨hplaced, hpairs⟩ := ih (hr.trans hs)
    have hfirst : st.tokens <:+: s :=
      List.IsInfix.trans ⟨[], r, hsplit.symm⟩ hdrop.isInfix
    refine ⟨List.forall_mem_cons.mpr ⟨⟨hfirst, Statement.placed_of_gives first (hdrop.trans hs)⟩,
      fun st' hst' => ?_⟩, List.pairwise_cons.mpr ⟨fun st' hst' => ?_, hpairs⟩⟩
    · exact ⟨(hplaced st' hst').1.trans hr.isInfix, (hplaced st' hst').2⟩
    · exact Statement.span_lt first (hdrop.trans hs) (hplaced st' hst').1

/-- The spans of statements, of their clauses and of their operands tell the truth about the text. A
statement spans its tokens, and its clauses divide that span between them in their order, with
nothing but blanks from one to the next. What is read after a statement, at once or after other
moves, stands behind it. -/
theorem spans_faithful (settings : Settings) (text : List Char) :
    (∀ (moves : List Move) (st : Statement),
      ((Statement.read settings.depth).run
        (moves.foldl (Move.after settings.depth) (tokenize settings text))).answer = .ok st →
      st.Placed settings text ∧ ∀ (more : List Move) (st' : Statement),
        ((Statement.read settings.depth).run ((moves ++ .parse :: more).foldl
          (Move.after settings.depth) (tokenize settings text))).answer = .ok st' →
        st.span.last < st'.span.first) ∧
    ∀ statements, (Outline.ofText settings text).result = .ok statements →
      (∀ st ∈ statements, st.Placed settings text) ∧
        statements.Pairwise fun st st' => st.span.last < st'.span.first := by
  refine ⟨fun moves st h => ?_, fun statements h => ?_⟩
  · have hread := Gives.of_answer h
    have hsuffix := Move.foldl_after_suffix settings.depth moves (tokenize settings text)
    refine ⟨Statement.placed_of_gives hread hsuffix, fun more st' h' => ?_⟩
    rw [List.foldl_append, List.foldl_cons] at h'
    have hread' := Segments.readStatement settings.depth (.of_answer h')
    have hmore := Move.foldl_after_suffix settings.depth more (Move.after settings.depth
      (moves.foldl (Move.after settings.depth) (tokenize settings text)) .parse)
    exact Statement.span_lt hread hsuffix
      (List.IsInfix.trans ⟨[], _, hread'.split.symm⟩ hmore.isInfix)
  · obtain ⟨noise, gaps, hsplits⟩ := Outline.result_eq_ok_iff.mp h
    obtain ⟨hplaced, hpairs⟩ := hsplits.placed (List.suffix_refl _)
    exact ⟨fun st hst => (hplaced st hst).2, hpairs⟩

end SqlOutline
