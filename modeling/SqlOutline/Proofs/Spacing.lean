import SqlOutline.Proofs.LineBreak
import SqlOutline.Proofs.OutlineCoupling

namespace SqlOutline
open Lexeme Parse

/-- A run of whitespace that is a token of its own. -/
def Token.isBlank (t : Token) : Bool :=
  t.kind = .whitespace

/-- What is left where runs of whitespace are no tokens. -/
def Token.withoutBlanks (ts : List Token) : List Token :=
  ts.filter (!·.isBlank)

/-- The leading keyword is no blank. -/
def Clause.withoutBlanks (c : Clause) : Clause :=
  { c with body := Token.withoutBlanks c.body }

def Statement.withoutBlanks (st : Statement) : Statement :=
  st.map .withoutBlanks

namespace Lexeme

theorem ite_ne_whitespace {p : Prop} [Decidable p] {k k' : Kind} (h : k ≠ .whitespace)
    (h' : k' ≠ .whitespace) : (if p then k else k') ≠ .whitespace := by
  split <;> assumption

theorem wordKind_ne_whitespace (quoted : Bool) (t : List Char) :
    wordKind quoted t ≠ .whitespace := by
  unfold wordKind
  split
  · nofun
  refine ite_ne_whitespace nofun (ite_ne_whitespace nofun ?_)
  split
  · nofun
  refine ite_ne_whitespace nofun (ite_ne_whitespace nofun (ite_ne_whitespace nofun nofun))

/-- No lexeme but a run of blanks is whitespace. -/
theorem kind_eq_whitespace_iff {quoted : Bool} {c : Char} {t : List Char} :
    kind quoted (c :: t) = .whitespace ↔ Text.isBlank c = true := by
  refine ⟨fun h => by_contra fun hb => ?_, fun h => kind_of_isBlank h quoted t⟩
  refine absurd h ?_
  rw [kind, if_neg hb]
  unfold quotedKind
  repeat' apply ite_ne_whitespace
  any_goals exact wordKind_ne_whitespace quoted _
  all_goals exact Kind.noConfusion

end Lexeme

namespace Token

variable {t : Token} {ts us : List Token}

theorem isBlank_ofLexeme (quoted : Bool) (p : Nat) (c : Char) (t : List Char) :
    (ofLexeme quoted p (c :: t)).isBlank = Text.isBlank c := by
  rw [Bool.eq_iff_iff, isBlank, decide_eq_true_eq]
  exact kind_eq_whitespace_iff

theorem isTrivia_of_isBlank (h : t.isBlank = true) : t.isTrivia = true := by
  simp_all [isBlank, isTrivia, Kind.isTrivia]

theorem isBlank_of_settled {s : Ahead} (h : Ahead.Settled (t :: s)) : t.isBlank = false := by
  refine Bool.eq_false_iff.mpr fun hb => ?_
  have ht := h t rfl
  rw [isTrivia_of_isBlank hb] at ht
  cases ht

@[simp]
theorem withoutBlanks_nil : withoutBlanks [] = [] := rfl

theorem withoutBlanks_append (ts us : List Token) :
    withoutBlanks (ts ++ us) = withoutBlanks ts ++ withoutBlanks us :=
  List.filter_append ts us

theorem withoutBlanks_cons_of_isBlank (h : t.isBlank = true) (ts : List Token) :
    withoutBlanks (t :: ts) = withoutBlanks ts :=
  List.filter_cons_of_neg (by simp [h])

theorem withoutBlanks_cons (h : t.isBlank = false) (ts : List Token) :
    withoutBlanks (t :: ts) = t :: withoutBlanks ts :=
  List.filter_cons_of_pos (by simp [h])

theorem head?_withoutBlanks {s : Ahead} (h : s.Settled) : (withoutBlanks s).head? = s.head? := by
  cases s with
  | nil => rfl
  | cons t s =>
    rw [withoutBlanks_cons (isBlank_of_settled h)]
    rfl

/-- The trivia in front are the same but for the blanks among them. -/
theorem trivia_withoutBlanks (s : Ahead) :
    (withoutBlanks s).takeWhile isTrivia = withoutBlanks (s.takeWhile isTrivia) ∧
      (withoutBlanks s).dropWhile isTrivia = withoutBlanks (s.dropWhile isTrivia) := by
  induction s with
  | nil => exact ⟨rfl, rfl⟩
  | cons t s ih =>
    by_cases ht : t.isTrivia = true
    · rw [List.takeWhile_cons_of_pos ht, List.dropWhile_cons_of_pos ht]
      cases hb : t.isBlank with
      | true =>
        rw [withoutBlanks_cons_of_isBlank hb, withoutBlanks_cons_of_isBlank hb]
        exact ih
      | false =>
        rw [withoutBlanks_cons hb, withoutBlanks_cons hb, List.takeWhile_cons_of_pos ht,
          List.dropWhile_cons_of_pos ht, ih.1]
        exact ⟨rfl, ih.2⟩
    · have hb : t.isBlank = false := Bool.eq_false_iff.mpr fun h => ht (isTrivia_of_isBlank h)
      rw [List.takeWhile_cons_of_neg ht, List.dropWhile_cons_of_neg ht, withoutBlanks_cons hb,
        List.takeWhile_cons_of_neg ht, List.dropWhile_cons_of_neg ht]
      exact ⟨rfl, rfl⟩

end Token

/-- Lexing without blanks passes over what are blanks otherwise, and changes nothing else. -/
theorem tokensAt_withoutBlanks (s : Settings) (p : Nat) (u : List Char) :
    tokensAt { s with blanks := false } p u =
      Token.withoutBlanks (tokensAt { s with blanks := true } p u) := by
  fun_induction tokensAt { s with blanks := true } p u with
  | case1 => simp [tokensAt]
  | case2 p c u hb => simp at hb
  | case3 p c u hb run ih =>
    have hc := Token.isBlank_ofLexeme s.quoted p c run.1
    cases hblank : Text.isBlank c with
    | true =>
      have hrun : run = (u.takeWhile Text.isBlank, u.dropWhile Text.isBlank) := by
        simp [run, Munch.start, hblank, Munch.run_blank]
      rw [Token.withoutBlanks_cons_of_isBlank (hc.trans hblank), ← ih, hrun,
        tokensAt_dropBlanks rfl, tokensAt, if_pos (by simp [hblank])]
    | false =>
      rw [Token.withoutBlanks_cons (hc.trans hblank), ← ih, tokensAt, if_neg (by simp [hblank])]

/-- A token that is a blank holds whitespace and nothing else. -/
theorem Token.isBlank_text {s : Settings} {text : List Char} {t : Token}
    (ht : t ∈ tokenize s text) (hb : t.isBlank = true) : ∀ c ∈ t.text, Text.isBlank c = true := by
  obtain ⟨before, c, v, -, rfl⟩ := run_of_mem_tokensAt 0 text ht
  rw [Token.isBlank_ofLexeme] at hb
  have hstart : Munch.start c = .blank := by simp [Munch.start, hb]
  rw [hstart, Munch.run_blank]
  exact List.forall_mem_cons.mpr ⟨hb, List.all_eq_true.mp List.all_takeWhile⟩

/-- To pass over blanks drops the tokens that are whitespace, all of them and no others. Those that
stay have the same kind and text and stand in the same place. The two ways of moving on from token
to token keep in step: each source gives the tokens of its own list, one a move, and none after. -/
theorem blanks_dropped (settings : Settings) (text : List Char) :
    let plain := { settings with blanks := false }
    let spaced := { settings with blanks := true }
    let kept := (tokenize spaced text).filter (·.kind ≠ .whitespace)
    tokenize plain text = kept ∧
      (∀ t ∈ tokenize spaced text, t ∉ kept → ∀ c ∈ t.text, Text.isBlank c = true) ∧
      ∀ k, (TokenSource.advance^[k + 1] (.ofText plain text)).current = kept[k]? ∧
        (TokenSource.advance^[k + 1] (.ofText spaced text)).current =
          (tokenize spaced text)[k]? := by
  intro plain spaced kept
  have hkept : kept = Token.withoutBlanks (tokenize spaced text) := by
    simp [kept, Token.withoutBlanks, Token.isBlank]
  have htokens : tokenize plain text = kept := by
    rw [hkept]
    exact tokensAt_withoutBlanks settings 0 text
  refine ⟨htokens, fun t ht hdropped => ?_, fun k => ⟨?_, ?_⟩⟩
  · have hb : t.isBlank = true := by
      refine by_contra fun hb => hdropped ?_
      rw [hkept, Token.withoutBlanks, List.mem_filter]
      exact ⟨ht, by simpa using hb⟩
    exact Token.isBlank_text ht hb
  · rw [← htokens]
    exact (TokenSource.holds_ofText plain text).current_iterate k
  · exact (TokenSource.holds_ofText spaced text).current_iterate k

/-- Two streams of which the second is the first without its blanks. -/
def Coupling.withoutBlanks : Coupling where
  rel _ s s' := s' = Token.withoutBlanks s
  same ts us := us = Token.withoutBlanks ts
  live _ := True
  same_nil := Token.withoutBlanks_nil.symm
  same_append ht hu := by rw [Token.withoutBlanks_append, ht, hu]
  live_of_suffix _ _ := trivial
  rel_succ h := h
  gap h _ := h ▸ Token.trivia_withoutBlanks _
  beside := by
    rintro n s - rfl - hs -
    cases s with
    | nil => exact .ended .nil .nil
    | cons t s =>
      have hb := Token.isBlank_of_settled hs
      rw [Token.withoutBlanks_cons hb]
      exact .token rfl (Token.withoutBlanks_cons hb []).symm rfl fun _ _ _ => rfl

namespace Coupling

theorem withoutBlanks_faithful : withoutBlanks.Faithful := by
  rintro n s - ⟨rfl, hs, -⟩ -
  cases s with
  | nil => exact .inl ⟨rfl, rfl⟩
  | cons t s =>
    have hb := Token.isBlank_of_settled hs
    rw [Token.withoutBlanks_cons hb]
    exact .inr ⟨t, t, s, _, rfl, rfl, rfl, (Token.withoutBlanks_cons hb []).symm, rfl⟩

theorem Clauses.eq_withoutBlanks ⦃c d : Clause⦄ (h : withoutBlanks.Clauses c d) :
    d = c.withoutBlanks := by
  obtain ⟨kind, lead, body⟩ := d
  obtain ⟨hkind, hlead, hbody⟩ := h
  obtain rfl : kind = c.kind := hkind
  obtain rfl : body = Token.withoutBlanks c.body := hbody
  have hlead : [lead] = Token.withoutBlanks [c.lead] := hlead
  cases hb : c.lead.isBlank with
  | true =>
    rw [Token.withoutBlanks_cons_of_isBlank hb] at hlead
    cases hlead
  | false =>
    rw [Token.withoutBlanks_cons hb] at hlead
    obtain rfl : lead = c.lead := List.cons.inj hlead |>.1
    rfl

/-- Also the tokens of each clause, its leading keyword included, are those of the other without
blanks. -/
theorem tokens_withoutBlanks {sts sts' : List Statement}
    (h : List.Forall₂ (Statement.Alike withoutBlanks.Clauses) sts sts') :
    sts'.map (·.clauses.map Clause.tokens) =
      sts.map (·.clauses.map (Token.withoutBlanks ·.tokens)) := by
  have clauses {st st' : Statement} (h : st.Alike withoutBlanks.Clauses st') :
      st'.clauses.map Clause.tokens = st.clauses.map (Token.withoutBlanks ·.tokens) :=
    map_eq_map_iff_forall₂.mpr (h.clauses.imp fun _ _ h => h.tokens)
  exact map_eq_map_iff_forall₂.mpr (h.imp fun _ _ h => clauses h)

end Coupling

/-- What comes of a stream without its blanks is what comes of the stream, the clauses without the
blanks. -/
theorem Outline.result_withoutBlanks (depth : Nat) (s : Ahead) :
    (ofAhead depth (Token.withoutBlanks s)).result =
      (ofAhead depth s).result.map (List.map .withoutBlanks) ∧
    (ofAhead depth (Token.withoutBlanks s)).result.map (List.map (·.clauses.map Clause.tokens)) =
      (ofAhead depth s).result.map (List.map (·.clauses.map (Token.withoutBlanks ·.tokens))) := by
  have rel : Coupling.withoutBlanks.rel (depth + 1) s (Token.withoutBlanks s) := rfl
  rcases Coupling.withoutBlanks_faithful.result (fun _ => trivial) rel with
    ⟨sts, sts', h, h', hsts⟩ | ⟨want, r, _, h, h', ⟨rfl, hr, -⟩, -⟩
  · have heq := eq_map_of_forall₂ (fun _ _ h => h.eq_map Coupling.Clauses.eq_withoutBlanks) hsts
    rw [h, h']
    exact ⟨congrArg Except.ok heq, congrArg Except.ok (Coupling.tokens_withoutBlanks hsts)⟩
  · rw [h, h', Token.head?_withoutBlanks hr]
    exact ⟨rfl, rfl⟩

/-- Whether blanks are tokens makes no difference to what is read. Either way a text comes to the same
fault, with the same text found at the same place, or to the same statements with the same clauses in
the same places. Without blanks each clause has the tokens that it has with them, but for the blanks,
and each of these tokens is the same and stands at the same place. -/
theorem blanks_immaterial (settings : Settings) (text : List Char) :
    let plain := Outline.ofText { settings with blanks := false } text
    let spaced := Outline.ofText { settings with blanks := true } text
    plain.result = spaced.result.map (List.map .withoutBlanks) ∧
      plain.result.map (List.map (·.clauses.map Clause.tokens)) =
        spaced.result.map (List.map (·.clauses.map (Token.withoutBlanks ·.tokens))) := by
  intro plain spaced
  have hplain : plain =
      .ofAhead settings.depth (Token.withoutBlanks (tokenize { settings with blanks := true } text)) :=
    congrArg _ (tokensAt_withoutBlanks settings 0 text)
  rw [hplain]
  exact Outline.result_withoutBlanks settings.depth _

end SqlOutline
