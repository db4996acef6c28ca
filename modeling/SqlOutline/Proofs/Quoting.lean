import SqlOutline.Proofs.Delimited
import SqlOutline.Proofs.StatementMirror

namespace SqlOutline
open Lexeme

/-- The token as it is where double quotes hold a name and no string. -/
def Token.requoted (t : Token) : Token :=
  if t.text.head? = some '"' then
    { t with
      kind := match t.kind with
        | .string => .identifier
        | .incompleteString => .incompleteIdentifier
        | k => k }
  else t

/-- The kind and the place of a statement and of each of its clauses. -/
def Statement.layout (st : Statement) : StatementKind × Span × List (ClauseKind × Span) :=
  (st.kind, st.span, st.clauses.map fun c => (c.kind, c.span))

namespace Lexeme

/-- A lexeme in double quotes is a string or a name by the mode, and closed or open in both. -/
theorem kind_doubleQuoted (t : List Char) :
    kind false ('"' :: t) = .string ∧ kind true ('"' :: t) = .identifier ∨
      kind false ('"' :: t) = .incompleteString ∧ kind true ('"' :: t) = .incompleteIdentifier := by
  have hopens : Opens '"' ('"' :: t) := .inr (.inl ⟨rfl, t, rfl⟩)
  rw [kind_of_opens hopens, kind_of_opens hopens]
  cases decide (marks '"' ('"' :: t) % 2 = 0) <;> simp [delimitedKind]

/-- The mode is asked for no other lexeme. -/
theorem kind_quoted {c : Char} (hc : c ≠ '"') (t : List Char) :
    kind true (c :: t) = kind false (c :: t) := by
  simp [kind, wordKind, hc]

end Lexeme

namespace Token

theorem requoted_ofLexeme (p : Nat) (c : Char) (t : List Char) :
    (ofLexeme false p (c :: t)).requoted = ofLexeme true p (c :: t) := by
  by_cases hc : c = '"'
  · subst hc
    rcases kind_doubleQuoted t with ⟨h, h'⟩ | ⟨h, h'⟩ <;> simp [requoted, ofLexeme, h, h']
  · simp [requoted, ofLexeme, hc, kind_quoted hc]

/-- What a token is called the one way and the other. -/
theorem kind_requoted (p : Nat) (c : Char) (t : List Char) :
    if (ofLexeme false p (c :: t)).text.head? = some '"' then
      (ofLexeme false p (c :: t)).kind = .string ∧
          (ofLexeme false p (c :: t)).requoted.kind = .identifier ∨
        (ofLexeme false p (c :: t)).kind = .incompleteString ∧
          (ofLexeme false p (c :: t)).requoted.kind = .incompleteIdentifier
    else (ofLexeme false p (c :: t)).requoted.kind = (ofLexeme false p (c :: t)).kind := by
  rw [requoted_ofLexeme]
  simp only [ofLexeme, List.head?_cons, Option.some.injEq]
  split
  next hc =>
    subst hc
    exact kind_doubleQuoted t
  next hc => exact kind_quoted hc t

theorem relabels_requoted : Relabels requoted where
  start t := by
    unfold requoted
    split <;> rfl
  text t := by
    unfold requoted
    split <;> rfl
  kind t := by
    unfold requoted
    split
    · cases t.kind <;> simp [Kind.isInert, Kind.isTrivia, Kind.isComment]
    · exact .inl rfl

end Token

theorem tokensAt_quoted (s : Settings) (p : Nat) (u : List Char) :
    tokensAt { s with quoted := true } p u =
      (tokensAt { s with quoted := false } p u).map Token.requoted := by
  fun_induction tokensAt { s with quoted := false } p u with
  | case1 => simp [tokensAt]
  | case2 p c u hb ih => rw [tokensAt, if_pos hb, ih]
  | case3 p c u hb run ih =>
    rw [tokensAt, if_neg hb, List.map_cons, Token.requoted_ofLexeme, ← ih]

theorem Clause.span_map {f : Token → Token} (hf : Token.Relabels f) (c : Clause) :
    (c.map f).span = c.span := by
  have hlast : (c.body.map f).getLastD (f c.lead) = f (c.body.getLastD c.lead) := by
    rw [List.getLastD_eq_getLast?, List.getLast?_map, List.getLastD_eq_getLast?]
    cases c.body.getLast? <;> rfl
  simp only [span, map, hlast, hf.start, hf.span]

theorem Clause.spanOf_congr {cs ds : List Clause}
    (h : ds.map Clause.span = cs.map Clause.span) : spanOf ds = spanOf cs := by
  have hspan (cs : List Clause) : spanOf cs = ⟨(cs.map Clause.span).head?.elim 0 Span.first,
      (cs.map Clause.span).getLast?.elim 0 Span.last⟩ := by
    simp only [spanOf, List.head?_map, List.getLast?_map, Option.elim_map, Function.comp_def]
  rw [hspan, hspan, h]

/-- The layout is known by that of the clauses. -/
theorem Statement.Alike.layout {R : Clause → Clause → Prop}
    (hR : ∀ ⦃c d⦄, R c d → d.kind = c.kind ∧ d.span = c.span) {st st' : Statement}
    (h : st.Alike R st') : st'.layout = st.layout := by
  have hkind : st'.kind = st.kind := by cases h <;> rfl
  have hspans : st'.clauses.map Clause.span = st.clauses.map Clause.span :=
    map_eq_map_iff_forall₂.mpr (h.clauses.imp fun _ _ hc => (hR hc).2)
  have hclauses : st'.clauses.map (fun c => (c.kind, c.span)) =
      st.clauses.map fun c => (c.kind, c.span) :=
    map_eq_map_iff_forall₂.mpr (h.clauses.imp fun _ _ hc => Prod.ext (hR hc).1 (hR hc).2)
  have hspan : st'.span = st.span := Clause.spanOf_congr hspans
  simp only [Statement.layout, hkind, hspan, hclauses]

/-- Where no DELETE stands, to relabel the tokens is to relabel the statements. -/
theorem Outline.result_relabel {f : Token → Token} (hf : Token.Relabels f) (depth : Nat) {s : Ahead}
    (hs : s.NoDelete) :
    (ofAhead depth (s.map f)).result = (ofAhead depth s).result.map (List.map (.map (.map f))) ∧
      (ofAhead depth (s.map f)).result.map (List.map Statement.layout) =
        (ofAhead depth s).result.map (List.map Statement.layout) := by
  rcases mirrors_result hf depth hs with ⟨sts, sts', h, h', hsts⟩ | ⟨e, h, h'⟩
  · have hmap : sts' = sts.map (.map (.map f)) :=
      eq_map_of_forall₂ (fun _ _ h => h.eq_map fun _ _ hc => hc) hsts
    have hlayout : sts'.map Statement.layout = sts.map Statement.layout :=
      map_eq_map_iff_forall₂.mpr (hsts.imp fun _ _ h => h.layout fun c _ hc => by
        obtain rfl := hc
        exact ⟨rfl, Clause.span_map hf c⟩)
    rw [h, h']
    exact ⟨congrArg Except.ok hmap, congrArg Except.ok hlayout⟩
  · rw [h, h']
    exact ⟨rfl, rfl⟩

/-- Whether double quotes hold names or strings is a matter of what the tokens in them are called, and
of nothing else. Either way a text has as many tokens, in the same places and with the same texts. Those
that start with a double quote are strings the one way and names the other, closed or open alike, and
each other has the same kind. Where none is a DELETE the statements are the same but for that, with the
same clauses in the same places, or else the fault is the same. -/
theorem quoting_relabels (settings : Settings) (text : List Char) :
    let strings := { settings with quoted := false }
    let names := { settings with quoted := true }
    tokenize names text = (tokenize strings text).map .requoted ∧
    (∀ t ∈ tokenize strings text, t.requoted.start = t.start ∧ t.requoted.text = t.text ∧
      if t.text.head? = some '"' then
        t.kind = .string ∧ t.requoted.kind = .identifier ∨
          t.kind = .incompleteString ∧ t.requoted.kind = .incompleteIdentifier
      else t.requoted.kind = t.kind) ∧
    ((∀ t ∈ tokenize strings text, t.isKeyword .delete = false) →
      (Outline.ofText names text).result =
        (Outline.ofText strings text).result.map (List.map (.map (.map .requoted))) ∧
      (Outline.ofText names text).result.map (List.map Statement.layout) =
        (Outline.ofText strings text).result.map (List.map Statement.layout)) := by
  intro strings names
  have hf := Token.relabels_requoted
  have htokens : tokenize names text = (tokenize strings text).map .requoted :=
    tokensAt_quoted settings 0 text
  refine ⟨htokens, fun t ht => ⟨hf.start t, hf.text t, ?_⟩, fun hs => ?_⟩
  · obtain ⟨p, c, w, m, rfl, -⟩ := lexeme_of_mem_tokensAt ht
    exact Token.kind_requoted p c w
  · rw [Outline.ofText, htokens]
    exact Outline.result_relabel hf settings.depth hs

/-- One name, or string, is closed and the other is not. -/
theorem quoting_relabels_unclosed :
    let text := "SELECT \"a\" FROM \"b".toList
    (∀ t ∈ tokenize {} text, t.isKeyword .delete = false) ∧
      tokenize { quoted := true } text = [⟨.keyword .select, 0, "SELECT".toList⟩,
        ⟨.identifier, 7, "\"a\"".toList⟩, ⟨.keyword .from, 11, "FROM".toList⟩,
        ⟨.incompleteIdentifier, 16, "\"b".toList⟩] ∧
      (Outline.ofText { quoted := true } text).result.map (List.map Statement.layout) =
        .ok [(.select, ⟨0, 17⟩, [(.select, ⟨0, 9⟩), (.from, ⟨11, 17⟩)])] := by
  intro text
  have htokens : tokenize {} text = [⟨.keyword .select, 0, "SELECT".toList⟩,
      ⟨.string, 7, "\"a\"".toList⟩, ⟨.keyword .from, 11, "FROM".toList⟩,
      ⟨.incompleteString, 16, "\"b".toList⟩] := by
    decide +kernel
  have hdelete : ∀ t ∈ tokenize {} text, t.isKeyword .delete = false := by
    rw [htokens]
    decide
  obtain ⟨hnames, -, h⟩ := quoting_relabels {} text
  have hlayout : (Outline.ofText {} text).result.map (List.map Statement.layout) =
      .ok [(.select, ⟨0, 17⟩, [(.select, ⟨0, 9⟩), (.from, ⟨11, 17⟩)])] := by
    rw [Outline.ofText, htokens]
    decide +kernel
  refine ⟨hdelete, ?_, (h hdelete).2.trans hlayout⟩
  rw [hnames, htokens]
  decide

-- Behind a DELETE the mode is seen: the FROM that a name has come before opens a clause.
example :
    let text := "DELETE \"a\" FROM".toList
    let kinds (s : Settings) := (Outline.ofText s text).statements.map (·.clauses.map Clause.kind)
    kinds { quoted := false } = [[.delete]] ∧ kinds { quoted := true } = [[.delete, .from]] := by
  decide +kernel

end SqlOutline
