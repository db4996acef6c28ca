import SqlOutline.Proofs.Slot
import SqlOutline.Proofs.StatementSegments
import SqlOutline.Statement.Json

namespace SqlOutline
open Parse

/-- What may stand around an operand and still belong to one of its clauses. -/
def Token.isWrapping (t : Token) : Bool :=
  t.isTrivia || t.isPunctuation .openParen || t.isPunctuation .closeParen

namespace Clause

variable {sub : Parse Select} {kind : ClauseKind} {s r : Ahead} {c : Clause} {scope scope' : Scope}
  {ts : List Token}

/-- A clause as it was read in some place, and behind it whatever the parentheses of operands have
brought to its end. -/
def ReadAs (kind : ClauseKind) (c : Clause) : Prop :=
  ∃ depth room s c' scope r ts, Scan (Select.readNested depth room) kind s c' scope r ∧
    c = c'.push ts ∧ ∀ t ∈ ts, t.isWrapping = true

/-- The last token of the clause that carries syntax is the punctuation mark. -/
def endsWith (p : Punctuation) (c : Clause) : Bool :=
  c.significant.getLast?.any (·.isPunctuation p)

theorem push_push (ts us : List Token) (c : Clause) : (c.push ts).push us = c.push (ts ++ us) := by
  simp [push]

theorem ReadAs.push (h : c.ReadAs kind) (hts : ∀ t ∈ ts, t.isWrapping = true) :
    (c.push ts).ReadAs kind := by
  obtain ⟨depth, room, s, c', scope, r, us, hc, rfl, hus⟩ := h
  refine ⟨depth, room, s, c', scope, r, us ++ ts, hc, push_push us ts c', ?_⟩
  intro t ht
  rcases List.mem_append.mp ht with ht | ht
  · exact hus t ht
  · exact hts t ht

theorem significant_push (ts : List Token) (c : Clause) :
    (c.push ts).significant = c.significant ++ ts.filter (!·.isTrivia) :=
  List.filter_append c.tokens ts

theorem significant_of_isOneOf {ks : List Keyword} (h : c.lead.isOneOf ks = true) :
    c.significant = c.lead :: c.body.filter (!·.isTrivia) := by
  obtain ⟨k, -, hk⟩ := Token.kind_of_isOneOf h
  exact List.filter_cons_of_pos (by simp [Token.isTrivia, hk, Kind.isTrivia, Kind.isComment])

theorem ReadAs.kind_eq (h : c.ReadAs kind) : c.kind = kind := by
  obtain ⟨_, _, _, c', _, _, ts, hc, rfl, -⟩ := h
  cases hc
  rfl

theorem ReadAs.leading (h : c.ReadAs kind) : c.lead.isOneOf kind.rule.leading = true := by
  obtain ⟨_, _, _, c', _, _, ts, hc, rfl, -⟩ := h
  cases hc with
  | mk leading => exact leading

/-- Only trivia stand between the two keywords that a clause starts with. -/
theorem ReadAs.second (h : c.ReadAs kind) {k : Keyword} (hk : kind.rule.second = some k) :
    ∃ t, c.significant[1]? = some t ∧ t.isKeyword k = true := by
  have hl := h.leading
  obtain ⟨_, _, _, c', _, _, ts, hc, rfl, -⟩ := h
  cases hc with
  | @mk lead s m _ second body _ leading next rest =>
    rcases gives_second.mp next with ⟨hnone, -⟩ | ⟨k', t, hk', -, ht, rfl⟩
    · rw [hk] at hnone
      cases hnone
    · obtain rfl : k = k' := Option.some.inj (hk.symm.trans hk')
      have hgap : (s.takeWhile Token.isTrivia).filter (!·.isTrivia) = [] := by
        rw [List.filter_eq_nil_iff]
        intro u hu
        simp [gap_isTrivia s u hu]
      have htrivia : t.isTrivia = false := by
        simp_all [Token.isKeyword, Token.isTrivia, Kind.isTrivia, Kind.isComment]
      rw [significant_of_isOneOf hl]
      simp [Clause.push, hgap, htrivia, ht]

theorem Body.not_isPunctuation (h : Body sub kind scope s ts scope' r)
    (hk : kind.rule.keywordsOnly = true) : ∀ t ∈ ts, ∀ p, t.isPunctuation p = false := by
  induction h with
  | done => simp
  | @step _ _ _ t _ _ _ _ _ go first _ ih =>
    have ht : ∀ p, t.isPunctuation p = false := by
      intro p
      refine Bool.eq_false_iff.mpr fun hp => ?_
      have hkind : t.kind = .punctuation p := by simpa [Token.isPunctuation] using hp
      cases p <;> simp [ClauseRule.stops, hkind, hk, Kind.isTrivia, Kind.isComment] at go
    intro u hu
    rcases List.mem_append.mp hu with hu | hu
    · cases gives_piece.mp first with
      | token =>
        obtain rfl := List.mem_singleton.mp hu
        exact ht
      | query opening | cut opening | group opening => simp [ht] at opening
    · exact ih u hu

/-- A clause of keywords only has no punctuation mark. -/
theorem Scan.not_isPunctuation (h : Scan sub kind s c scope r)
    (hk : kind.rule.keywordsOnly = true) : ∀ t ∈ c.tokens, ∀ p, t.isPunctuation p = false := by
  cases h with
  | mk leading next rest =>
    obtain ⟨-, plain⟩ := second_plain next
    intro t ht
    simp only [Clause.tokens, List.mem_cons, List.mem_append] at ht
    rcases ht with rfl | ht | ht
    · exact Token.isPunctuation_of_isOneOf leading
    · exact plain t ht
    · exact rest.not_isPunctuation hk t ht

theorem endsWith_of_plain {p : Punctuation}
    (plain : ∀ t ∈ c.tokens, ∀ p, t.isPunctuation p = false) : c.endsWith p = false := by
  rw [endsWith, Option.any_eq_false_iff_get]
  intro h
  have hmem := List.mem_of_getLast? (Option.some_get h).symm
  exact plain _ (List.mem_of_mem_filter hmem) p

theorem endsWith_push_close {close : Token} {gap : List Token} {p : Punctuation}
    (hp : close.isPunctuation p = true) (hgap : ∀ t ∈ gap, t.isTrivia = true) (c : Clause) :
    (c.push (close :: gap)).endsWith p = true := by
  have hgap : gap.filter (!·.isTrivia) = [] := by
    rw [List.filter_eq_nil_iff]
    intro t ht
    simp [hgap t ht]
  have hclose := Token.isTrivia_of_isPunctuation hp
  simp [endsWith, significant_push, hclose, hgap, hp]

end Clause

/-- The last token of the query that carries syntax is the punctuation mark. -/
def Select.endsWith (p : Punctuation) (q : Select) : Bool :=
  q.clauses.getLast?.any (·.endsWith p)

theorem Select.endsWith_push {ts : List Token} {p : Punctuation}
    (h : ∀ c : Clause, (c.push ts).endsWith p = true) (q : Select) :
    (q.push ts).endsWith p = true := by
  rw [Select.endsWith, ← Select.map_snd_slots, Select.slots_push, List.getLast?_map,
    Clause.getLast?_pushLast, List.getLast?_eq_some_getLast q.slots_ne_nil]
  exact h _

/-- An operand is bare or in parentheses, and its operator tells which. -/
structure SetOperation.Shaped (o : SetOperation) : Prop where
  noWith : o.query.withClause = none
  /-- A bare one is the core of a query. -/
  bare : o.operator.endsWith .openParen = false →
    o.query.operations = [] ∧ o.query.ending.orderBy = none ∧ o.query.ending.forClause = none ∧
      o.query.ending.option = none
  parens : o.operator.endsWith .openParen = true → o.query.endsWith .closeParen = true

theorem Select.withClause_push (ts : List Token) (q : Select) :
    (q.push ts).withClause = q.withClause := by
  obtain ⟨w, core, os, ending⟩ := q
  rw [Select.push]
  split <;> rfl

theorem SetOperation.Shaped.push {o : SetOperation} {close : Token} {gap : List Token}
    (h : o.Shaped) (closing : close.isPunctuation .closeParen = true)
    (hgap : ∀ t ∈ gap, t.isTrivia = true) : (o.push (close :: gap)).Shaped := by
  obtain ⟨operator, w, core, os, orderBy, forClause, option⟩ := o
  refine ⟨(Select.withClause_push _ _).trans h.noWith, fun ho => ?_, fun _ => ?_⟩
  · obtain ⟨rfl, rfl, rfl, rfl⟩ := h.bare ho
    simp [SetOperation.push, Select.push, Ending.push?, SetOperation.push?]
  · exact Select.endsWith_push (Clause.endsWith_push_close closing hgap) _

/-- Each clause of the query was read as one of its slot's kind, and each operand has its shape. -/
structure Select.WellFormed (q : Select) : Prop where
  slots : ∀ slot ∈ q.slots, slot.2.ReadAs slot.1
  operands : ∀ o ∈ q.operands, o.Shaped

structure SetOperation.WellFormed (os : List SetOperation) : Prop where
  slots : ∀ slot ∈ SetOperation.slots os, slot.2.ReadAs slot.1
  operands : ∀ o ∈ SetOperation.operands os, o.Shaped

theorem SetOperation.WellFormed.nil : SetOperation.WellFormed [] :=
  ⟨by simp [SetOperation.slots], by simp [SetOperation.operands]⟩

theorem SetOperation.WellFormed.cons {o : SetOperation} {os : List SetOperation}
    (operator : o.operator.ReadAs .setOperator) (query : o.query.WellFormed) (shape : o.Shaped)
    (rest : SetOperation.WellFormed os) : SetOperation.WellFormed (o :: os) := by
  obtain ⟨op, q⟩ := o
  constructor
  · intro slot hslot
    simp only [SetOperation.slots, List.cons_append, List.mem_cons, List.mem_append] at hslot
    rcases hslot with rfl | hslot | hslot
    · exact operator
    · exact query.slots slot hslot
    · exact rest.slots slot hslot
  · intro o ho
    simp only [SetOperation.operands, List.cons_append, List.mem_cons, List.mem_append] at ho
    rcases ho with rfl | ho | ho
    · exact shape
    · exact query.operands o ho
    · exact rest.operands o ho

/-- Putting a query in parentheses keeps its form. -/
theorem Select.WellFormed.push {q : Select} {close : Token} {gap : List Token} (h : q.WellFormed)
    (closing : close.isPunctuation .closeParen = true) (hgap : ∀ t ∈ gap, t.isTrivia = true) :
    (q.push (close :: gap)).WellFormed := by
  have wrapping : ∀ t ∈ close :: gap, t.isWrapping = true := by
    intro t ht
    rcases List.mem_cons.mp ht with rfl | ht
    · simp [Token.isWrapping, closing]
    · simp [Token.isWrapping, hgap t ht]
  constructor
  · intro slot hslot
    rw [Select.slots_push] at hslot
    rcases Clause.mem_pushLast hslot with hslot | ⟨c, hc, he⟩
    · exact h.slots slot hslot
    · rw [he]
      exact (h.slots _ hc).push wrapping
  · intro o ho
    rcases q.mem_operands_push _ o ho with ho | ⟨o', ho', rfl⟩
    · exact h.operands o ho
    · exact (h.operands o' ho').push closing hgap

namespace Parse

variable {depth room : Nat} {s r : Ahead}

theorem readAs_of_clause {kind : ClauseKind} {c : Clause}
    (h : (clause (Select.readNested depth room) kind).Gives s c r) : c.ReadAs kind := by
  obtain ⟨scope, hc⟩ := gives_clause.mp h
  exact ⟨depth, room, s, c, scope, r, [], hc, by simp [Clause.push], by simp⟩

theorem readAs_of_clause? {kind : ClauseKind} {c : Option Clause}
    (h : (clause? (Select.readNested depth room) kind).Gives s c r) :
    ∀ d ∈ c, d.ReadAs kind := by
  intro d hd
  obtain rfl : c = some d := hd
  rcases gives_clause?.mp h with ⟨d, scope, he, hd⟩ | ⟨he, -⟩
  · obtain rfl := Option.some.inj he
    exact readAs_of_clause (gives_clause.mpr ⟨scope, hd⟩)
  · cases he

theorem readAs_of_clauses {kind : ClauseKind} {cs : List Clause}
    (h : (clauses (Select.readNested depth room) kind).Gives s cs r) : ∀ c ∈ cs, c.ReadAs kind := by
  replace h := gives_each.mp h
  induction h with
  | done => simp
  | step lead first _ ih =>
    obtain ⟨scope, hc⟩ := (Clause.gives_following lead).mp first
    exact List.forall_mem_cons.mpr ⟨readAs_of_clause (gives_clause.mpr ⟨scope, hc⟩), ih⟩

end Parse

namespace Select

variable {depth room : Nat} {s r : Ahead}

theorem readAs_of_readCore {core : Core}
    (h : (readCore (readNested depth room)).Gives s core r) :
    ∀ slot ∈ core.slots, slot.2.ReadAs slot.1 := by
  simp only [readCore, gives_bind, gives_pure] at h
  obtain ⟨select, _, h₁, into, _, h₂, fromClause, _, h₃, whereClause, _, h₄, groupBy, _, h₅,
    having, _, h₆, rfl, rfl⟩ := h
  rw [Core.slots, List.forall_mem_cons, Clause.forall_filled]
  simp only [List.forall_mem_cons]
  exact ⟨readAs_of_clause h₁, readAs_of_clause? h₂, readAs_of_clause? h₃, readAs_of_clause? h₄,
    readAs_of_clause? h₅, readAs_of_clause? h₆, by simp⟩

theorem wellFormed_ofCore {core : Core} (h : ∀ slot ∈ core.slots, slot.2.ReadAs slot.1) :
    (ofCore core).WellFormed := by
  constructor
  · simpa [ofCore, Select.slots, SetOperation.slots, Ending.slots, Clause.filled] using h
  · simp [ofCore, Select.operands, SetOperation.operands]

variable (hsub : ∀ ⦃s : Ahead⦄ ⦃q : Select⦄ ⦃r : Ahead⦄, (readNested depth room).Gives s q r →
  q.WellFormed ∧ q.withClause = none)
include hsub

theorem wellFormed_of_readOperand {operator : Clause} {o : SetOperation}
    (plain : ∀ t ∈ operator.tokens, ∀ p, t.isPunctuation p = false)
    (hop : operator.ReadAs .setOperator)
    (h : (readOperand (readNested depth room) operator).Gives s o r) :
    o.operator.ReadAs .setOperator ∧ o.query.WellFormed ∧ o.Shaped := by
  simp only [readOperand, gives_bind] at h
  obtain ⟨paren, m, hp, h⟩ := h
  rcases gives_take?.mp hp with ⟨paren, rfl, rfl, opening⟩ | ⟨rfl, rfl, -⟩
  · simp only [gives_bind, gives_trivia, gives_atKeyword] at h
    obtain ⟨gap, m', ⟨rfl, rfl⟩, b, m'', ⟨-, rfl⟩, h⟩ := h
    cases b with
    | false => simp at h
    | true =>
      simp only [↓reduceIte, gives_bind, gives_trivia, gives_pure, gives_expect] at h
      obtain ⟨q, m₁, hq, close, m₂, ⟨rfl, closing⟩, rest, m₃, ⟨rfl, rfl⟩, rfl, rfl⟩ := h
      obtain ⟨hq, hw⟩ := hsub hq
      have hgap := Clause.gap_isTrivia m
      have hrest := Clause.gap_isTrivia m₂
      have hopen := Clause.endsWith_push_close opening hgap operator
      have hclose := Select.endsWith_push (Clause.endsWith_push_close closing hrest) q
      refine ⟨hop.push fun t ht => ?_, hq.push closing hrest, ?_⟩
      · rcases List.mem_cons.mp ht with rfl | ht
        · simp [Token.isWrapping, opening]
        · simp [Token.isWrapping, hgap t ht]
      · refine ⟨(Select.withClause_push _ _).trans hw, fun ho => ?_, fun _ => hclose⟩
        rw [hopen] at ho
        cases ho
  · simp only [gives_bind, gives_pure] at h
    obtain ⟨core, m, hc, rfl, rfl⟩ := h
    refine ⟨hop, wellFormed_ofCore (readAs_of_readCore hc), rfl, fun _ => ⟨rfl, rfl, rfl, rfl⟩, ?_⟩
    intro hopen
    rw [Clause.endsWith_of_plain plain] at hopen
    cases hopen

theorem wellFormed_of_readOperations {os : List SetOperation}
    (h : (readOperations (readNested depth room)).Gives s os r) :
    SetOperation.WellFormed os := by
  replace h := gives_each.mp h
  induction h with
  | done => exact .nil
  | step leading first _ ih =>
    obtain ⟨operator, m, hc, ho⟩ := gives_bind.mp first
    obtain ⟨scope, hc⟩ := (Clause.gives_following leading).mp hc
    have hop := readAs_of_clause (gives_clause.mpr ⟨scope, hc⟩)
    obtain ⟨hop, hq, hshape⟩ :=
      wellFormed_of_readOperand hsub (hc.not_isPunctuation rfl) hop ho
    exact .cons hop hq hshape ih

/-- The WITH clause was read before, by whoever promised the query. -/
theorem wellFormed_of_read {w : Option Clause} {q : Select} (hw : ∀ c ∈ w, c.ReadAs .with)
    (h : (Select.read (readNested depth room) w).Gives s q r) :
    q.WellFormed ∧ q.withClause = w := by
  simp only [Select.read, gives_bind, gives_pure] at h
  obtain ⟨core, _, h₁, os, _, h₂, orderBy, _, h₃, forClause, _, h₄, option, _, h₅, rfl, rfl⟩ := h
  have hos := wellFormed_of_readOperations hsub h₂
  have hw : ∀ slot ∈ Clause.filled [(.with, w)], slot.2.ReadAs slot.1 :=
    Clause.forall_filled.mpr (by simpa using hw)
  have hending : ∀ slot ∈ Ending.slots { orderBy, forClause, option }, slot.2.ReadAs slot.1 := by
    rw [Ending.slots, Clause.forall_filled]
    simp only [List.forall_mem_cons]
    exact ⟨readAs_of_clause? h₃, readAs_of_clause? h₄, readAs_of_clause? h₅, by simp⟩
  refine ⟨⟨?_, hos.operands⟩, rfl⟩
  simp only [Select.slots, List.forall_mem_append]
  exact ⟨⟨⟨hw, readAs_of_readCore h₁⟩, hos.slots⟩, hending⟩

omit hsub in
theorem wellFormed_of_readNested {q : Select} (h : (readNested depth room).Gives s q r) :
    q.WellFormed ∧ q.withClause = none := by
  induction room generalizing depth s q r with
  | zero => exact absurd h gives_fail
  | succ room ih =>
    obtain ⟨e, m, he, h⟩ := gives_bind.mp h
    obtain rfl := gives_log.mp he
    exact wellFormed_of_read (fun _ _ _ h => ih h) (by simp) h

end Select

namespace Statement

/-- What a statement is made of. Each clause has its slot, stands in a slot of its own kind and
starts with the keywords of that kind. -/
structure WellFormed (st : Statement) : Prop where
  slots : st.slots.map Prod.snd = st.clauses
  kind : ∀ slot ∈ st.slots, slot.2.kind = slot.1
  lead : ∀ c ∈ st.clauses, ∃ t, c.tokens.head? = some t ∧ t.isOneOf c.kind.rule.leading = true
  second : ∀ c ∈ st.clauses, ∀ k, c.kind.rule.second = some k →
    ∃ t, c.significant[1]? = some t ∧ t.isKeyword k = true
  /-- An INSERT has one source, and as a query that comes without WITH. -/
  source : ∀ i, st = .insert i → (∃! field, field ∈ i.source.fields ∧ field.2 ≠ .null) ∧
    ∀ q, i.source = .select q → q.withClause = none
  /-- A MERGE has a branch. -/
  branch : ∀ m, st = .merge m → ∃ c, (.when, c) ∈ m.slots
  operands : ∀ o ∈ st.operands, o.Shaped

variable {depth room : Nat} {s r : Ahead} {w : Option Clause}

theorem readAs_of_readSource {source : Source}
    (h : Source.Read (Select.readNested depth room) s source r) :
    (∀ slot ∈ source.slots, slot.2.ReadAs slot.1) ∧ (∀ o ∈ source.operands, o.Shaped) ∧
      ∀ q, source = .select q → q.withClause = none := by
  cases h with
  | values h | defaultValues h | execute h =>
    exact ⟨by simpa [Source.slots] using readAs_of_clause h, by simp [Source.operands], nofun⟩
  | select h =>
    obtain ⟨hq, hw⟩ := Select.wellFormed_of_read (fun _ _ _ h => Select.wellFormed_of_readNested h)
      (by simp) h
    refine ⟨hq.slots, hq.operands, fun q he => ?_⟩
    cases he
    exact hw

theorem readAs_of_readUpdate {u : Update} (hw : ∀ c ∈ w, c.ReadAs .with)
    (h : (readUpdate (Select.readNested depth room) w).Gives s u r) :
    ∀ slot ∈ u.slots, slot.2.ReadAs slot.1 := by
  simp only [readUpdate, gives_bind, gives_pure] at h
  obtain ⟨update, _, h₁, set, _, h₂, output, _, h₃, fromClause, _, h₄, whereClause, _, h₅,
    option, _, h₆, rfl, rfl⟩ := h
  rw [Update.slots, Clause.forall_filled]
  simp only [List.forall_mem_cons]
  exact ⟨hw, by simpa using readAs_of_clause h₁, by simpa using readAs_of_clause h₂,
    readAs_of_clause? h₃, readAs_of_clause? h₄, readAs_of_clause? h₅, readAs_of_clause? h₆, by simp⟩

theorem readAs_of_readDelete {d : Delete} (hw : ∀ c ∈ w, c.ReadAs .with)
    (h : (readDelete (Select.readNested depth room) w).Gives s d r) :
    ∀ slot ∈ d.slots, slot.2.ReadAs slot.1 := by
  simp only [readDelete, gives_bind, gives_pure] at h
  obtain ⟨delete, _, h₁, output, _, h₂, fromClause, _, h₃, whereClause, _, h₄, option, _, h₅,
    rfl, rfl⟩ := h
  rw [Delete.slots, Clause.forall_filled]
  simp only [List.forall_mem_cons]
  exact ⟨hw, by simpa using readAs_of_clause h₁, readAs_of_clause? h₂, readAs_of_clause? h₃,
    readAs_of_clause? h₄, readAs_of_clause? h₅, by simp⟩

theorem readAs_of_readMerge {m : Merge} (hw : ∀ c ∈ w, c.ReadAs .with)
    (h : (readMerge (Select.readNested depth room) w).Gives s m r) :
    ∀ slot ∈ m.slots, slot.2.ReadAs slot.1 := by
  simp only [readMerge, gives_bind, gives_pure] at h
  obtain ⟨merge, _, h₁, usingClause, _, h₂, on, _, h₃, branch, _, h₄, branches, _, h₅, output, _,
    h₆, option, _, h₇, rfl, rfl⟩ := h
  simp only [Merge.slots, List.forall_mem_append, Clause.forall_filled, List.forall_mem_cons,
    List.forall_mem_map]
  exact ⟨⟨⟨hw, by simpa using readAs_of_clause h₁, by simpa using readAs_of_clause h₂,
    by simpa using readAs_of_clause h₃, by simp⟩, readAs_of_clause h₄, readAs_of_clauses h₅⟩,
    readAs_of_clause? h₆, readAs_of_clause? h₇, by simp⟩

theorem readAs_of_readInsert {i : Insert} (hw : ∀ c ∈ w, c.ReadAs .with)
    (h : (readInsert (Select.readNested depth room) w).Gives s i r) :
    (∀ slot ∈ i.slots, slot.2.ReadAs slot.1) ∧ (∀ o ∈ i.source.operands, o.Shaped) ∧
      ∀ q, i.source = .select q → q.withClause = none := by
  simp only [readInsert, gives_bind, gives_pure] at h
  obtain ⟨insert, _, h₁, output, _, h₂, source, _, h₃, rfl, rfl⟩ := h
  obtain ⟨hslots, hoperands, hwith⟩ := readAs_of_readSource (gives_readSource.mp h₃)
  refine ⟨?_, hoperands, hwith⟩
  simp only [Insert.slots, List.forall_mem_append, Clause.forall_filled, List.forall_mem_cons]
  exact ⟨⟨hw, by simpa using readAs_of_clause h₁, readAs_of_clause? h₂, by simp⟩, hslots⟩

/-- Every clause of a statement is one that was read, in whatever operand it stands. -/
theorem readAs_of_read {st : Statement} (h : (Statement.read depth).Gives s st r) :
    (∀ slot ∈ st.slots, slot.2.ReadAs slot.1) ∧ (∀ o ∈ st.operands, o.Shaped) ∧
      ∀ i q, st = .insert i → i.source = .select q → q.withClause = none := by
  simp only [Statement.read, gives_bind, gives_log, gives_pure] at h
  obtain ⟨w, _, hw, main, _, hm, _, _, rfl, rfl, rfl⟩ := h
  have hw := readAs_of_clause? hw
  cases gives_readMain.mp hm with
  | select h =>
    obtain ⟨hq, -⟩ :=
      Select.wellFormed_of_read (fun _ _ _ h => Select.wellFormed_of_readNested h) hw h
    exact ⟨hq.slots, hq.operands, by simp⟩
  | insert h =>
    obtain ⟨hslots, hoperands, hwith⟩ := readAs_of_readInsert hw h
    refine ⟨hslots, hoperands, fun i q hi => ?_⟩
    cases hi
    exact hwith q
  | update h => exact ⟨readAs_of_readUpdate hw h, by simp [operands], by simp⟩
  | delete h => exact ⟨readAs_of_readDelete hw h, by simp [operands], by simp⟩
  | merge h => exact ⟨readAs_of_readMerge hw h, by simp [operands], by simp⟩

theorem readAs_of_mem_clauses {st : Statement} (h : (Statement.read depth).Gives s st r) :
    ∀ c ∈ st.clauses, c.ReadAs c.kind := by
  intro c hc
  rw [← st.map_snd_slots] at hc
  obtain ⟨slot, hslot, rfl⟩ := List.mem_map.mp hc
  have hread := (readAs_of_read h).1 slot hslot
  rw [hread.kind_eq]
  exact hread

end Statement

/-- One of the four places for the source of an INSERT has a value, and no other. -/
theorem Source.existsUnique_field (source : Source) :
    ∃! field, field ∈ source.fields ∧ field.2 ≠ .null := by
  cases source with
  | values c | defaultValues c | execute c =>
    simp [Source.fields, ExistsUnique, Clause.toJson]
  | select q =>
    obtain ⟨w, core, os, ending⟩ := q
    simp [Source.fields, ExistsUnique, Select.toJson]

/-- Whatever is read as a statement is well formed, in its operands as deep as they go and from
whatever tokens it is read. -/
theorem statement_wellFormed (depth : Nat) (s : Ahead) (st : Statement)
    (h : ((Statement.read depth).run s).answer = .ok st) : st.WellFormed := by
  have hread := Parse.Gives.of_answer h
  have hclauses := Statement.readAs_of_mem_clauses hread
  obtain ⟨hslots, hoperands, hwith⟩ := Statement.readAs_of_read hread
  refine ⟨st.map_snd_slots, fun slot hslot => (hslots slot hslot).kind_eq, fun c hc => ?_,
    fun c hc k hk => (hclauses c hc).second hk, fun i hi => ?_, fun m _ => ?_, hoperands⟩
  · exact ⟨c.lead, rfl, (hclauses c hc).leading⟩
  · exact ⟨i.source.existsUnique_field, fun q => hwith i q hi⟩
  · exact ⟨m.branch, by simp [Merge.slots]⟩

/-- The parentheses around the operand belong to the operator and to the GROUP BY. -/
theorem statement_wellFormed_operand :
    let s : Ahead := [⟨.keyword .insert, 0, "INSERT".toList⟩, ⟨.identifier, 7, ['t']⟩,
      ⟨.keyword .select, 9, "SELECT".toList⟩, ⟨.number, 16, ['1']⟩,
      ⟨.keyword .union, 18, "UNION".toList⟩, ⟨.punctuation .openParen, 24, ['(']⟩,
      ⟨.keyword .select, 25, "SELECT".toList⟩, ⟨.number, 32, ['2']⟩,
      ⟨.keyword .group, 34, "GROUP".toList⟩, ⟨.keyword .by, 40, "BY".toList⟩,
      ⟨.identifier, 43, ['a']⟩, ⟨.punctuation .closeParen, 44, [')']⟩]
    ∃ st, ((Statement.read 1).run s).answer = .ok st ∧
      st.slots.map (fun slot => (slot.1, slot.2.tokens.length)) =
        [(.insert, 2), (.select, 2), (.setOperator, 2), (.select, 2), (.groupBy, 4)] ∧
      st.operands.length = 1 ∧ st.WellFormed := by
  intro s
  have hread : ((Statement.read 1).run s).answer.toOption.map (fun st =>
      (st.slots.map fun slot => (slot.1, slot.2.tokens.length), st.operands.length)) =
        some ([(.insert, 2), (.select, 2), (.setOperator, 2), (.select, 2), (.groupBy, 4)], 1) := by
    decide +kernel
  cases hanswer : ((Statement.read 1).run s).answer with
  | error e => simp [hanswer, Except.toOption] at hread
  | ok st =>
    simp only [hanswer, Except.toOption, Option.map_some, Option.some.injEq, Prod.mk.injEq] at hread
    exact ⟨st, rfl, hread.1, hread.2, statement_wellFormed 1 s st hanswer⟩

end SqlOutline
