import SqlOutline.Outline
import SqlOutline.Proofs.Choice
import SqlOutline.Proofs.Segments
import SqlOutline.Proofs.Slot

namespace SqlOutline
open Parse

/-- The tokens of a clause that may be missing. -/
def Clause.optional (c : Option Clause) : List Token :=
  c.elim [] Clause.tokens

theorem Clause.flatMap_tokens_filterMap (cs : List (Option Clause)) :
    (cs.filterMap id).flatMap Clause.tokens = cs.flatMap Clause.optional := by
  induction cs with
  | nil => rfl
  | cons c cs ih =>
    cases c with
    | none => exact ih
    | some c => exact congrArg (c.tokens ++ ·) ih

theorem Clause.flatMap_tokens_toList (c : Option Clause) :
    c.toList.flatMap Clause.tokens = Clause.optional c := by
  cases c <;> simp [Clause.optional]

namespace Core

def tokens (c : Core) : List Token :=
  c.clauses.flatMap Clause.tokens

theorem tokens_eq (c : Core) :
    c.tokens = c.select.tokens ++ Clause.optional c.into ++ Clause.optional c.fromClause ++
      Clause.optional c.whereClause ++ Clause.optional c.groupBy ++ Clause.optional c.having := by
  rw [tokens, clauses, List.flatMap_cons, Clause.flatMap_tokens_filterMap]
  simp

end Core

namespace Ending

def tokens (e : Ending) : List Token :=
  e.clauses.flatMap Clause.tokens

theorem tokens_eq (e : Ending) :
    e.tokens =
      Clause.optional e.orderBy ++ Clause.optional e.forClause ++ Clause.optional e.option := by
  rw [tokens, clauses, Clause.flatMap_tokens_filterMap]
  simp

end Ending

def SetOperation.tokens (o : SetOperation) : List Token :=
  o.operator.tokens ++ o.query.tokens

theorem SetOperation.flatMap_tokens_clauses (os : List SetOperation) :
    (SetOperation.clauses os).flatMap Clause.tokens = os.flatMap SetOperation.tokens := by
  induction os with
  | nil => simp [SetOperation.clauses]
  | cons o os ih =>
    obtain ⟨operator, query⟩ := o
    simp [SetOperation.clauses, SetOperation.tokens, Select.tokens, ih]

theorem Select.tokens_eq (w : Option Clause) (core : Core) (os : List SetOperation)
    (ending : Ending) :
    (Select.mk w core os ending).tokens =
      Clause.optional w ++ core.tokens ++ os.flatMap SetOperation.tokens ++ ending.tokens := by
  simp [Select.tokens, Select.clauses, Core.tokens, Ending.tokens, Clause.flatMap_tokens_toList,
    SetOperation.flatMap_tokens_clauses]

theorem Insert.tokens_eq (i : Insert) :
    (Statement.insert i).tokens = Clause.optional i.withClause ++ (i.insert.tokens ++
      (Clause.optional i.output ++ i.source.clauses.flatMap Clause.tokens)) := by
  change (Insert.clauses i).flatMap Clause.tokens = _
  rw [Insert.clauses, List.append_assoc, List.flatMap_append, Clause.flatMap_tokens_toList,
    List.cons_append, List.flatMap_cons, List.flatMap_append, Clause.flatMap_tokens_toList]

theorem Update.tokens_eq (u : Update) :
    (Statement.update u).tokens = Clause.optional u.withClause ++ (u.update.tokens ++
      (u.set.tokens ++ (Clause.optional u.output ++ (Clause.optional u.fromClause ++
        (Clause.optional u.whereClause ++ Clause.optional u.option))))) := by
  change (Update.clauses u).flatMap Clause.tokens = _
  rw [Update.clauses, List.flatMap_append, Clause.flatMap_tokens_toList, List.flatMap_cons,
    List.flatMap_cons, Clause.flatMap_tokens_filterMap]
  simp

theorem Delete.tokens_eq (d : Delete) :
    (Statement.delete d).tokens = Clause.optional d.withClause ++ (d.delete.tokens ++
      (Clause.optional d.output ++ (Clause.optional d.fromClause ++
        (Clause.optional d.whereClause ++ Clause.optional d.option)))) := by
  change (Delete.clauses d).flatMap Clause.tokens = _
  rw [Delete.clauses, List.flatMap_append, Clause.flatMap_tokens_toList, List.flatMap_cons,
    Clause.flatMap_tokens_filterMap]
  simp

theorem Merge.tokens_eq (m : Merge) :
    (Statement.merge m).tokens = Clause.optional m.withClause ++ (m.merge.tokens ++
      (m.usingClause.tokens ++ (m.on.tokens ++ (m.branch.tokens ++
        (m.branches.flatMap Clause.tokens ++ (Clause.optional m.output ++
          Clause.optional m.option)))))) := by
  change (Merge.clauses m).flatMap Clause.tokens = _
  rw [Merge.clauses, List.flatMap_append, Clause.flatMap_tokens_filterMap, List.flatMap_append,
    Clause.flatMap_tokens_toList]
  simp

/-- A query in parentheses, with them and all trivia around it, is read as a whole. -/
theorem Reads.parens {paren close : Token} {q : Select} {gap : List Token} {s m : Ahead}
    (opening : paren.isPunctuation .openParen = true) (plain : ∀ t ∈ gap, t.isTrivia = true)
    (inner : Reads s q.tokens (close :: m)) (closing : close.isPunctuation .closeParen = true) :
    Reads (paren :: (gap ++ s))
      (paren :: gap ++ (q.tokens ++ close :: m.takeWhile Token.isTrivia))
      (m.dropWhile Token.isTrivia) := by
  have hgap : ∀ t ∈ gap, ∀ p, t.isPunctuation p = false := fun t ht =>
    Token.isPunctuation_of_isTrivia (plain t ht)
  have hrest := Clause.gap_plain m
  obtain ⟨n, hn, hz⟩ := inner.nested
  have hz : n = 0 := hz.resolve_right fun he => by
    have := he close rfl
    simp_all [Token.isPunctuation]
  subst hz
  refine ⟨?_, ?_, .inr ?_, 0, ?_, .inl rfl⟩
  · have := List.takeWhile_append_dropWhile (p := Token.isTrivia) (l := m)
    simp [inner.split, this]
  · intro t ht
    simp only [List.cons_append, List.mem_cons, List.mem_append] at ht
    rcases ht with rfl | ht | ht | rfl | ht
    · simp_all [Token.isPunctuation]
    · exact hgap t ht _
    · exact inner.noSemicolon t ht
    · simp_all [Token.isPunctuation]
    · exact hrest t ht _
  · intro t ht
    have := List.head?_dropWhile_not Token.isTrivia m
    rw [ht] at this
    simpa using this
  · have ho : close.isPunctuation .openParen = false := by simp_all [Token.isPunctuation]
    have hn := Token.level_add hn 1
    simp [Token.level, opening, Token.level_append, Token.level_of_plain _ hgap, hn, ho, closing,
      Token.level_of_plain _ hrest]

namespace Parse.Segments

variable {sub : Parse Select} (hsub : sub.Segments Select.tokens) {s r : Ahead}
include hsub

theorem clause (kind : ClauseKind) : (Parse.clause sub kind).Segments Clause.tokens := by
  intro s c r h
  obtain ⟨scope, h⟩ := gives_clause.mp h
  exact h.reads hsub

theorem clause? (kind : ClauseKind) : (Parse.clause? sub kind).Segments Clause.optional := by
  intro s c r h
  rcases gives_clause?.mp h with ⟨d, scope, rfl, hd⟩ | ⟨rfl, rfl, -⟩
  · exact hd.reads hsub
  · exact .nil _

theorem clauses (kind : ClauseKind) :
    (Parse.clauses sub kind).Segments (List.flatMap Clause.tokens) := by
  intro s cs r h
  replace h := gives_each.mp h
  induction h with
  | done => exact .nil _
  | step lead first _ ih =>
    obtain ⟨scope, hc⟩ := (Clause.gives_following lead).mp first
    exact (hc.reads hsub).trans ih

theorem readCore : (Select.readCore sub).Segments Core.tokens := by
  intro s c r h
  simp only [Select.readCore, gives_bind, gives_pure] at h
  obtain ⟨select, _, h₁, into, _, h₂, fromClause, _, h₃, whereClause, _, h₄, groupBy, _, h₅,
    having, _, h₆, rfl, rfl⟩ := h
  rw [Core.tokens_eq]
  exact (((((clause hsub _ h₁).trans (clause? hsub _ h₂)).trans (clause? hsub _ h₃)).trans
    (clause? hsub _ h₄)).trans (clause? hsub _ h₅)).trans (clause? hsub _ h₆)

theorem readOperand {operator : Clause} {o : SetOperation}
    (h : (Select.readOperand sub operator).Gives s o r) :
    ∃ ts, o.tokens = operator.tokens ++ ts ∧ Reads s ts r := by
  simp only [Select.readOperand, gives_bind] at h
  obtain ⟨paren, m, hp, h⟩ := h
  rcases gives_take?.mp hp with ⟨paren, rfl, rfl, opening⟩ | ⟨rfl, rfl, -⟩
  · simp only [gives_bind, gives_trivia, gives_atKeyword] at h
    obtain ⟨gap, m', ⟨rfl, rfl⟩, b, m'', ⟨-, rfl⟩, h⟩ := h
    cases b with
    | false => simp at h
    | true =>
      simp only [↓reduceIte, gives_bind, gives_trivia, gives_pure, gives_expect] at h
      obtain ⟨q, m₁, hq, close, m₂, ⟨rfl, closing⟩, rest, m₃, ⟨rfl, rfl⟩, rfl, rfl⟩ := h
      have hr := Reads.parens opening (Clause.gap_isTrivia m) (hsub hq) closing
      rw [List.takeWhile_append_dropWhile] at hr
      exact ⟨_, by simp [SetOperation.tokens, Select.tokens_push, Clause.tokens_push], hr⟩
  · simp only [gives_bind, gives_pure] at h
    obtain ⟨core, m, hc, rfl, rfl⟩ := h
    refine ⟨core.tokens, ?_, readCore hsub hc⟩
    simp [SetOperation.tokens, Select.ofCore, Select.tokens_eq, Clause.optional, Ending.tokens_eq]

theorem readOperations :
    (Select.readOperations sub).Segments (List.flatMap SetOperation.tokens) := by
  intro s os r h
  replace h := gives_each.mp h
  induction h with
  | done => exact .nil _
  | step leading first _ ih =>
    obtain ⟨operator, m, hc, ho⟩ := gives_bind.mp first
    obtain ⟨scope, hc⟩ := (Clause.gives_following leading).mp hc
    obtain ⟨ts, ht, hr⟩ := readOperand hsub ho
    rw [List.flatMap_cons, ht]
    exact ((hc.reads hsub).trans hr).trans ih

/-- The WITH clause was read before, by whoever promised the query. -/
theorem readSelect {w : Option Clause} {q : Select} (h : (Select.read sub w).Gives s q r) :
    ∃ ts, q.tokens = Clause.optional w ++ ts ∧ Reads s ts r := by
  simp only [Select.read, gives_bind, gives_pure] at h
  obtain ⟨core, _, h₁, os, _, h₂, orderBy, _, h₃, forClause, _, h₄, option, _, h₅, rfl, rfl⟩ := h
  refine ⟨_, ?_, ((((readCore hsub h₁).trans (readOperations hsub h₂)).trans
    (clause? hsub _ h₃)).trans (clause? hsub _ h₄)).trans (clause? hsub _ h₅)⟩
  simp [Select.tokens_eq, Ending.tokens_eq]

omit hsub in
theorem readNested (depth room : Nat) : (Select.readNested depth room).Segments Select.tokens := by
  induction room generalizing depth with
  | zero =>
    intro s q r h
    exact absurd h gives_fail
  | succ room ih =>
    intro s q r h
    obtain ⟨e, m, he, h⟩ := gives_bind.mp h
    obtain rfl := gives_log.mp he
    obtain ⟨ts, ht, hr⟩ := readSelect (ih (depth + 1)) h
    rw [ht]
    exact hr

theorem readSource {source : Source} (h : Source.Read sub s source r) :
    Reads s (source.clauses.flatMap Clause.tokens) r := by
  cases h with
  | values h | defaultValues h | execute h => simpa [Source.clauses] using clause hsub _ h
  | select h =>
    obtain ⟨ts, ht, hr⟩ := readSelect hsub h
    rw [Source.clauses, ← Select.tokens, ht]
    exact hr

theorem readInsert {w : Option Clause} {i : Insert}
    (h : (Statement.readInsert sub w).Gives s i r) :
    ∃ ts, (Statement.insert i).tokens = Clause.optional w ++ ts ∧ Reads s ts r := by
  simp only [Statement.readInsert, gives_bind, gives_pure] at h
  obtain ⟨insert, _, h₁, output, _, h₂, source, _, h₃, rfl, rfl⟩ := h
  refine ⟨_, ?_, ((clause hsub _ h₁).trans (clause? hsub _ h₂)).trans
    (readSource hsub (Statement.gives_readSource.mp h₃))⟩
  simp [Insert.tokens_eq]

theorem readUpdate {w : Option Clause} {u : Update}
    (h : (Statement.readUpdate sub w).Gives s u r) :
    ∃ ts, (Statement.update u).tokens = Clause.optional w ++ ts ∧ Reads s ts r := by
  simp only [Statement.readUpdate, gives_bind, gives_pure] at h
  obtain ⟨update, _, h₁, set, _, h₂, output, _, h₃, fromClause, _, h₄, whereClause, _, h₅,
    option, _, h₆, rfl, rfl⟩ := h
  refine ⟨_, ?_, (((((clause hsub _ h₁).trans (clause hsub _ h₂)).trans
    (clause? hsub _ h₃)).trans (clause? hsub _ h₄)).trans (clause? hsub _ h₅)).trans
    (clause? hsub _ h₆)⟩
  simp [Update.tokens_eq]

theorem readDelete {w : Option Clause} {d : Delete}
    (h : (Statement.readDelete sub w).Gives s d r) :
    ∃ ts, (Statement.delete d).tokens = Clause.optional w ++ ts ∧ Reads s ts r := by
  simp only [Statement.readDelete, gives_bind, gives_pure] at h
  obtain ⟨delete, _, h₁, output, _, h₂, fromClause, _, h₃, whereClause, _, h₄, option, _, h₅,
    rfl, rfl⟩ := h
  refine ⟨_, ?_, ((((clause hsub _ h₁).trans (clause? hsub _ h₂)).trans
    (clause? hsub _ h₃)).trans (clause? hsub _ h₄)).trans (clause? hsub _ h₅)⟩
  simp [Delete.tokens_eq]

theorem readMerge {w : Option Clause} {e : Merge}
    (h : (Statement.readMerge sub w).Gives s e r) :
    ∃ ts, (Statement.merge e).tokens = Clause.optional w ++ ts ∧ Reads s ts r := by
  simp only [Statement.readMerge, gives_bind, gives_pure] at h
  obtain ⟨merge, _, h₁, usingClause, _, h₂, on, _, h₃, branch, _, h₄, branches, _, h₅, output, _,
    h₆, option, _, h₇, rfl, rfl⟩ := h
  refine ⟨_, ?_, ((((((clause hsub _ h₁).trans (clause hsub _ h₂)).trans
    (clause hsub _ h₃)).trans (clause hsub _ h₄)).trans (clauses hsub _ h₅)).trans
    (clause? hsub _ h₆)).trans (clause? hsub _ h₇)⟩
  simp [Merge.tokens_eq]

theorem readMain {w : Option Clause} {statement : Statement}
    (h : (Statement.readMain sub w).Gives s statement r) :
    ∃ ts, statement.tokens = Clause.optional w ++ ts ∧ Reads s ts r := by
  cases Statement.gives_readMain.mp h with
  | select h => exact readSelect hsub h
  | insert h => exact readInsert hsub h
  | update h => exact readUpdate hsub h
  | delete h => exact readDelete hsub h
  | merge h => exact readMerge hsub h

omit hsub in
theorem readStatement (depth : Nat) : (Statement.read depth).Segments Statement.tokens := by
  intro s statement r h
  simp only [Statement.read, gives_bind, gives_log, gives_pure] at h
  obtain ⟨w, _, hw, main, _, hm, _, _, rfl, rfl, rfl⟩ := h
  have hsub := readNested 0 depth
  obtain ⟨ts, ht, hr⟩ := readMain hsub hm
  rw [ht]
  exact (clause? hsub _ hw).trans hr

end Parse.Segments

end SqlOutline
