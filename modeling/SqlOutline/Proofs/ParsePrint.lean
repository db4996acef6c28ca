import SqlOutline.Proofs.Closed

namespace SqlOutline
open Parse

theorem Token.isOneOf_of_subset {t : Token} {ks ks' : List Keyword} (hs : ks ⊆ ks')
    (h : t.isOneOf ks = true) : t.isOneOf ks' = true := by
  obtain ⟨k, hm, hk⟩ := List.any_eq_true.mp h
  exact List.any_eq_true.mpr ⟨k, hs hm, hk⟩

/-- What stands next, if anything, ends the statement or the parentheses around it, or is one of the
keywords. -/
def Ahead.Opens (ks : List Keyword) (s : Ahead) : Prop :=
  ∀ t ∈ s.head?, t.isPunctuation .semicolon = true ∨ t.isPunctuation .closeParen = true ∨
    t.isOneOf ks = true

/-- The keywords end every clause of the kind that has come to the end of its parentheses and CASE
blocks. -/
def ClauseKind.EndsAt (kind : ClauseKind) (ks : List Keyword) : Prop :=
  ∀ k ∈ ks, ∀ target, kind.rule.permits target k = false

instance (kind : ClauseKind) (ks : List Keyword) : Decidable (kind.EndsAt ks) :=
  inferInstanceAs (Decidable (∀ k ∈ ks, ∀ target, kind.rule.permits target k = false))

namespace Ahead.Opens

variable {s : Ahead} {ks : List Keyword}

theorem of_ended (h : s.Ended) : s.Opens ks := fun t ht => .inl (h t ht)

theorem of_close {t : Token} (h : t.isPunctuation .closeParen = true) (s : Ahead) :
    Ahead.Opens ks (t :: s) := by
  intro u ht
  cases ht
  exact .inr (.inl h)

theorem of_atKeyword (h : s.atKeyword ks = true) : s.Opens ks := by
  cases s with
  | nil => simp [Ahead.Opens]
  | cons t s =>
    intro u ht
    cases ht
    exact .inr (.inr h)

theorem mono (h : s.Opens ks) {ks' : List Keyword} (hs : ks ⊆ ks') : s.Opens ks' := fun t ht =>
  (h t ht).imp_right (Or.imp_right (Token.isOneOf_of_subset hs))

theorem settled (h : s.Opens ks) : s.Settled := by
  intro t ht
  rcases h t ht with h | h | h
  · exact Token.isTrivia_of_isPunctuation h
  · exact Token.isTrivia_of_isPunctuation h
  · obtain ⟨k, -, hk⟩ := Token.kind_of_isOneOf h
    simp [Token.isTrivia, hk, Kind.isTrivia, Kind.isComment]

theorem no_openParen (h : s.Opens ks) : ∀ t ∈ s.head?, t.isPunctuation .openParen = false := by
  intro t ht
  rcases h t ht with h | h | h
  · simp_all [Token.isPunctuation]
  · simp_all [Token.isPunctuation]
  · exact Token.isPunctuation_of_isOneOf h _

theorem not_atKeyword (h : s.Opens ks) {ks' : List Keyword} (hd : ∀ k ∈ ks', k ∉ ks) :
    s.atKeyword ks' = false := by
  refine Ahead.atKeyword_eq_false_iff.mpr fun t ht => Bool.eq_false_iff.mpr fun hk => ?_
  obtain ⟨k, hk, ht'⟩ := Token.kind_of_isOneOf hk
  rcases h t ht with h | h | h
  · simp [Token.isPunctuation, ht'] at h
  · simp [Token.isPunctuation, ht'] at h
  · obtain ⟨k', hk', ht''⟩ := Token.kind_of_isOneOf h
    obtain rfl : k' = k := Kind.keyword.inj (ht''.symm.trans ht')
    exact hd k' hk hk'

theorem stops (h : s.Opens ks) {rule : ClauseRule} {scope : Scope} (hp : scope.parens = 0)
    (hc : scope.cases = 0) (hk : ∀ k ∈ ks, rule.permits scope.target k = false) :
    ∀ t ∈ s.head?, rule.stops scope t = true := by
  intro t ht
  rcases h t ht with h | h | h
  · exact ClauseRule.stops_semicolon h rule scope
  · simp_all [ClauseRule.stops, Token.isPunctuation]
  · obtain ⟨k, hm, hk'⟩ := Token.kind_of_isOneOf h
    simp [ClauseRule.stops, hk', hp, hc, hk k hm]

end Ahead.Opens

namespace Clause

variable {kind : ClauseKind} {c : Clause} {slot : Option Clause} {ks : List Keyword} {x : Ahead}
  {depth room : Nat}

theorem Closed.lead (h : c.Closed kind) : c.lead.isOneOf kind.rule.leading = true := by
  obtain ⟨depth, room, scope, hscan, -⟩ := h
  generalize hs : c.tokens = s at hscan
  generalize hr : ([] : Ahead) = r at hscan
  cases hscan with
  | mk leading => exact leading

/-- A closed clause is read again wherever a token follows that stops it. -/
theorem Closed.scan (h : c.Closed kind) (hroom : Token.opened c.tokens ≤ room)
    (hx : ∀ scope : Scope, scope.parens = 0 → scope.cases = 0 →
      (kind.rule.second = none → c.HasTarget → scope.target = true) →
        ∀ t ∈ x.head?, kind.rule.stops scope t = true) :
    ∃ scope, Scan (Select.readNested depth room) kind (c.tokens ++ x) c scope x := by
  obtain ⟨depth, room, scope, hscan, hp, hc⟩ := h
  exact ⟨scope, hscan.grow hp hroom (hx scope hp hc fun hs ht =>
    hscan.target (.readNested _ _) hs ht)⟩

theorem Closed.following (h : c.Closed kind) (hroom : Token.opened c.tokens ≤ room)
    (hx : ∀ scope : Scope, scope.parens = 0 → scope.cases = 0 →
      ∀ t ∈ x.head?, kind.rule.stops scope t = true) :
    (Clause.following (Select.readNested depth room) kind c.lead).Gives (c.body ++ x) c x :=
  (gives_following h.lead).mpr (h.scan hroom fun scope hp hc _ => hx scope hp hc)

theorem Closed.gives (h : c.Closed kind) (hroom : Token.opened c.tokens ≤ room) (hx : x.Opens ks)
    (hk : kind.EndsAt ks) :
    (clause (Select.readNested depth room) kind).Gives (c.tokens ++ x) c x :=
  gives_clause.mpr (h.scan hroom fun _ hp hc _ => hx.stops hp hc fun k hm => hk k hm _)

theorem Closed.atKeyword (h : c.Closed kind) (x : Ahead) :
    Ahead.atKeyword kind.rule.leading (c.tokens ++ x) = true :=
  h.lead

theorem Closed.opens (h : c.Closed kind) (x : Ahead) :
    Ahead.Opens kind.rule.leading (c.tokens ++ x) := by
  intro t ht
  cases ht
  exact .inr (.inr h.lead)

theorem Fits.gives (h : Fits kind slot) (hroom : Token.opened (Clause.optional slot) ≤ room)
    (hx : x.Opens ks) (hk : kind.EndsAt ks) (hd : ∀ k ∈ kind.rule.leading, k ∉ ks) :
    (clause? (Select.readNested depth room) kind).Gives (Clause.optional slot ++ x) slot x := by
  cases slot with
  | none => exact gives_clause?.mpr (.inr ⟨rfl, rfl, hx.not_atKeyword hd⟩)
  | some c =>
    obtain ⟨scope, hscan⟩ := gives_clause.mp ((h c rfl).gives hroom hx hk)
    exact gives_clause?.mpr (.inl ⟨c, scope, rfl, hscan⟩)

theorem Fits.opens (h : Fits kind slot) (hx : x.Opens ks) :
    Ahead.Opens (kind.rule.leading ++ ks) (Clause.optional slot ++ x) := by
  cases slot with
  | none => exact hx.mono fun k hk => List.mem_append_right _ hk
  | some c => exact ((h c rfl).opens x).mono fun k hk => List.mem_append_left _ hk

end Clause

/-- The keywords that can follow the core of a query. -/
def Core.ends : List Keyword :=
  [.union, .except, .intersect, .order, .for, .option]

theorem Core.Grammatical.gives {c : Core} (h : c.Grammatical) {depth room : Nat} {x : Ahead}
    (hroom : Token.opened c.tokens ≤ room) (hx : x.Opens Core.ends) :
    (Select.readCore (Select.readNested depth room)).Gives (c.tokens ++ x) c x := by
  rw [Core.tokens_eq] at hroom ⊢
  simp only [List.append_assoc, Token.opened_append] at hroom ⊢
  have having := h.having.opens hx
  have groupBy := h.groupBy.opens having
  have whereClause := h.whereClause.opens groupBy
  have fromClause := h.fromClause.opens whereClause
  have into := h.into.opens fromClause
  apply Gives.bind (h.select.gives (by omega) into (by decide))
  apply Gives.bind (h.into.gives (by omega) fromClause (by decide) (by decide))
  apply Gives.bind (h.fromClause.gives (by omega) whereClause (by decide) (by decide))
  apply Gives.bind (h.whereClause.gives (by omega) groupBy (by decide) (by decide))
  apply Gives.bind (h.groupBy.gives (by omega) having (by decide) (by decide))
  apply Gives.bind (h.having.gives (by omega) hx (by decide) (by decide))
  exact gives_pure.mpr ⟨rfl, rfl⟩

theorem Core.Grammatical.opens {c : Core} (h : c.Grammatical) (x : Ahead) :
    Ahead.Opens [.select] (c.tokens ++ x) := by
  rw [Core.tokens_eq]
  simp only [List.append_assoc]
  exact h.select.opens _

/-- Behind an operator stands a parenthesis or the first word of a query, and both end it. -/
theorem Clause.Closed.operator {operator : Clause} (h : operator.Closed .setOperator)
    {depth room : Nat} {x : Ahead} (hroom : Token.opened operator.tokens ≤ room)
    (hx : ∀ t ∈ x.head?, t.isPunctuation .openParen = true ∨ t.isOneOf [.select] = true) :
    (Clause.following (Select.readNested depth room) .setOperator operator.lead).Gives
      (operator.body ++ x) operator x := by
  refine h.following hroom fun scope hp hc t ht => ?_
  rcases hx t ht with h | h
  · simp_all [ClauseRule.stops, Token.isPunctuation, ClauseKind.rule, Kind.isTrivia, Kind.isComment]
  · simp_all [ClauseRule.stops, Token.isOneOf, Token.isKeyword, ClauseKind.rule, ClauseRule.permits]

theorem Select.gives_bareOperand {operator : Clause} {c : Core} {depth room : Nat} {x : Ahead}
    (h : c.Grammatical) (hroom : Token.opened c.tokens ≤ room) (hx : x.Opens Core.ends) :
    (Select.readOperand (Select.readNested depth room) operator).Gives (c.tokens ++ x)
      ⟨operator, .ofCore c⟩ x := by
  have hopen := (h.opens x).no_openParen
  apply Gives.bind (gives_take?.mpr (.inr ⟨rfl, rfl, hopen⟩))
  exact .bind (h.gives hroom hx) (gives_pure.mpr ⟨rfl, rfl⟩)

theorem Select.gives_nestedOperand {sub : Parse Select} {operator : Clause} {paren close : Token}
    {q : Select} {s x : Ahead} (opening : paren.isPunctuation .openParen = true)
    (closing : close.isPunctuation .closeParen = true) (hs : s.atKeyword [.select] = true)
    (hq : sub.Gives s q (close :: x)) (hx : x.Settled) :
    (Select.readOperand sub operator).Gives (paren :: s)
      ⟨operator.push [paren], q.push [close]⟩ x := by
  have hsettled := (Ahead.Opens.of_atKeyword hs).settled
  apply Gives.bind (gives_take?.mpr (.inl ⟨paren, rfl, rfl, opening⟩))
  apply Gives.bind (gives_trivia.mpr ⟨hsettled.trivia.1.symm, hsettled.trivia.2.symm⟩)
  apply Gives.bind (gives_atKeyword.mpr ⟨hs.symm, rfl⟩)
  refine .bind hq (.bind (gives_expect.mpr ⟨rfl, closing⟩) ?_)
  apply Gives.bind (gives_trivia.mpr ⟨hx.trivia.1.symm, hx.trivia.2.symm⟩)
  exact gives_pure.mpr ⟨rfl, rfl⟩

theorem Select.gives_readNested {depth room : Nat} {q : Select} {s r : Ahead}
    (h : (Select.read (Select.readNested (depth + 1) room) none).Gives s q r) :
    (Select.readNested depth (room + 1)).Gives s q r :=
  h.after_log _

theorem Select.tokens_ofCore (c : Core) : (Select.ofCore c).tokens = c.tokens := by
  simp [Select.ofCore, Select.tokens_eq, Clause.optional, Ending.tokens_eq]

theorem SetOperation.Grammatical.opens {os : List SetOperation} (h : SetOperation.Grammatical os)
    {x : Ahead} (hx : x.Opens [.order, .for, .option]) :
    Ahead.Opens Core.ends (os.flatMap SetOperation.tokens ++ x) := by
  cases h with
  | nil => exact hx.mono (by decide)
  | bare closed | parens closed =>
    intro t ht
    cases ht
    exact .inr (.inr (Token.isOneOf_of_subset (by decide) closed.lead))

theorem Select.Grammatical.atKeyword {q : Select} (h : q.Grammatical) (x : Ahead) :
    Ahead.atKeyword [.select] (q.tokens ++ x) = true := by
  cases h with
  | mk core =>
    rw [Select.tokens_eq, Core.tokens_eq]
    simp only [Clause.optional, Option.elim_none, List.nil_append, List.append_assoc]
    exact core.select.atKeyword _

/-- Queries of the grammar are read in parentheses as they were written. -/
def Select.ReadsNested (depth room : Nat) : Prop :=
  ∀ ⦃q : Select⦄ ⦃x : Ahead⦄, q.Grammatical → Token.opened q.tokens < room → x.Opens [] →
    (Select.readNested depth room).Gives (q.tokens ++ x) q x

theorem SetOperation.Grammatical.items {os : List SetOperation} (h : SetOperation.Grammatical os)
    {depth room : Nat} {x : Ahead} (nested : Select.ReadsNested depth room)
    (hroom : Token.opened (os.flatMap SetOperation.tokens) ≤ room)
    (hx : x.Opens [.order, .for, .option]) :
    Items ClauseKind.setOperator.rule.leading
      (fun lead => do
        Select.readOperand (Select.readNested depth room)
          (← Clause.following (Select.readNested depth room) .setOperator lead))
      (os.flatMap SetOperation.tokens ++ x) os x := by
  induction os with
  | nil => exact .done (hx.not_atKeyword (by decide))
  | cons o os ih =>
    cases h with
    | @bare operator c _ closed core rest =>
      simp only [List.flatMap_cons, SetOperation.tokens, Select.tokens_ofCore, List.append_assoc,
        Token.opened_append] at hroom ⊢
      refine .step closed.lead (.bind (closed.operator (by omega) ?_) ?_) (ih rest (by omega))
      · intro t ht
        cases ht
        exact .inr core.select.lead
      · exact Select.gives_bareOperand core (by omega) (rest.opens hx)
    | @parens operator paren close q _ closed opening query closing rest =>
      have hcount : Token.opened operator.tokens + 1 + Token.opened q.tokens +
          Token.opened (os.flatMap SetOperation.tokens) ≤ room := by
        simp only [List.flatMap_cons, SetOperation.tokens, Clause.tokens_push, Select.tokens_push,
          Token.opened_append] at hroom
        have : Token.opened [paren] = 1 := by simp [Token.opened, opening]
        omega
      have hstream :
          List.flatMap SetOperation.tokens (⟨operator.push [paren], q.push [close]⟩ :: os) ++ x =
            operator.lead :: (operator.body ++
              paren :: (q.tokens ++ close :: (os.flatMap SetOperation.tokens ++ x))) := by
        simp [SetOperation.tokens, Select.tokens_push, Clause.push, Clause.tokens]
      rw [hstream]
      refine .step closed.lead (.bind (closed.operator (by omega) ?_) ?_) (ih rest (by omega))
      · intro t ht
        cases ht
        exact .inl opening
      · exact Select.gives_nestedOperand opening closing (query.atKeyword _)
          (nested query (by omega) (.of_close closing _)) (rest.opens hx).settled

theorem Select.Grammatical.gives_of_nested {c : Core} {os : List SetOperation} {e : Ending}
    (h : Select.Grammatical ⟨none, c, os, e⟩) (w : Option Clause) {depth room : Nat} {x : Ahead}
    (nested : Select.ReadsNested depth room)
    (hroom : Token.opened (Select.mk none c os e).tokens ≤ room) (hx : x.Opens []) :
    (Select.read (Select.readNested depth room) w).Gives ((Select.mk none c os e).tokens ++ x)
      ⟨w, c, os, e⟩ x := by
  cases h with
  | mk core operations ending =>
    rw [Select.tokens_eq, Ending.tokens_eq, Clause.optional, Option.elim_none] at hroom ⊢
    simp only [List.append_assoc, List.nil_append, Token.opened_append] at hroom ⊢
    have option := ending.option.opens hx
    have forClause := ending.forClause.opens option
    have orderBy : Ahead.Opens [.order, .for, .option] _ :=
      (ending.orderBy.opens forClause).mono (by decide)
    apply Gives.bind (core.gives (by omega) (operations.opens orderBy))
    apply Gives.bind (gives_each.mpr (operations.items nested (by omega) orderBy))
    apply Gives.bind (ending.orderBy.gives (by omega) forClause (by decide) (by decide))
    apply Gives.bind (ending.forClause.gives (by omega) option (by decide) (by decide))
    apply Gives.bind (ending.option.gives (by omega) hx (by decide) (by decide))
    exact gives_pure.mpr ⟨rfl, rfl⟩

/-- Each level of the reading has more room than there are parentheses left to open. -/
theorem Select.readsNested (depth room : Nat) : Select.ReadsNested depth room := by
  induction room generalizing depth with
  | zero => exact fun _ _ _ hroom => absurd hroom (Nat.not_lt_zero _)
  | succ room ih =>
    intro q x h hroom hx
    obtain ⟨w, c, os, e⟩ := q
    obtain rfl : w = none := by cases h; rfl
    exact Select.gives_readNested
      (h.gives_of_nested none (ih (depth + 1)) (Nat.le_of_lt_succ hroom) hx)

section statements

variable {depth room : Nat} {x : Ahead}

/-- The keywords that can start the rows of an INSERT. -/
def Source.starts : List Keyword :=
  [.values, .select, .default, .exec, .execute]

theorem Source.Grammatical.gives {source : Source} (h : source.Grammatical)
    (hroom : Token.opened (source.clauses.flatMap Clause.tokens) ≤ room) (hx : x.Opens []) :
    (Statement.readSource (Select.readNested depth room)).Gives
      (source.clauses.flatMap Clause.tokens ++ x) source x := by
  rw [Statement.gives_readSource]
  cases h with
  | @select q query =>
    obtain ⟨w, c, os, e⟩ := q
    obtain rfl : w = none := by cases query; rfl
    exact .select (query.gives_of_nested none (Select.readsNested depth room) hroom hx)
  | values closed =>
    simp only [Source.clauses, List.flatMap_singleton] at hroom ⊢
    exact .values (closed.gives hroom hx (by decide))
  | defaultValues closed =>
    simp only [Source.clauses, List.flatMap_singleton] at hroom ⊢
    exact .defaultValues (closed.gives hroom hx (by decide))
  | execute closed =>
    simp only [Source.clauses, List.flatMap_singleton] at hroom ⊢
    exact .execute (closed.gives hroom hx (by decide))

theorem Source.Grammatical.opens {source : Source} (h : source.Grammatical) (x : Ahead) :
    Ahead.Opens Source.starts (source.clauses.flatMap Clause.tokens ++ x) := by
  cases h with
  | select query => exact (Ahead.Opens.of_atKeyword (query.atKeyword x)).mono (by decide)
  | values closed | defaultValues closed | execute closed =>
    simp only [Source.clauses, List.flatMap_singleton]
    exact (closed.opens x).mono (by decide)

theorem Insert.Grammatical.gives {i : Insert} (h : i.Grammatical) (depth : Nat)
    (hroom : Token.opened (Statement.insert i).tokens ≤ room) (hx : x.Opens []) :
    (Statement.readInsert (Select.readNested depth room) i.withClause).Gives
      (i.insert.tokens ++ (Clause.optional i.output ++
        (i.source.clauses.flatMap Clause.tokens ++ x))) i x := by
  simp only [Insert.tokens_eq, Token.opened_append] at hroom
  have source := h.source.opens x
  have output := h.output.opens source
  apply Gives.bind (h.insert.gives (by omega) output (by decide))
  apply Gives.bind (h.output.gives (by omega) source (by decide) (by decide))
  apply Gives.bind (h.source.gives (by omega) hx)
  exact gives_pure.mpr ⟨rfl, rfl⟩

theorem Update.Grammatical.gives {u : Update} (h : u.Grammatical) (depth : Nat)
    (hroom : Token.opened (Statement.update u).tokens ≤ room) (hx : x.Opens []) :
    (Statement.readUpdate (Select.readNested depth room) u.withClause).Gives
      (u.update.tokens ++ (u.set.tokens ++ (Clause.optional u.output ++
        (Clause.optional u.fromClause ++ (Clause.optional u.whereClause ++
          (Clause.optional u.option ++ x)))))) u x := by
  simp only [Update.tokens_eq, Token.opened_append] at hroom
  have option := h.option.opens hx
  have whereClause := h.whereClause.opens option
  have fromClause := h.fromClause.opens whereClause
  have output := h.output.opens fromClause
  apply Gives.bind (h.update.gives (by omega) (h.set.opens _) (by decide))
  apply Gives.bind (h.set.gives (by omega) output (by decide))
  apply Gives.bind (h.output.gives (by omega) fromClause (by decide) (by decide))
  apply Gives.bind (h.fromClause.gives (by omega) whereClause (by decide) (by decide))
  apply Gives.bind (h.whereClause.gives (by omega) option (by decide) (by decide))
  apply Gives.bind (h.option.gives (by omega) hx (by decide) (by decide))
  exact gives_pure.mpr ⟨rfl, rfl⟩

/-- What may follow the words of a DELETE: FROM only behind a target. -/
theorem Delete.Grammatical.gives_delete {d : Delete} (h : d.Grammatical)
    (hroom : Token.opened d.delete.tokens ≤ room) (hx : x.Opens [.where, .option]) :
    (clause (Select.readNested depth room) .delete).Gives
      (d.delete.tokens ++ (Clause.optional d.output ++ (Clause.optional d.fromClause ++ x)))
      d.delete (Clause.optional d.output ++ (Clause.optional d.fromClause ++ x)) := by
  cases ho : d.output with
  | some o =>
    have output := (h.output o (by rw [ho]; rfl)).opens (Clause.optional d.fromClause ++ x)
    exact h.delete.gives hroom output (by decide)
  | none =>
    rw [Clause.optional, Option.elim_none, List.nil_append]
    cases hf : d.fromClause with
    | none => exact h.delete.gives hroom hx (by decide)
    | some f =>
      have fromClause := (h.fromClause f (by rw [hf]; rfl)).opens x
      have target := h.target ho (by rw [hf]; rfl)
      refine gives_clause.mpr (h.delete.scan hroom fun scope hp hc ht => ?_)
      refine fromClause.stops hp hc ?_
      rw [ht rfl target]
      decide

theorem Delete.Grammatical.gives {d : Delete} (h : d.Grammatical) (depth : Nat)
    (hroom : Token.opened (Statement.delete d).tokens ≤ room) (hx : x.Opens []) :
    (Statement.readDelete (Select.readNested depth room) d.withClause).Gives
      (d.delete.tokens ++ (Clause.optional d.output ++ (Clause.optional d.fromClause ++
        (Clause.optional d.whereClause ++ (Clause.optional d.option ++ x))))) d x := by
  simp only [Delete.tokens_eq, Token.opened_append] at hroom
  have option := h.option.opens hx
  have whereClause := h.whereClause.opens option
  have fromClause := h.fromClause.opens whereClause
  apply Gives.bind (h.gives_delete (by omega) whereClause)
  apply Gives.bind (h.output.gives (by omega) fromClause (by decide) (by decide))
  apply Gives.bind (h.fromClause.gives (by omega) whereClause (by decide) (by decide))
  apply Gives.bind (h.whereClause.gives (by omega) option (by decide) (by decide))
  apply Gives.bind (h.option.gives (by omega) hx (by decide) (by decide))
  exact gives_pure.mpr ⟨rfl, rfl⟩

theorem Merge.items_branches {cs : List Clause} (h : ∀ c ∈ cs, c.Closed .when)
    (hroom : Token.opened (cs.flatMap Clause.tokens) ≤ room) (hx : x.Opens [.output, .option]) :
    Items ClauseKind.when.rule.leading (Clause.following (Select.readNested depth room) .when)
        (cs.flatMap Clause.tokens ++ x) cs x ∧
      Ahead.Opens [.when, .output, .option] (cs.flatMap Clause.tokens ++ x) := by
  induction cs with
  | nil => exact ⟨.done (hx.not_atKeyword (by decide)), hx.mono (by decide)⟩
  | cons c cs ih =>
    rw [List.flatMap_cons, Token.opened_append] at hroom
    have closed := h c List.mem_cons_self
    obtain ⟨items, opens⟩ := ih (fun d hd => h d (List.mem_cons_of_mem _ hd)) (by omega)
    rw [List.flatMap_cons, List.append_assoc]
    have ends : ClauseKind.when.EndsAt [.when, .output, .option] := by decide
    refine ⟨.step closed.lead (closed.following (by omega) fun scope hp hc => ?_) items,
      (closed.opens _).mono (by decide)⟩
    exact opens.stops hp hc fun k hk => ends k hk _

theorem Merge.Grammatical.gives {m : Merge} (h : m.Grammatical) (depth : Nat)
    (hroom : Token.opened (Statement.merge m).tokens ≤ room) (hx : x.Opens []) :
    (Statement.readMerge (Select.readNested depth room) m.withClause).Gives
      (m.merge.tokens ++ (m.usingClause.tokens ++ (m.on.tokens ++ (m.branch.tokens ++
        (m.branches.flatMap Clause.tokens ++ (Clause.optional m.output ++
          (Clause.optional m.option ++ x))))))) m x := by
  simp only [Merge.tokens_eq, Token.opened_append] at hroom
  have option := h.option.opens hx
  have output := h.output.opens option
  have hbranches : Token.opened (m.branches.flatMap Clause.tokens) ≤ room := by omega
  obtain ⟨items, branches⟩ := Merge.items_branches h.branches hbranches output
  apply Gives.bind (h.merge.gives (by omega) (h.usingClause.opens _) (by decide))
  apply Gives.bind (h.usingClause.gives (by omega) (h.on.opens _) (by decide))
  apply Gives.bind (h.on.gives (by omega) (h.branch.opens _) (by decide))
  apply Gives.bind (h.branch.gives (by omega) branches (by decide))
  apply Gives.bind (gives_each.mpr items)
  apply Gives.bind (h.output.gives (by omega) option (by decide) (by decide))
  apply Gives.bind (h.option.gives (by omega) hx (by decide) (by decide))
  exact gives_pure.mpr ⟨rfl, rfl⟩

/-- The keywords that can start what a WITH clause promises. -/
def Statement.starts : List Keyword :=
  [.select, .insert, .update, .delete, .merge]

theorem Statement.gives_read {w : Option Clause} {st : Statement} {s : Ahead}
    (hw : Clause.Fits .with w) (hroom : Token.opened (Clause.optional w) ≤ depth)
    (hs : s.Opens Statement.starts)
    (hmain : Statement.Main (Select.readNested 0 depth) w s st x) :
    (Statement.read depth).Gives (Clause.optional w ++ s) st x := by
  apply Gives.bind (hw.gives hroom hs (by decide) (by decide))
  apply Gives.bind (Statement.gives_readMain.mpr hmain)
  exact Gives.after_log (gives_pure.mpr ⟨rfl, rfl⟩) _

end statements

/-- Parsing takes back what printing has put together. Whatever closed clauses a statement of the
grammar is made of, its tokens one after the other, with the end or a semicolon behind them, are read
as this statement, each clause in its own slot and nothing left over. There only has to be room for as
many subqueries as parentheses are opened. -/
theorem parse_print (depth : Nat) (st : Statement) (x : Ahead) (h : st.Grammatical) (hx : x.Ended)
    (hroom : Token.opened st.tokens ≤ depth) :
    ((Statement.read depth).run (st.tokens ++ x)).answer = .ok st ∧
      ((Statement.read depth).run (st.tokens ++ x)).ahead = x := by
  change (Statement.read depth).Gives (st.tokens ++ x) st x
  have hx : x.Opens [] := .of_ended hx
  cases h with
  | @select w c os e withClause query =>
    have htokens : (Statement.select ⟨w, c, os, e⟩).tokens =
        Clause.optional w ++ (Select.mk none c os e).tokens := by
      change (Select.mk w c os e).tokens = _
      rw [Select.tokens_eq, Select.tokens_eq]
      simp [Clause.optional]
    rw [htokens, Token.opened_append] at hroom
    rw [htokens, List.append_assoc]
    refine Statement.gives_read withClause (by omega) ?_ (.select ?_)
    · exact (Ahead.Opens.of_atKeyword (query.atKeyword x)).mono (by decide)
    · exact query.gives_of_nested w (Select.readsNested 0 depth) (by omega) hx
  | @insert i h =>
    have main := h.gives 0 hroom hx
    simp only [Insert.tokens_eq, Token.opened_append, List.append_assoc] at hroom ⊢
    exact Statement.gives_read h.withClause (by omega) ((h.insert.opens _).mono (by decide))
      (.insert main)
  | @update u h =>
    have main := h.gives 0 hroom hx
    simp only [Update.tokens_eq, Token.opened_append, List.append_assoc] at hroom ⊢
    exact Statement.gives_read h.withClause (by omega) ((h.update.opens _).mono (by decide))
      (.update main)
  | @delete d h =>
    have main := h.gives 0 hroom hx
    simp only [Delete.tokens_eq, Token.opened_append, List.append_assoc] at hroom ⊢
    exact Statement.gives_read h.withClause (by omega) ((h.delete.opens _).mono (by decide))
      (.delete main)
  | @merge m h =>
    have main := h.gives 0 hroom hx
    simp only [Merge.tokens_eq, Token.opened_append, List.append_assoc] at hroom ⊢
    exact Statement.gives_read h.withClause (by omega) ((h.merge.opens _).mono (by decide))
      (.merge main)

/-- `SELECT a UNION (SELECT b)` takes the one level there is. -/
theorem parse_print_nestedUnion :
    let word (k : Keyword) (start : Nat) : Token := ⟨.keyword k, start, k.spelling.toList⟩
    let name (c : Char) (start : Nat) : Token := ⟨.identifier, start, [c]⟩
    let st := Statement.select ⟨none, { select := ⟨.select, word .select 0, [name 'a' 7]⟩ },
      [⟨⟨.setOperator, word .union 9, [⟨.punctuation .openParen, 15, ['(']⟩]⟩,
        .ofCore { select := ⟨.select, word .select 16,
          [name 'b' 23, ⟨.punctuation .closeParen, 24, [')']⟩]⟩ }⟩], {}⟩
    let semicolon : Token := ⟨.punctuation .semicolon, 25, [';']⟩
    ((Statement.read 1).run (st.tokens ++ [semicolon])).answer = .ok st ∧
      ((Statement.read 1).run (st.tokens ++ [semicolon])).ahead = [semicolon] := by
  intro word name st semicolon
  have fits (kind : ClauseKind) : Clause.Fits kind none := by simp [Clause.Fits]
  have core (start : Nat) (c : Char) (place : Nat) :
      Core.Grammatical { select := ⟨.select, word .select start, [name c place]⟩ } := by
    have body : Clause.Body (Select.readNested 0 0) .select {} [name c place] [name c place]
        { target := true } [] :=
      .step rfl (Clause.gives_piece.mpr (.token rfl)) (.done fun _ h => nomatch h)
    have second : (Clause.second .select).Gives [name c place] [] [name c place] :=
      gives_pure.mpr ⟨rfl, rfl⟩
    exact ⟨⟨0, 0, _, .mk rfl second body, rfl, rfl⟩, fits _, fits _, fits _, fits _, fits _⟩
  have ending : Ending.Grammatical {} := ⟨fits _, fits _, fits _⟩
  have operator : Clause.Closed .setOperator ⟨.setOperator, word .union 9, []⟩ := by
    have body : Clause.Body (Select.readNested 0 0) .setOperator {} [] [] {} [] :=
      .done fun _ h => nomatch h
    have second : (Clause.second .setOperator).Gives [] [] [] := gives_pure.mpr ⟨rfl, rfl⟩
    exact ⟨0, 0, {}, .mk rfl second body, rfl, rfl⟩
  have st_grammatical : st.Grammatical := by
    refine .select (fits _) (.mk (core 0 'a' 7) ?_ ending)
    exact .parens operator rfl (.mk (core 16 'b' 23) .nil ending) rfl .nil
  refine parse_print 1 st [semicolon] st_grammatical ?_ (by decide)
  intro t ht
  cases ht
  rfl

end SqlOutline
