import SqlOutline.Proofs.Grammatical
import SqlOutline.Proofs.StatementSegments

namespace SqlOutline
open Parse

namespace Token

/-- The keyword that the token is. A connective is none. -/
def word? (t : Token) : Option Keyword :=
  match t.kind with
  | .keyword k => some k
  | _ => none

/-- The tokens end inside a SELECT in parentheses. -/
def inSelect : List Token → Bool
  | [] => false
  | paren :: ts =>
    (paren.isPunctuation .openParen && Ahead.atKeyword [.select] (ts.dropWhile isTrivia) &&
      (level 0 ts).isSome) || inSelect ts

/-- No SELECT in parentheses holds a CASE or an END. -/
def CaseFree (ts : List Token) : Prop :=
  ∀ i : Fin ts.length, ts[i].isOneOf [.case, .end] = true → inSelect (ts.take i) = false

instance (ts : List Token) : Decidable (CaseFree ts) :=
  inferInstanceAs (Decidable (∀ _ : Fin _, _ → _))

theorem isTrivia_of_isOneOf {t : Token} {ks : List Keyword} (h : t.isOneOf ks = true) :
    t.isTrivia = false := by
  obtain ⟨k, -, hk⟩ := kind_of_isOneOf h
  simp [isTrivia, hk, Kind.isTrivia, Kind.isComment]

theorem inSelect_append {ts us : List Token} (h : inSelect us = true) :
    inSelect (ts ++ us) = true := by
  induction ts with
  | nil => exact h
  | cons t ts ih => simp [inSelect, ih]

namespace CaseFree

variable {ts us : List Token}

theorem not_inSelect {front back : List Token} {t : Token} (h : CaseFree (front ++ t :: back))
    (ht : t.isOneOf [.case, .end] = true) : inSelect front = false := by
  simpa [ht] using h ⟨front.length, by simp⟩

theorem left (h : CaseFree (ts ++ us)) : CaseFree ts := by
  intro i ht
  have hi := i.isLt
  have hfree := h ⟨i, by rw [List.length_append]; omega⟩
  simp only [Fin.getElem_fin, List.getElem_append_left hi,
    List.take_append_of_le_length (Nat.le_of_lt hi)] at hfree ht
  exact hfree ht

theorem right (h : CaseFree (ts ++ us)) : CaseFree us := by
  intro i ht
  have hi := i.isLt
  have hfree := h ⟨ts.length + i, by rw [List.length_append]; omega⟩
  simp only [Fin.getElem_fin, List.take_length_add_append,
    List.getElem_append_right (Nat.le_add_right _ _), Nat.add_sub_cancel_left] at hfree ht
  refine Bool.eq_false_iff.mpr fun hin => ?_
  have := hfree ht
  rw [inSelect_append hin] at this
  contradiction

end CaseFree

end Token

/-- Parentheses, CASE blocks and names are counted each on their own. -/
theorem Scope.after_eq (scope : Scope) (t : Token) :
    scope.after t =
      { parens :=
          if t.isPunctuation .openParen then scope.parens + 1
          else if t.isPunctuation .closeParen then scope.parens - 1
          else scope.parens
        cases :=
          if t.isKeyword .case then scope.cases + 1
          else if t.isKeyword .end then scope.cases - 1
          else scope.cases
        target := scope.target || (t.isName && scope.parens = 0) } := by
  obtain ⟨parens, cases, target⟩ := scope
  cases hk : t.kind with
  | punctuation p =>
    cases p <;> simp [after, Token.isPunctuation, Token.isKeyword, Token.isName, hk]
  | keyword k =>
    by_cases hc : k = .case
    · simp [after, Token.isPunctuation, Token.isKeyword, Token.isName, hk, hc]
    by_cases he : k = .end
    · simp [after, Token.isPunctuation, Token.isKeyword, Token.isName, hk, he]
    · simp [after, Token.isPunctuation, Token.isKeyword, Token.isName, hk, hc, he]
  | _ => simp [after, Token.isPunctuation, Token.isKeyword, Token.isName, hk]

theorem Scope.after_open {t : Token} (h : t.isPunctuation .openParen = true) (scope : Scope) :
    scope.after t = { scope with parens := scope.parens + 1 } := by
  have hk : t.kind = .punctuation .openParen := by simpa [Token.isPunctuation] using h
  simp [after, hk]

namespace ClauseRule

/-- Whether counting alone ends a clause before the token, `n` parentheses and `c` CASE blocks being
open. -/
def halts (rule : ClauseRule) (n c : Nat) (target : Bool) (t : Token) : Bool :=
  t.isPunctuation .semicolon || (t.isPunctuation .closeParen && n = 0) ||
    (t.word?.any (!rule.permits target ·) && n = 0 && c = 0) ||
    (rule.keywordsOnly && !t.isTrivia && !t.word?.any (rule.permits target ·))

/-- The rest of a clause by counting alone, and what is left behind it. Nothing in the parentheses
is looked into. -/
def sweep (rule : ClauseRule) : (n c : Nat) → (target : Bool) → List Token → List Token × Ahead
  | _, _, _, [] => ([], [])
  | n, c, target, t :: ts =>
    if rule.halts n c target t then ([], t :: ts)
    else
      let n' :=
        if t.isPunctuation .openParen then n + 1
        else if t.isPunctuation .closeParen then n - 1
        else n
      let c' := if t.isKeyword .case then c + 1 else if t.isKeyword .end then c - 1 else c
      let (taken, rest) := rule.sweep n' c' (target || (t.isName && n = 0)) ts
      (t :: taken, rest)

/-- The keywords that a clause starts with, and what stands between them. -/
def opening (rule : ClauseRule) : Ahead → Option (List Token × Ahead)
  | [] => none
  | lead :: s =>
    if lead.isOneOf rule.leading then
      match rule.second, s.dropWhile Token.isTrivia with
      | none, _ => some ([lead], s)
      | some _, [] => none
      | some k, second :: r =>
        if second.isKeyword k then some (lead :: s.takeWhile Token.isTrivia ++ [second], r)
        else none
    else none

/-- A whole clause by counting alone, and what is left behind it. -/
def flat (rule : ClauseRule) (s : Ahead) : Option (List Token × Ahead) := do
  let (front, s) ← rule.opening s
  let (taken, rest) := rule.sweep 0 0 false s
  return (front ++ taken, rest)

theorem halts_eq_stops (rule : ClauseRule) (scope : Scope) (t : Token) :
    rule.halts scope.parens scope.cases scope.target t = rule.stops scope t := by
  unfold halts stops
  cases hk : t.kind with
  | keyword k =>
    simp only [Token.isPunctuation, Token.word?, Token.isTrivia, hk, Kind.isTrivia, Kind.isComment]
    grind
  | punctuation p =>
    cases p <;>
      simp [Token.isPunctuation, Token.word?, Token.isTrivia, hk, Kind.isTrivia, Kind.isComment,
        Bool.or_comm]
  | _ => simp [Token.isPunctuation, Token.word?, Token.isTrivia, hk]

/-- A clause goes on over all of the tokens, from one place to another. -/
def Passes (rule : ClauseRule) : Scope → List Token → Scope → Prop
  | scope, [], scope' => scope' = scope
  | scope, t :: ts, scope' => rule.stops scope t = false ∧ rule.Passes (scope.after t) ts scope'

namespace Passes

variable {rule : ClauseRule} {scope scope' scope'' : Scope} {ts us : List Token} {r : Ahead}

theorem trans (h : rule.Passes scope ts scope') (h' : rule.Passes scope' us scope'') :
    rule.Passes scope (ts ++ us) scope'' := by
  induction ts generalizing scope with
  | nil =>
    obtain rfl : scope' = scope := h
    exact h'
  | cons t ts ih => exact ⟨h.1, ih h.2⟩

/-- Inside a parenthesis only a semicolon or a CASE is seen, besides further parentheses. -/
theorem inside {p k n : Nat} (hk : rule.keywordsOnly = false)
    (hs : ∀ t ∈ ts, t.isPunctuation .semicolon = false)
    (hc : ∀ t ∈ ts, t.isOneOf [.case, .end] = false) (hn : Token.level k ts = some n) :
    rule.Passes { scope with parens := p + 1 + k } ts { scope with parens := p + 1 + n } := by
  induction ts generalizing k with
  | nil =>
    cases hn
    rfl
  | cons t ts ih =>
    have hst := hs t List.mem_cons_self
    have hct := hc t List.mem_cons_self
    have hrest {k : Nat} := @ih k (fun u hu => hs u (List.mem_cons_of_mem _ hu))
      (fun u hu => hc u (List.mem_cons_of_mem _ hu))
    have hgo : rule.stops { scope with parens := p + 1 + k } t = false :=
      Bool.eq_false_iff.mpr fun h => by
        rw [semicolon_of_stops h hk (by simp)] at hst
        contradiction
    refine ⟨hgo, ?_⟩
    simp only [Token.isOneOf, List.any_cons, List.any_nil, Bool.or_false,
      Bool.or_eq_false_iff] at hct
    simp only [Scope.after_eq, hct, Bool.false_eq_true, if_false]
    simp only [Token.level] at hn
    split at hn
    next ho => simpa [ho, Nat.add_assoc] using hrest hn
    next ho =>
      split at hn
      next hcl =>
        cases k with
        | zero => cases hn
        | succ k => simpa [ho, hcl] using hrest hn
      next hcl => simpa [ho, hcl] using hrest hn

theorem sweep (h : rule.Passes scope ts scope') (hr : ∀ t ∈ r.head?, rule.stops scope' t = true) :
    rule.sweep scope.parens scope.cases scope.target (ts ++ r) = (ts, r) := by
  induction ts generalizing scope with
  | nil =>
    obtain rfl : scope' = scope := h
    cases r with
    | nil => rfl
    | cons t r =>
      have ht := hr t rfl
      simp [ClauseRule.sweep, halts_eq_stops, ht]
  | cons t ts ih =>
    obtain ⟨hgo, h⟩ := h
    replace ih := ih h
    rw [Scope.after_eq] at ih
    simp only [List.cons_append, ClauseRule.sweep, halts_eq_stops, hgo, Bool.false_eq_true,
      if_false, ih]

end Passes

end ClauseRule

namespace Clause

variable {sub : Parse Select} {kind : ClauseKind} {scope scope' : Scope} {t : Token} {s r : Ahead}
  {ts : List Token}

theorem opening_eq {lead : Token} {m : Ahead} (leading : lead.isOneOf kind.rule.leading = true)
    (next : (second kind).Gives s ts m) :
    kind.rule.opening (lead :: s) = some (lead :: ts, m) := by
  rcases gives_second.mp next with ⟨hk, rfl, rfl⟩ | ⟨k, t, hk, hs, ht, rfl⟩
  · simp [ClauseRule.opening, leading, hk]
  · simp [ClauseRule.opening, leading, hk, hs, ht]

theorem gap_isOneOf (s : Ahead) :
    ∀ u ∈ s.takeWhile Token.isTrivia, ∀ ks, u.isOneOf ks = false := by
  intro u hu ks
  refine Bool.eq_false_iff.mpr fun h => ?_
  have := gap_isTrivia s u hu
  rw [Token.isTrivia_of_isOneOf h] at this
  contradiction

theorem not_isOneOf_of_caseFree {paren : Token} {gap : List Token} {n : Nat}
    (opening : paren.isPunctuation .openParen = true) (plain : ∀ u ∈ gap, u.isTrivia = true)
    (select : Ahead.atKeyword [.select] (ts ++ r) = true)
    (hn : Token.level 0 (gap ++ ts) = some n)
    (free : Token.CaseFree (paren :: gap ++ ts)) : ∀ u ∈ ts, u.isOneOf [.case, .end] = false := by
  intro u hu
  refine Bool.eq_false_iff.mpr fun hcase => ?_
  obtain ⟨mid, back, rfl⟩ := List.append_of_mem hu
  rw [← List.append_assoc] at free
  have hout := free.not_inSelect hcase
  cases mid with
  | nil =>
    obtain ⟨k, hk, hkind⟩ := Token.kind_of_isOneOf hcase
    obtain ⟨k', hk', hkind'⟩ := Token.kind_of_isOneOf (show u.isOneOf [.select] = true from select)
    simp_all
  | cons v mid =>
    have hv : v.isOneOf [.select] = true := select
    have hgap : (gap ++ v :: mid).dropWhile Token.isTrivia = v :: mid := by
      rw [List.dropWhile_append_of_pos plain,
        List.dropWhile_cons_of_neg (by simp [Token.isTrivia_of_isOneOf hv])]
    obtain ⟨k, hk⟩ := Token.level_of_prefix ⟨u :: back, List.append_assoc ..⟩ hn
    simp [Token.inSelect, opening, hgap, hk, Ahead.atKeyword, hv] at hout

/-- A query in parentheses is passed over up to where its reader stops. -/
theorem passes_query {q : Select} {n : Nat} (scope : Scope)
    (hread : Reads (s.dropWhile Token.isTrivia) q.tokens r) (go : kind.rule.stops scope t = false)
    (opening : t.isPunctuation .openParen = true)
    (select : Ahead.atKeyword [.select] (s.dropWhile Token.isTrivia) = true)
    (hn : Token.level 0 (s.takeWhile Token.isTrivia ++ q.tokens) = some n)
    (free : Token.CaseFree (t :: s.takeWhile Token.isTrivia ++ q.tokens)) :
    kind.rule.Passes scope (t :: s.takeWhile Token.isTrivia ++ q.tokens)
      { scope with parens := scope.parens + 1 + n } := by
  have hsemicolon : ∀ u ∈ s.takeWhile Token.isTrivia ++ q.tokens,
      u.isPunctuation .semicolon = false := by
    intro u hu
    rcases List.mem_append.mp hu with hu | hu
    · exact gap_plain s u hu _
    · exact hread.noSemicolon u hu
  have hcase : ∀ u ∈ s.takeWhile Token.isTrivia ++ q.tokens, u.isOneOf [.case, .end] = false := by
    intro u hu
    rcases List.mem_append.mp hu with hu | hu
    · exact gap_isOneOf s u hu _
    · rw [hread.split] at select
      exact not_isOneOf_of_caseFree opening (gap_isTrivia s) select hn free u hu
  refine ⟨go, ?_⟩
  rw [Scope.after_open opening]
  exact .inside (ClauseRule.not_keywordsOnly_of_open opening go) hsemicolon hcase hn

/-- Only trivia stand between an opening parenthesis and what is no query. -/
theorem passes_gap (opening : t.isPunctuation .openParen = true)
    (go : kind.rule.stops scope t = false) (s : Ahead) :
    kind.rule.Passes scope (t :: s.takeWhile Token.isTrivia) (scope.after t) := by
  have gap := gap_plain s
  refine ⟨go, ?_⟩
  rw [Scope.after_open opening]
  exact .inside (ClauseRule.not_keywordsOnly_of_open opening go) (fun u hu => gap u hu _)
    (fun u hu => gap_isOneOf s u hu _) (Token.level_of_plain 0 gap)

theorem Piece.passes (h : Piece sub scope t s ts scope' r) (hsub : sub.Segments Select.tokens)
    (go : kind.rule.stops scope t = false) (free : Token.CaseFree ts) :
    ∃ place, kind.rule.Passes scope ts place ∧ (place = scope' ∨ r.Ended) := by
  cases h with
  | token single => exact ⟨_, ⟨go, rfl⟩, .inl rfl⟩
  | @query _ q close opening select inner closing =>
    have hn := level_gap_of_close (hsub inner) closing
    have hpass := passes_query scope (hsub inner) go opening select hn free.left
    refine ⟨scope, hpass.trans ⟨?_, ?_⟩, .inl rfl⟩
    · refine Bool.eq_false_iff.mpr fun h => ?_
      have hk := ClauseRule.not_keywordsOnly_of_open opening go
      have := ClauseRule.semicolon_of_stops h hk (by simp)
      simp_all [Token.isPunctuation]
    · have hk : close.kind = .punctuation .closeParen := by
        simpa [Token.isPunctuation] using closing
      simp [ClauseRule.Passes, Scope.after, hk]
  | @cut _ q opening select inner missing =>
    obtain ⟨n, hn, hz⟩ := level_gap (hsub inner)
    refine ⟨_, passes_query scope (hsub inner) go opening select hn free, hz.imp_left ?_⟩
    rintro rfl
    exact (Scope.after_open opening scope).symm
  | group opening other => exact ⟨_, passes_gap opening go s, .inl rfl⟩

/-- The reader of a clause and counting alone come to the same end. -/
theorem Body.passes {body : List Token} (h : Body sub kind scope s body scope' r)
    (hsub : sub.Segments Select.tokens) (free : Token.CaseFree body) :
    ∃ place, kind.rule.Passes scope body place ∧
      ∀ t ∈ r.head?, kind.rule.stops place t = true := by
  induction h with
  | @done st s stop => exact ⟨st, rfl, stop⟩
  | @step st st' st'' t s m r xs ys go first rest ih =>
    obtain ⟨place, hplace, hm⟩ := (gives_piece.mp first).passes hsub go free.left
    rcases hm with rfl | hm
    · obtain ⟨last, hlast, stop⟩ := ih free.right
      exact ⟨last, hplace.trans hlast, stop⟩
    · -- The statement ends here, so both end.
      obtain ⟨rfl, rfl⟩ := Body.eq_nil_of_ended rest hm
      rw [List.append_nil]
      exact ⟨place, hplace, fun t ht => ClauseRule.stops_semicolon (hm t ht) _ _⟩

end Clause

/-- The reader of a clause goes into the queries in parentheses, whatever becomes of them there. Yet
it ends just where counting ends that looks into no parenthesis, unless a query in parentheses holds
a CASE or an END, which only counting sees. -/
theorem clause_eq_flat (kind : ClauseKind) (depth room : Nat) (s : Ahead) (c : Clause) (r : Ahead)
    (h : (clause (Select.readNested depth room) kind).Gives s c r)
    (free : Token.CaseFree c.tokens) : kind.rule.flat s = some (c.tokens, r) := by
  have hsub := Parse.Segments.readNested depth room
  obtain ⟨scope, h⟩ := gives_clause.mp h
  cases h with
  | @mk lead s m _ second body _ leading next rest =>
    have hbody : Token.CaseFree body := by
      rw [Clause.tokens, ← List.cons_append] at free
      exact free.right
    obtain ⟨place, hplace, stop⟩ := rest.passes hsub hbody
    have hsweep : kind.rule.sweep 0 0 false m = (body, r) := by
      rw [(rest.part hsub).split]
      exact hplace.sweep stop
    have hopening := Clause.opening_eq leading next
    simp [ClauseRule.flat, hopening, hsweep, Clause.tokens]

/-- The query stops at the UPDATE and leaves the closing parenthesis to the clause. The CASE block
stands behind it. -/
theorem clause_eq_flat_cut :
    let c : Clause := ⟨.where, ⟨.keyword .where, 0, "WHERE".toList⟩,
      [⟨.identifier, 6, ['a']⟩, ⟨.operator, 7, ['=']⟩, ⟨.punctuation .openParen, 8, ['(']⟩,
        ⟨.keyword .select, 9, "SELECT".toList⟩, ⟨.identifier, 16, ['b']⟩,
        ⟨.keyword .update, 18, "UPDATE".toList⟩, ⟨.identifier, 25, ['c']⟩,
        ⟨.punctuation .closeParen, 26, [')']⟩, ⟨.operator, 27, ['+']⟩,
        ⟨.keyword .case, 28, "CASE".toList⟩, ⟨.keyword .end, 33, "END".toList⟩]⟩
    let r : Ahead := [⟨.keyword .update, 37, "UPDATE".toList⟩]
    (clause (Select.readNested 0 1) .where).Gives (c.tokens ++ r) c r ∧ Token.CaseFree c.tokens ∧
      ClauseKind.where.rule.flat (c.tokens ++ r) = some (c.tokens, r) := by
  intro c r
  have h : (clause (Select.readNested 0 1) .where).Gives (c.tokens ++ r) c r := by decide +kernel
  have free : Token.CaseFree c.tokens := by decide
  exact ⟨h, free, clause_eq_flat .where 0 1 _ c r h free⟩

end SqlOutline
