import SqlOutline.Proofs.Gives

namespace SqlOutline
open Parse

theorem Ahead.atKeyword_eq_false_iff {s : Ahead} {ks : List Keyword} :
    s.atKeyword ks = false ↔ ∀ t ∈ s.head?, t.isOneOf ks = false := by
  cases s <;> simp [atKeyword]

namespace Clause

/-- How a clause goes on from one of its tokens: what that brings with it, and where the reader
stands afterwards. Of a query in parentheses only one that reaches its closing parenthesis leaves
the place as it was. -/
inductive Piece (sub : Parse Select) (scope : Scope) (t : Token) :
    Ahead → List Token → Scope → Ahead → Prop where
  | token {s : Ahead} (single : t.isPunctuation .openParen = false) :
      Piece sub scope t s [t] (scope.after t) s
  | query {s r : Ahead} {q : Select} {close : Token} (opening : t.isPunctuation .openParen = true)
      (select : Ahead.atKeyword [.select] (s.dropWhile Token.isTrivia) = true)
      (inner : sub.Gives (s.dropWhile Token.isTrivia) q (close :: r))
      (closing : close.isPunctuation .closeParen = true) :
      Piece sub scope t s (t :: s.takeWhile Token.isTrivia ++ q.tokens ++ [close]) scope r
  | cut {s r : Ahead} {q : Select} (opening : t.isPunctuation .openParen = true)
      (select : Ahead.atKeyword [.select] (s.dropWhile Token.isTrivia) = true)
      (inner : sub.Gives (s.dropWhile Token.isTrivia) q r)
      (missing : ∀ u ∈ r.head?, u.isPunctuation .closeParen = false) :
      Piece sub scope t s (t :: s.takeWhile Token.isTrivia ++ q.tokens) (scope.after t) r
  | group {s : Ahead} (opening : t.isPunctuation .openParen = true)
      (other : Ahead.atKeyword [.select] (s.dropWhile Token.isTrivia) = false) :
      Piece sub scope t s (t :: s.takeWhile Token.isTrivia) (scope.after t)
        (s.dropWhile Token.isTrivia)

theorem gives_piece {sub : Parse Select} {scope scope' : Scope} {t : Token} {s r : Ahead}
    {ts : List Token} :
    (piece sub scope t).Gives s (ts, scope') r ↔ Piece sub scope t s ts scope' r := by
  unfold piece
  cases ho : t.isPunctuation .openParen with
  | false =>
    simp only [Bool.false_eq_true, ↓reduceIte, gives_pure, Prod.mk.injEq]
    constructor
    · intro h
      obtain ⟨⟨rfl, rfl⟩, rfl⟩ := h
      exact .token ho
    · intro h
      cases h with
      | token => exact ⟨⟨rfl, rfl⟩, rfl⟩
      | query opening | cut opening | group opening => rw [ho] at opening; contradiction
  | true =>
    simp only [↓reduceIte, group, gives_bind, gives_trivia, gives_atKeyword]
    constructor
    · intro h
      obtain ⟨gap, m, ⟨rfl, rfl⟩, b, m', ⟨hb, rfl⟩, h⟩ := h
      cases b with
      | false =>
        obtain ⟨he, rfl⟩ := gives_pure.mp h
        cases he
        exact .group ho hb.symm
      | true =>
        obtain ⟨q, m, hq, close, m', hc, h⟩ := by simpa only [↓reduceIte, gives_bind] using h
        rcases gives_take?.mp hc with ⟨u, rfl, rfl, hu⟩ | ⟨rfl, rfl, hn⟩
        · obtain ⟨he, rfl⟩ := gives_pure.mp h
          cases he
          exact .query ho hb.symm hq hu
        · obtain ⟨he, rfl⟩ := gives_pure.mp h
          cases he
          exact .cut ho hb.symm hq hn
    · intro h
      refine ⟨_, _, ⟨rfl, rfl⟩, _, _, ⟨rfl, rfl⟩, ?_⟩
      cases h with
      | token single => rw [ho] at single; contradiction
      | query _ select inner closing =>
        rw [select]
        apply inner.bind
        apply Gives.bind (gives_take?.mpr (.inl ⟨_, rfl, rfl, closing⟩))
        exact gives_pure.mpr ⟨rfl, rfl⟩
      | cut _ select inner missing =>
        rw [select]
        apply inner.bind
        apply Gives.bind (gives_take?.mpr (.inr ⟨rfl, rfl, missing⟩))
        exact gives_pure.mpr ⟨rfl, rfl⟩
      | group _ other =>
        rw [other]
        exact gives_pure.mpr ⟨rfl, rfl⟩

/-- The body of a clause from some place on, with the place where it ends. -/
abbrev Body (sub : Parse Select) (kind : ClauseKind) :
    Scope → Ahead → List Token → Scope → Ahead → Prop :=
  Collects kind.rule.stops (piece sub)

/-- A clause at the front of the tokens, with the place where its reader comes to a stop. -/
inductive Scan (sub : Parse Select) (kind : ClauseKind) :
    Ahead → Clause → Scope → Ahead → Prop where
  | mk {lead : Token} {s m r : Ahead} {second body : List Token} {scope : Scope}
      (leading : lead.isOneOf kind.rule.leading = true)
      (next : (Clause.second kind).Gives s second m) (rest : Body sub kind {} m body scope r) :
      Scan sub kind (lead :: s) ⟨kind, lead, second ++ body⟩ scope r

theorem gives_second {kind : ClauseKind} {s r : Ahead} {ts : List Token} :
    (second kind).Gives s ts r ↔
      (kind.rule.second = none ∧ ts = [] ∧ r = s) ∨
        ∃ k t, kind.rule.second = some k ∧ s.dropWhile Token.isTrivia = t :: r ∧
          t.isKeyword k = true ∧ ts = s.takeWhile Token.isTrivia ++ [t] := by
  unfold second
  cases kind.rule.second with
  | none => simp
  | some k =>
    simp only [gives_bind, gives_trivia, gives_expect, gives_pure, reduceCtorEq, false_and,
      Option.some.injEq, false_or]
    constructor
    · intro h
      obtain ⟨gap, m, ⟨rfl, rfl⟩, t, m', ⟨ht, hk⟩, rfl, rfl⟩ := h
      exact ⟨k, t, rfl, ht, hk, rfl⟩
    · intro h
      obtain ⟨k', t, rfl, ht, hk, rfl⟩ := h
      exact ⟨_, _, ⟨rfl, rfl⟩, t, r, ⟨ht, hk⟩, rfl, rfl⟩

theorem gives_following {sub : Parse Select} {kind : ClauseKind} {lead : Token} {s r : Ahead}
    {c : Clause} (hl : lead.isOneOf kind.rule.leading = true) :
    (following sub kind lead).Gives s c r ↔ ∃ scope, Scan sub kind (lead :: s) c scope r := by
  simp only [following, gives_bind, gives_pure]
  constructor
  · intro h
    obtain ⟨second, m, hs, ⟨body, scope⟩, m', hb, rfl, rfl⟩ := h
    exact ⟨scope, .mk hl hs (gives_collect.mp hb)⟩
  · intro h
    obtain ⟨scope, hc⟩ := h
    cases hc with
    | mk _ hs hb => exact ⟨_, _, hs, _, _, gives_collect.mpr hb, rfl, rfl⟩

end Clause

namespace Parse
open Clause

variable {α : Type} {sub : Parse Select} {kind : ClauseKind} {s r : Ahead}

@[simp] theorem gives_clause {c : Clause} :
    (clause sub kind).Gives s c r ↔ ∃ scope, Scan sub kind s c scope r := by
  simp only [clause, gives_bind, gives_expect]
  constructor
  · intro h
    obtain ⟨lead, m, ⟨rfl, hl⟩, h⟩ := h
    exact (gives_following hl).mp h
  · intro h
    obtain ⟨scope, hc⟩ := h
    cases hc with
    | mk hl hs hb => exact ⟨_, _, ⟨rfl, hl⟩, (gives_following hl).mpr ⟨scope, .mk hl hs hb⟩⟩

@[simp] theorem gives_clause? {c : Option Clause} :
    (clause? sub kind).Gives s c r ↔
      (∃ d scope, c = some d ∧ Scan sub kind s d scope r) ∨
        c = none ∧ r = s ∧ s.atKeyword kind.rule.leading = false := by
  simp only [clause?, gives_bind, gives_take?]
  constructor
  · intro h
    rcases h with ⟨t, m, ⟨lead, rfl, rfl, hl⟩ | ⟨rfl, rfl, hn⟩, h⟩
    · obtain ⟨d, m', hd, rfl, rfl⟩ := by simpa only [gives_bind, gives_pure] using h
      obtain ⟨scope, hd⟩ := (gives_following hl).mp hd
      exact .inl ⟨d, scope, rfl, hd⟩
    · obtain ⟨rfl, rfl⟩ := gives_pure.mp h
      exact .inr ⟨rfl, rfl, Ahead.atKeyword_eq_false_iff.mpr hn⟩
  · intro h
    rcases h with ⟨d, scope, rfl, hd⟩ | ⟨rfl, rfl, hn⟩
    · cases hd with
      | @mk lead s' _ _ second body _ hl hs hb =>
        have hc := (gives_following hl).mpr ⟨scope, .mk hl hs hb⟩
        refine ⟨some lead, s', .inl ⟨lead, rfl, rfl, hl⟩, ?_⟩
        apply hc.bind
        exact gives_pure.mpr ⟨rfl, rfl⟩
    · have hn := Ahead.atKeyword_eq_false_iff.mp hn
      exact ⟨none, r, .inr ⟨rfl, rfl, hn⟩, gives_pure.mpr ⟨rfl, rfl⟩⟩

/-- Items after keywords, one at a time. -/
inductive Items (ks : List Keyword) (item : Token → Parse α) : Ahead → List α → Ahead → Prop where
  | done {s : Ahead} (stop : s.atKeyword ks = false) : Items ks item s [] s
  | step {t : Token} {s m r : Ahead} {x : α} {xs : List α} (lead : t.isOneOf ks = true)
      (first : (item t).Gives s x m) (rest : Items ks item m xs r) :
      Items ks item (t :: s) (x :: xs) r

theorem gives_each {ks : List Keyword} {item : Token → Parse α} {xs : List α} :
    (each ks item).Gives s xs r ↔ Items ks item s xs r := by
  simp only [each, gives_bind, gives_pure]
  constructor
  · intro h
    obtain ⟨⟨ys, u⟩, m, h, rfl, rfl⟩ := h
    generalize hst : () = st at h
    replace h := gives_collect.mp h
    clear hst
    induction h with
    | done stop => exact .done (Ahead.atKeyword_eq_false_iff.mpr (by simpa using stop))
    | step go first _ ih =>
      obtain ⟨x, m, hx, he, rfl⟩ := by simpa only [gives_bind, gives_pure] using first
      cases he
      exact .step (by simpa using go) hx ih
  · intro h
    refine ⟨(xs, ()), r, gives_collect.mpr ?_, rfl, rfl⟩
    induction h with
    | done stop => exact .done (by simpa using Ahead.atKeyword_eq_false_iff.mp stop)
    | @step t s m r x xs lead first _ ih =>
      change Collects _ _ () (t :: s) ([x] ++ xs) () r
      refine .step (by simpa using lead) ?_ ih
      apply first.bind
      exact gives_pure.mpr ⟨rfl, rfl⟩

end Parse

end SqlOutline
