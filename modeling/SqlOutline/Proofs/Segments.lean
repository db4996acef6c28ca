import SqlOutline.Proofs.Scan

namespace SqlOutline
open Parse

namespace Token

theorem isPunctuation_of_isTrivia {t : Token} (h : t.isTrivia = true) (p : Punctuation) :
    t.isPunctuation p = false := by
  cases hk : t.kind <;> simp_all [isTrivia, isPunctuation, Kind.isTrivia, Kind.isComment]

theorem kind_of_isOneOf {t : Token} {ks : List Keyword} (h : t.isOneOf ks = true) :
    ∃ k ∈ ks, t.kind = .keyword k := by
  simpa [isOneOf, isKeyword] using h

theorem isPunctuation_of_isOneOf {t : Token} {ks : List Keyword} (h : t.isOneOf ks = true)
    (p : Punctuation) : t.isPunctuation p = false := by
  obtain ⟨k, -, hk⟩ := kind_of_isOneOf h
  simp [isPunctuation, hk]

theorem isTrivia_of_isPunctuation {t : Token} {p : Punctuation}
    (h : t.isPunctuation p = true) : t.isTrivia = false := by
  simp_all [isTrivia, isPunctuation, Kind.isTrivia, Kind.isComment]

/-- How many parentheses are open after the tokens when `n` are before them. There is no answer
where one closes that was never opened. -/
def level : Nat → List Token → Option Nat
  | n, [] => some n
  | n, t :: ts =>
    if t.isPunctuation .openParen then level (n + 1) ts
    else if t.isPunctuation .closeParen then
      match n with
      | 0 => none
      | n + 1 => level n ts
    else level n ts

theorem level_append (n : Nat) (ts us : List Token) :
    level n (ts ++ us) = (level n ts).bind fun m => level m us := by
  induction ts generalizing n with
  | nil => rfl
  | cons t ts ih =>
    simp only [List.cons_append, level, ih]
    split
    · rfl
    · split
      · cases n <;> rfl
      · rfl

theorem level_of_prefix {us vs : List Token} {n k : Nat} (h : vs <+: us)
    (hk : level n us = some k) : ∃ m, level n vs = some m := by
  obtain ⟨ws, rfl⟩ := h
  rw [level_append] at hk
  obtain ⟨m, hm, -⟩ := Option.bind_eq_some_iff.mp hk
  exact ⟨m, hm⟩

/-- More open parentheses around the tokens change nothing between them. -/
theorem level_add {n m : Nat} {ts : List Token} (h : level n ts = some m) (k : Nat) :
    level (n + k) ts = some (m + k) := by
  induction ts generalizing n with
  | nil => simp_all [level]
  | cons t ts ih =>
    simp only [level] at h ⊢
    split at h
    · rw [if_pos ‹_›, Nat.add_right_comm]
      exact ih h
    · rw [if_neg ‹_›]
      split at h
      · rw [if_pos ‹_›]
        cases n with
        | zero => cases h
        | succ n =>
          rw [Nat.add_right_comm]
          exact ih h
      · rw [if_neg ‹_›]
        exact ih h

theorem level_of_plain {ts : List Token} (n : Nat)
    (h : ∀ t ∈ ts, ∀ p, t.isPunctuation p = false) : level n ts = some n := by
  induction ts with
  | nil => rfl
  | cons t ts ih =>
    have ht := h t List.mem_cons_self
    simp only [level, ht, Bool.false_eq_true, ↓reduceIte]
    exact ih fun u hu => h u (List.mem_cons_of_mem _ hu)

end Token

/-- Nothing is left, or a semicolon stands next. -/
def Ahead.Ended (s : Ahead) : Prop :=
  ∀ t ∈ s.head?, t.isPunctuation .semicolon = true

theorem Ahead.Ended.nil : Ahead.Ended [] := by
  simp [Ended]

/-- From `s` whole clauses were read that hold the tokens `ts`, and `r` is left. No token gets lost,
no semicolon is swallowed, trivia never stay behind, and only the end of the statement can leave a
parenthesis open. -/
structure Reads (s : Ahead) (ts : List Token) (r : Ahead) : Prop where
  split : s = ts ++ r
  noSemicolon : ∀ t ∈ ts, t.isPunctuation .semicolon = false
  settled : ts = [] ∨ ∀ t ∈ r.head?, t.isTrivia = false
  nested : ∃ n, Token.level 0 ts = some n ∧ (n = 0 ∨ r.Ended)

namespace Reads

variable {s m r : Ahead} {ts us : List Token}

theorem nil (s : Ahead) : Reads s [] s :=
  ⟨rfl, by simp, .inl rfl, 0, rfl, .inl rfl⟩

/-- Nothing is read where the statement has ended. -/
theorem eq_nil_of_ended (h : Reads s ts r) (he : s.Ended) : ts = [] := by
  cases ts with
  | nil => rfl
  | cons t ts =>
    have hs := he t (by simp [h.split])
    rw [h.noSemicolon t List.mem_cons_self] at hs
    contradiction

theorem trans (h : Reads s ts m) (h' : Reads m us r) : Reads s (ts ++ us) r := by
  refine ⟨by rw [h.split, h'.split, List.append_assoc], ?_, ?_, ?_⟩
  · intro t ht
    rcases List.mem_append.mp ht with ht | ht
    · exact h.noSemicolon t ht
    · exact h'.noSemicolon t ht
  · rcases h'.settled with rfl | hr
    · have hm := h'.split
      rw [List.nil_append] at hm
      subst hm
      simpa using h.settled
    · exact .inr hr
  · obtain ⟨n, hn, hz⟩ := h.nested
    obtain ⟨k, hk, hz'⟩ := h'.nested
    rcases hz with rfl | he
    · exact ⟨k, by rw [Token.level_append, hn]; exact hk, hz'⟩
    · obtain rfl := h'.eq_nil_of_ended he
      have hm := h'.split
      rw [List.nil_append] at hm
      subst hm
      exact ⟨n, by simpa using hn, .inr he⟩

end Reads

/-- Whatever the parse succeeds with has read its own tokens. -/
def Parse.Segments {α : Type} (p : Parse α) (tokens : α → List Token) : Prop :=
  ∀ ⦃s : Ahead⦄ ⦃a : α⦄ ⦃r : Ahead⦄, p.Gives s a r → Reads s (tokens a) r

namespace Scope

theorem parens_after_open {t : Token} (h : t.isPunctuation .openParen = true) (scope : Scope) :
    (scope.after t).parens = scope.parens + 1 := by
  simp_all [after, Token.isPunctuation]

theorem parens_after_close {t : Token} (h : t.isPunctuation .closeParen = true) (scope : Scope) :
    (scope.after t).parens = scope.parens - 1 := by
  simp_all [after, Token.isPunctuation]

theorem parens_after {t : Token} (ho : t.isPunctuation .openParen = false)
    (hc : t.isPunctuation .closeParen = false) (scope : Scope) :
    (scope.after t).parens = scope.parens := by
  unfold after
  split <;> simp_all [Token.isPunctuation]

end Scope

namespace ClauseRule

theorem stops_semicolon {t : Token} (h : t.isPunctuation .semicolon = true) (rule : ClauseRule)
    (scope : Scope) : rule.stops scope t = true := by
  simp_all [stops, Token.isPunctuation]

theorem parens_pos_of_close {rule : ClauseRule} {scope : Scope} {t : Token}
    (h : t.isPunctuation .closeParen = true) (go : rule.stops scope t = false) :
    0 < scope.parens := by
  simp_all [stops, Token.isPunctuation, Nat.pos_iff_ne_zero]

theorem not_keywordsOnly_of_open {rule : ClauseRule} {scope : Scope} {t : Token}
    (h : t.isPunctuation .openParen = true) (go : rule.stops scope t = false) :
    rule.keywordsOnly = false := by
  simp_all [stops, Token.isPunctuation, Kind.isTrivia, Kind.isComment]

theorem not_keywordsOnly_of_close {rule : ClauseRule} {scope : Scope} {t : Token}
    (h : t.isPunctuation .closeParen = true) (go : rule.stops scope t = false) :
    rule.keywordsOnly = false := by
  simp_all [stops, Token.isPunctuation]

/-- No clause ends before whitespace or a comment. -/
theorem not_isTrivia_of_stops {rule : ClauseRule} {scope : Scope} {t : Token}
    (h : rule.stops scope t = true) : t.isTrivia = false := by
  unfold stops at h
  split at h <;> simp_all [Token.isTrivia, Kind.isTrivia, Kind.isComment]

/-- Only a semicolon ends a clause inside its own parentheses. -/
theorem semicolon_of_stops {rule : ClauseRule} {scope : Scope} {t : Token}
    (h : rule.stops scope t = true) (hk : rule.keywordsOnly = false) (hp : scope.parens ≠ 0) :
    t.isPunctuation .semicolon = true := by
  unfold stops at h
  split at h <;> simp_all [Token.isPunctuation]

end ClauseRule

namespace Clause

variable {sub : Parse Select} {kind : ClauseKind} {scope scope' : Scope} {s r : Ahead}

/-- What part of a clause has read: its tokens, none of them a semicolon, with as many parentheses
open behind them as the reader knows of, save where the statement ends within a query. -/
structure Part (scope : Scope) (s : Ahead) (ts : List Token) (scope' : Scope) (r : Ahead) :
    Prop where
  split : s = ts ++ r
  noSemicolon : ∀ t ∈ ts, t.isPunctuation .semicolon = false
  nested : ∃ n, Token.level scope.parens ts = some n ∧ (n = scope'.parens ∨ r.Ended)

theorem gap_isTrivia (s : Ahead) : ∀ t ∈ s.takeWhile Token.isTrivia, t.isTrivia = true :=
  List.all_eq_true.mp List.all_takeWhile

theorem gap_plain (s : Ahead) :
    ∀ t ∈ s.takeWhile Token.isTrivia, ∀ p, t.isPunctuation p = false := fun t ht =>
  Token.isPunctuation_of_isTrivia (gap_isTrivia s t ht)

/-- Only the end of the statement leaves a parenthesis open that is opened inside another. -/
theorem level_gap {ts : List Token} (h : Reads (s.dropWhile Token.isTrivia) ts r) :
    ∃ n, Token.level 0 (s.takeWhile Token.isTrivia ++ ts) = some n ∧ (n = 0 ∨ r.Ended) := by
  obtain ⟨n, hn, hz⟩ := h.nested
  refine ⟨n, ?_, hz⟩
  rw [Token.level_append, Token.level_of_plain _ (gap_plain s)]
  exact hn

theorem level_gap_of_close {close : Token} {ts : List Token}
    (h : Reads (s.dropWhile Token.isTrivia) ts (close :: r))
    (closing : close.isPunctuation .closeParen = true) :
    Token.level 0 (s.takeWhile Token.isTrivia ++ ts) = some 0 := by
  obtain ⟨n, hn, hz⟩ := level_gap h
  have hz : n = 0 := hz.resolve_right fun he => by
    have := he close rfl
    simp_all [Token.isPunctuation]
  rw [hn, hz]

theorem Piece.part {t : Token} {ts : List Token} (h : Piece sub scope t s ts scope' r)
    (hsub : sub.Segments Select.tokens) (go : kind.rule.stops scope t = false) :
    Part scope (t :: s) ts scope' r := by
  have hs : t.isPunctuation .semicolon = false := Bool.eq_false_iff.mpr fun h => by
    rw [ClauseRule.stops_semicolon h] at go
    contradiction
  have gap := gap_plain s
  have split : s.takeWhile Token.isTrivia ++ s.dropWhile Token.isTrivia = s :=
    List.takeWhile_append_dropWhile
  cases h with
  | token single =>
    refine ⟨rfl, by simpa using hs, _, ?_, .inl rfl⟩
    cases hc : t.isPunctuation .closeParen with
    | false => simp [Token.level, single, hc, Scope.parens_after single hc]
    | true =>
      have hp := ClauseRule.parens_pos_of_close hc go
      obtain ⟨n, hn⟩ := Nat.exists_eq_succ_of_ne_zero (Nat.ne_of_gt hp)
      simp [Token.level, single, hc, hn, Scope.parens_after_close hc]
  | @query _ q close opening select inner closing =>
    have hq := hsub inner
    have hn := Token.level_add (level_gap_of_close hq closing) (scope.parens + 1)
    rw [hq.split] at split
    refine ⟨by simp [split], ?_, scope.parens, ?_, .inl rfl⟩
    · intro u hu
      simp only [List.cons_append, List.mem_cons, List.mem_append, List.not_mem_nil, or_false] at hu
      rcases hu with rfl | (hu | hu) | rfl
      · exact hs
      · exact gap u hu _
      · exact hq.noSemicolon u hu
      · simp_all [Token.isPunctuation]
    · have ho : close.isPunctuation .openParen = false := by simp_all [Token.isPunctuation]
      rw [Nat.zero_add] at hn
      rw [List.cons_append, Token.level_append]
      simp [Token.level, opening, hn, ho, closing]
  | @cut _ q opening select inner missing =>
    have hq := hsub inner
    obtain ⟨n, hn, hz⟩ := level_gap hq
    rw [hq.split] at split
    refine ⟨by simp [split], ?_, n + (scope.parens + 1), ?_, ?_⟩
    · intro u hu
      simp only [List.cons_append, List.mem_cons, List.mem_append] at hu
      rcases hu with rfl | hu | hu
      · exact hs
      · exact gap u hu _
      · exact hq.noSemicolon u hu
    · have hn := Token.level_add hn (scope.parens + 1)
      rw [Nat.zero_add] at hn
      simp [Token.level, opening, hn]
    · rw [Scope.parens_after_open opening]
      exact hz.imp (by omega) id
  | group opening other =>
    refine ⟨by simp [split], ?_, scope.parens + 1, ?_, .inl (Scope.parens_after_open opening _).symm⟩
    · intro u hu
      rcases List.mem_cons.mp hu with rfl | hu
      · exact hs
      · exact gap u hu _
    · simp [Token.level, opening, Token.level_of_plain _ gap]

/-- A clause of keywords only never enters a parenthesis. -/
theorem Piece.keywordsOnly {t : Token} {ts : List Token} (h : Piece sub scope t s ts scope' r)
    (go : kind.rule.stops scope t = false) (hk : kind.rule.keywordsOnly = true) :
    scope'.parens = scope.parens := by
  cases h with
  | token single =>
    refine Scope.parens_after single (Bool.eq_false_iff.mpr fun hc => ?_) scope
    simp [ClauseRule.not_keywordsOnly_of_close hc go] at hk
  | query opening | cut opening | group opening =>
    simp [ClauseRule.not_keywordsOnly_of_open opening go] at hk

/-- A clause takes nothing where the statement has ended. -/
theorem Body.eq_nil_of_ended {body : List Token} (h : Body sub kind scope s body scope' r)
    (he : s.Ended) : body = [] ∧ r = s := by
  cases h with
  | done => exact ⟨rfl, rfl⟩
  | step go =>
    rw [ClauseRule.stops_semicolon (he _ rfl)] at go
    contradiction

theorem Body.part {body : List Token} (h : Body sub kind scope s body scope' r)
    (hsub : sub.Segments Select.tokens) : Part scope s body scope' r := by
  induction h with
  | done stop => exact ⟨rfl, by simp, _, rfl, .inl rfl⟩
  | @step st st' st'' t s m r xs ys go first rest ih =>
    have hp := (gives_piece.mp first).part hsub go
    refine ⟨by rw [hp.split, ih.split, List.append_assoc], ?_, ?_⟩
    · intro u hu
      rcases List.mem_append.mp hu with hu | hu
      · exact hp.noSemicolon u hu
      · exact ih.noSemicolon u hu
    · obtain ⟨n, hn, hz⟩ := hp.nested
      rcases hz with rfl | he
      · obtain ⟨k, hk, hz⟩ := ih.nested
        exact ⟨k, by simp [Token.level_append, hn, hk], hz⟩
      · obtain ⟨rfl, rfl⟩ := Body.eq_nil_of_ended rest he
        exact ⟨n, by simpa using hn, .inr he⟩

theorem Body.stops {body : List Token} (h : Body sub kind scope s body scope' r) :
    ∀ t ∈ r.head?, kind.rule.stops scope' t = true := by
  induction h with
  | done stop => exact stop
  | step _ _ _ ih => exact ih

theorem Body.keywordsOnly {body : List Token} (h : Body sub kind scope s body scope' r)
    (hk : kind.rule.keywordsOnly = true) : scope'.parens = scope.parens := by
  induction h with
  | done => rfl
  | step go first _ ih => exact ih.trans ((gives_piece.mp first).keywordsOnly go hk)

/-- Behind a clause that has left one of its parentheses open the statement ends. -/
theorem Body.ended {body : List Token} (h : Body sub kind {} s body scope r)
    (hp : scope.parens ≠ 0) : r.Ended := by
  intro t ht
  refine ClauseRule.semicolon_of_stops (h.stops t ht) (Bool.eq_false_iff.mpr fun hk => ?_) hp
  exact hp (h.keywordsOnly hk)

theorem second_plain {ts : List Token} (h : (second kind).Gives s ts r) :
    s = ts ++ r ∧ ∀ t ∈ ts, ∀ p, t.isPunctuation p = false := by
  rcases gives_second.mp h with ⟨-, rfl, rfl⟩ | ⟨k, t, -, hs, hk, rfl⟩
  · exact ⟨rfl, by simp⟩
  · refine ⟨?_, ?_⟩
    · rw [List.append_assoc, List.singleton_append, ← hs, List.takeWhile_append_dropWhile]
    · intro u hu p
      rcases List.mem_append.mp hu with hu | hu
      · exact gap_plain s u hu p
      · obtain rfl := List.mem_singleton.mp hu
        simp_all [Token.isKeyword, Token.isPunctuation]

theorem Scan.reads {c : Clause} (h : Scan sub kind s c scope r)
    (hsub : sub.Segments Select.tokens) : Reads s c.tokens r := by
  cases h with
  | @mk lead s m _ second body _ leading next rest =>
    obtain ⟨hs, plain⟩ := second_plain next
    have hb := rest.part hsub
    have hl := Token.isPunctuation_of_isOneOf leading
    refine ⟨by simp [Clause.tokens, hs, hb.split], ?_, .inr ?_, ?_⟩
    · intro t ht
      simp only [Clause.tokens, List.mem_cons, List.mem_append] at ht
      rcases ht with rfl | ht | ht
      · exact hl _
      · exact plain t ht _
      · exact hb.noSemicolon t ht
    · exact fun t ht => ClauseRule.not_isTrivia_of_stops (rest.stops t ht)
    · obtain ⟨n, hn, hz⟩ := hb.nested
      refine ⟨n, ?_, ?_⟩
      · simpa [Clause.tokens, Token.level, hl, Token.level_append, Token.level_of_plain _ plain]
          using hn
      · rcases hz with rfl | he
        · by_cases hp : scope.parens = 0
          · exact .inl hp
          · exact .inr (rest.ended hp)
        · exact .inr he

end Clause

end SqlOutline
