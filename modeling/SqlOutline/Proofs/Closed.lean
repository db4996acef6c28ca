import SqlOutline.Proofs.Grammatical
import SqlOutline.Proofs.StatementCoupling
import SqlOutline.Proofs.StatementSegments

namespace SqlOutline
open Parse

/-- The second stream is the first with `x` behind, and fewer than `n` parentheses are still to be
opened in the first. -/
structure Ahead.Grown (x : Ahead) (n : Nat) (s s' : Ahead) : Prop where
  eq : s' = s ++ x
  opened : Token.opened s < n

namespace Ahead.Grown

variable {x s s' : Ahead} {n : Nat}

theorem trivia (h : Grown x n s s') (hs : s.dropWhile Token.isTrivia ≠ []) :
    s'.takeWhile Token.isTrivia = s.takeWhile Token.isTrivia ∧
      Grown x n (s.dropWhile Token.isTrivia) (s'.dropWhile Token.isTrivia) := by
  obtain ⟨rfl, hn⟩ := h
  obtain ⟨htake, hdrop⟩ := Ahead.trivia_before (x := x) fun he => absurd he hs
  have hle := Token.opened_of_suffix (List.dropWhile_suffix Token.isTrivia (l := s))
  exact ⟨htake, hdrop, Nat.lt_of_le_of_lt hle hn⟩

theorem beside (h : Grown x n s s') (hs : s ≠ []) :
    Beside (Grown x) (fun ts us => us = ts) (· ≠ []) n s s' := by
  obtain ⟨rfl, hn⟩ := h
  cases s with
  | nil => exact absurd rfl hs
  | cons t s =>
    have hle := Token.opened_of_suffix (List.suffix_cons t s)
    refine .token rfl rfl ⟨rfl, Nat.lt_of_le_of_lt hle hn⟩ fun ho m hm => ⟨rfl, ?_⟩
    have : Token.opened (t :: s) = Token.opened s + 1 := List.countP_cons_of_pos ho
    omega

end Ahead.Grown

/-- Two streams of which the second goes on where the first ends. The first counts as long as it has
not ended. -/
def Coupling.grow (x : Ahead) : Coupling where
  rel := Ahead.Grown x
  same ts us := us = ts
  live r := r ≠ []
  same_nil := rfl
  same_append ht hu := congrArg₂ _ ht hu
  live_of_suffix h hr hs := hr (List.suffix_nil.mp (hs ▸ h))
  rel_succ h := ⟨h.eq, Nat.lt_succ_of_lt h.opened⟩
  gap h live := h.trivia live
  beside h live _ _ := h.beside live

namespace Clause

variable {kind : ClauseKind} {scope scope' : Scope} {depth depth' room room' : Nat} {s r x : Ahead}

theorem grow_subs (depth depth' room room' : Nat) (x : Ahead) :
    (Coupling.grow x).Subs room' (Select.readNested depth room) (Select.readNested depth' room') :=
  ⟨Coupling.runs_readNested fun _ _ h => absurd h.opened (Nat.not_lt_zero _), .readNested _ _⟩

/-- A piece that does not leave its own parenthesis open does not mind what follows it. -/
theorem Piece.grow {t : Token} {ts : List Token}
    (h : Piece (Select.readNested depth room) scope t s ts scope' r)
    (hp : r = [] → t.isPunctuation .openParen = true → scope'.parens ≤ scope.parens)
    (hroom : Token.opened (t :: s) ≤ room') :
    Piece (Select.readNested depth' room') scope t (s ++ x) ts scope' (r ++ x) := by
  have hsub := grow_subs depth depth' room room' x
  have hs : Token.opened s < room' + 1 :=
    Nat.lt_succ_of_le (Nat.le_trans (Token.opened_of_suffix (List.suffix_cons t s)) hroom)
  have inner : t.isPunctuation .openParen = true → (Coupling.grow x).rel room' s (s ++ x) := by
    intro ho
    have : Token.opened (t :: s) = Token.opened s + 1 := List.countP_cons_of_pos ho
    exact ⟨rfl, by omega⟩
  by_cases hr : r = []
  · cases h with
    | token single => exact .token single
    | @query _ q close opening select hq closing =>
      obtain ⟨q', m', select', hq', same, ⟨rfl, -⟩, -, -⟩ :=
        hsub.query (inner opening) select hq (List.cons_ne_nil close r)
      rw [List.cons_append, ← show _ = _ from same]
      exact .query opening select' hq' closing
    | cut opening | group opening =>
      have hle := hp hr opening
      rw [Scope.parens_after_open opening] at hle
      exact absurd hle (Nat.not_succ_le_self _)
  · obtain ⟨ts', r', hpiece, rfl, ⟨rfl, -⟩, -⟩ := hsub.piece h hr rfl rfl ⟨rfl, hs⟩ inner
    exact hpiece

theorem Body.grow {body : List Token}
    (h : Body (Select.readNested depth room) kind scope s body scope' [])
    (hp : scope'.parens = 0) (hroom : Token.opened s ≤ room')
    (hx : ∀ t ∈ x.head?, kind.rule.stops scope' t = true) :
    Body (Select.readNested depth' room') kind scope (s ++ x) body scope' x := by
  generalize hr : ([] : Ahead) = r at h
  induction h with
  | done =>
    subst hr
    exact .done hx
  | @step st st' st'' t s m r xs ys go first rest ih =>
    subst hr
    have hm := first.suffix
    have hend : m = [] → t.isPunctuation .openParen = true → st'.parens ≤ st.parens := by
      rintro rfl -
      cases rest with
      | done => exact hp ▸ Nat.zero_le _
    have hroom' := Nat.le_trans (Token.opened_of_suffix (hm.trans (List.suffix_cons t s))) hroom
    exact .step go (gives_piece.mpr ((gives_piece.mp first).grow hend hroom)) (ih hp hroom' hx rfl)

/-- What is read of a closed clause does not depend on what follows it, provided that this stops the
clause. -/
theorem Scan.grow {c : Clause} (h : Scan (Select.readNested depth room) kind s c scope [])
    (hp : scope.parens = 0) (hroom : Token.opened s ≤ room')
    (hx : ∀ t ∈ x.head?, kind.rule.stops scope t = true) :
    Scan (Select.readNested depth' room') kind (s ++ x) c scope x := by
  cases h with
  | @mk lead s m _ second body _ leading next rest =>
    have hm : Token.opened m ≤ room' :=
      Nat.le_trans (Token.opened_of_suffix (next.suffix.trans (List.suffix_cons lead s))) hroom
    have next' : (Clause.second kind).Gives (s ++ x) second (m ++ x) := by
      rw [gives_second] at next ⊢
      rcases next with ⟨hk, rfl, rfl⟩ | ⟨k, t, hk, hs, ht, rfl⟩
      · exact .inl ⟨hk, rfl, rfl⟩
      · have hne : s.dropWhile Token.isTrivia ≠ [] := by simp [hs]
        obtain ⟨htake, hdrop⟩ := Ahead.trivia_before (x := x) fun he => absurd he hne
        exact .inr ⟨k, t, hk, by rw [hdrop, hs]; rfl, ht, by rw [htake]⟩
    exact .mk leading next' (rest.grow hp hm hx)

end Clause

theorem Scope.target_after {scope : Scope} (t : Token) (h : scope.target = true) :
    (scope.after t).target = true := by
  unfold after
  split <;> simp [h]

theorem Scope.target_after_name {scope : Scope} {t : Token} (ht : t.isName = true)
    (hp : scope.parens = 0) : (scope.after t).target = true := by
  unfold Token.isName at ht
  unfold after
  split at ht <;> simp_all

namespace Clause

variable {sub : Parse Select} {kind : ClauseKind} {scope scope' : Scope} {s r : Ahead}
  {ts before after : List Token} {t name : Token}

theorem Piece.target_mono (h : Piece sub scope t s ts scope' r) (ht : scope.target = true) :
    scope'.target = true := by
  cases h with
  | query => exact ht
  | token | cut | group => exact Scope.target_after _ ht

theorem Body.target_mono (h : Body sub kind scope s ts scope' r) (ht : scope.target = true) :
    scope'.target = true := by
  induction h with
  | done => exact ht
  | step _ first _ ih => exact ih ((gives_piece.mp first).target_mono ht)

/-- What an opening parenthesis brings with it, up to the closing one if that is there. -/
theorem Piece.inner (h : Piece sub scope t s ts scope' r) (hsub : sub.Segments Select.tokens)
    (ho : t.isPunctuation .openParen = true) :
    ∃ us k, Token.level 0 us = some k ∧ (ts = t :: us ∨ ∃ close, ts = t :: (us ++ [close])) := by
  cases h with
  | token single =>
    rw [ho] at single
    cases single
  | @query _ q close _ _ hq _ =>
    obtain ⟨n, hn, -⟩ := level_gap (hsub hq)
    exact ⟨_, n, hn, .inr ⟨close, rfl⟩⟩
  | @cut _ q _ _ hq _ =>
    obtain ⟨n, hn, -⟩ := level_gap (hsub hq)
    exact ⟨_, n, hn, .inl rfl⟩
  | group => exact ⟨_, 0, Token.level_of_plain 0 (gap_plain s), .inl rfl⟩

theorem Piece.head {u : Token} (h : Piece sub scope t s (u :: ts) scope' r) : u = t := by
  generalize hts : u :: ts = xs at h
  cases h <;> exact (List.cons.inj hts).1

/-- Whatever token of a piece is not its first stands behind an opening parenthesis. -/
theorem Piece.inside {u v : Token} (h : Piece sub scope t s (v :: before ++ u :: after) scope' r)
    (hsub : sub.Segments Select.tokens) :
    t.isPunctuation .openParen = true ∧ ∃ k, Token.level 0 before = some k := by
  have opening : t.isPunctuation .openParen = true := by
    generalize hts : v :: before ++ u :: after = ts at h
    cases h with
    | token => simp at hts
    | query opening | cut opening | group opening => exact opening
  obtain ⟨us, k, hk, hts⟩ := h.inner hsub opening
  refine ⟨opening, Token.level_of_prefix ?_ hk⟩
  rcases hts with hts | ⟨close, hts⟩
  · exact ⟨_, (List.cons.inj hts).2⟩
  · have hconcat := (List.cons.inj hts).2
    rcases List.prefix_concat_iff.mp (⟨_, hconcat⟩ : before <+: us ++ [close]) with he | hp
    · have := congrArg List.length hconcat
      simp [he] at this
    · exact hp

theorem Piece.target (h : Piece sub scope t s (before ++ name :: after) scope' r)
    (hsub : sub.Segments Select.tokens) (hn : name.isName = true)
    (hl : Token.level scope.parens before = some 0) : scope'.target = true := by
  cases before with
  | nil =>
    obtain rfl := h.head
    generalize hts : [] ++ name :: after = ts at h
    cases h with
    | token => exact Scope.target_after_name hn (Option.some.inj hl)
    | query opening | cut opening | group opening =>
      simp_all [Token.isName, Token.isPunctuation]
  | cons u before =>
    obtain ⟨opening, k, hk⟩ := h.inside hsub
    obtain rfl := h.head
    have := Token.level_add hk (scope.parens + 1)
    simp_all [Token.level]

/-- A name outside every parenthesis is the target. -/
theorem Body.target (h : Body sub kind scope s (before ++ name :: after) scope' r)
    (hsub : sub.Segments Select.tokens) (hn : name.isName = true)
    (hl : Token.level scope.parens before = some 0) : scope'.target = true := by
  generalize hb : before ++ name :: after = body at h
  induction h generalizing before with
  | done => simp at hb
  | @step st st' st'' t s m r xs ys go first rest ih =>
    have hpiece := gives_piece.mp first
    obtain ⟨n, hxs, hz⟩ := (hpiece.part hsub go).nested
    have hz : n = st'.parens ∨ ys = [] := hz.imp_right fun he => (Body.eq_nil_of_ended rest he).1
    have later : ∀ more, before = xs ++ more → ys = more ++ name :: after → st''.target = true := by
      rintro more rfl hy
      rw [Token.level_append, hxs] at hl
      rcases hz with rfl | rfl
      · exact ih hl hy.symm
      · simp at hy
    rcases List.append_eq_append_iff.mp hb with ⟨more, hx, hy⟩ | ⟨more, hx, hy⟩
    · cases more with
      | nil => exact later [] (by simpa using hx.symm) hy.symm
      | cons u more =>
        obtain ⟨rfl, -⟩ := List.cons.inj hy
        rw [hx] at hpiece
        exact Body.target_mono rest (hpiece.target hsub hn hl)
    · exact later more hx hy

theorem Scan.target {c : Clause} (h : Scan sub kind s c scope r)
    (hsub : sub.Segments Select.tokens) (hs : kind.rule.second = none) (ht : c.HasTarget) :
    scope.target = true := by
  obtain ⟨before, name, after, hb, hn, hl⟩ := ht
  cases h with
  | @mk _ _ _ _ second body _ _ next rest =>
    rcases gives_second.mp next with ⟨-, rfl, rfl⟩ | ⟨k, t, hk, -⟩
    · obtain rfl : body = before ++ name :: after := hb
      exact rest.target hsub hn hl
    · rw [hs] at hk
      cases hk

end Clause

end SqlOutline
