import SqlOutline.Proofs.Fails
import SqlOutline.Proofs.Grammatical

namespace SqlOutline

namespace Parse

variable {α β σ : Type} {s m : Ahead}

theorem ahead_bind_suffix (p : Parse α) (f : α → Parse β) (s : Ahead) :
    ((p >>= f).run s).ahead <:+ (p.run s).ahead := by
  rw [run_bind]
  exact Reply.andThen_forward (List.suffix_refl _) fun a _ => (f a).forward _

theorem Gives.ahead_bind {p : Parse α} {a : α} (h : p.Gives s a m) (f : α → Parse β) :
    ((p >>= f).run s).ahead = ((f a).run m).ahead := by
  obtain ⟨ha, rfl⟩ := h
  simp only [run_bind, Reply.andThen, ha]

theorem ahead_collect_suffix {stops : σ → Token → Bool} {piece : σ → Token → Parse (List α × σ)}
    {st : σ} {t : Token} (go : stops st t = false) (s : Ahead) :
    ((collect stops piece st).run (t :: s)).ahead <:+ ((piece st t).run s).ahead := by
  rw [run_collect_cons go]
  exact ahead_bind_suffix _ _ _

theorem Gives.ahead_collect {stops : σ → Token → Bool} {piece : σ → Token → Parse (List α × σ)}
    {st st' : σ} {t : Token} {xs : List α} (h : (piece st t).Gives s (xs, st') m)
    (go : stops st t = false) :
    ((collect stops piece st).run (t :: s)).ahead = ((collect stops piece st').run m).ahead := by
  obtain ⟨hx, rfl⟩ := h
  change (collectFrom stops piece st (t :: s)).ahead = (collectFrom stops piece st' _).ahead
  simp [collectFrom, go, hx]

/-- Reading `s` with `p`, which nests queries up to `limit`, and with `q`, which may nest them deeper.
Both come to the same, which is no fault of nesting, or `p` stops at a query beyond the limit, and `q`
no sooner. Such a query stands behind at least `n` of the parentheses that `s` opens. -/
inductive Limited (limit n : Nat) (p q : Parse α) (s : Ahead) : Prop where
  | gives {a : α} {r : Ahead} (left : p.Gives s a r) (right : q.Gives s a r) : Limited limit n p q s
  | fails {e : Fault} {r : Ahead} (left : p.Fails s e r) (right : q.Fails s e r)
      (other : ∀ l position, e ≠ .tooDeep l position) : Limited limit n p q s
  | stopped {t : Token} {r : Ahead} (left : p.Fails s (.tooDeep limit t.start) (t :: r))
      (select : t.isKeyword .select = true) (deep : n + Token.opened (t :: r) ≤ Token.opened s)
      (right : (q.run s).ahead <:+ t :: r) : Limited limit n p q s

/-- The same on all tokens. -/
def Limits (limit n : Nat) (p q : Parse α) : Prop :=
  ∀ s, p.Limited limit n q s

variable {limit n k : Nat} {p q : Parse α} {f g : α → Parse β}

/-- What is read in front counts for the parentheses that it opens. -/
theorem Limited.after {a : α} (hp : p.Gives s a m) (hq : q.Gives s a m)
    (h : (f a).Limited limit k (g a) m) (hk : n + Token.opened m ≤ k + Token.opened s) :
    (p >>= f).Limited limit n (q >>= g) s := by
  cases h with
  | gives left right => exact .gives (hp.bind left) (hq.bind right)
  | fails left right other =>
    exact .fails (fails_bind.mpr (.inr ⟨a, m, hp, left⟩)) (fails_bind.mpr (.inr ⟨a, m, hq, right⟩))
      other
  | stopped left select deep right =>
    refine .stopped (fails_bind.mpr (.inr ⟨a, m, hp, left⟩)) select (by omega) ?_
    rwa [hq.ahead_bind]

theorem Limited.bind (h : p.Limited limit n q s) (hf : ∀ a, Limits limit n (f a) (g a)) :
    (p >>= f).Limited limit n (q >>= g) s := by
  cases h with
  | gives left right =>
    have := Token.opened_of_suffix left.suffix
    exact .after left right (hf _ _) (by omega)
  | fails left right other =>
    exact .fails (fails_bind.mpr (.inl left)) (fails_bind.mpr (.inl right)) other
  | stopped left select deep right =>
    exact .stopped (fails_bind.mpr (.inl left)) select deep ((ahead_bind_suffix q g s).trans right)

namespace Limits

theorem of_never (h : ∀ s l position r, ¬ p.Fails s (.tooDeep l position) r) :
    Limits limit n p p := by
  intro s
  rcases gives_or_fails p s with ⟨a, ha⟩ | ⟨e, he⟩
  · exact .gives ha ha
  · refine .fails he he fun l position hl => ?_
    exact h _ _ _ _ (hl ▸ he)

theorem pure (a : α) : Limits limit n (Pure.pure a) (Pure.pure a) :=
  of_never fun _ _ _ _ => fails_pure

theorem log (e : Event) : Limits limit n (Parse.log e) (Parse.log e) :=
  of_never fun _ _ _ _ => fails_log

theorem current : Limits limit n Parse.current Parse.current :=
  of_never fun _ _ _ _ => fails_current

theorem trivia : Limits limit n Parse.trivia Parse.trivia :=
  of_never fun _ _ _ _ => fails_trivia

theorem failExpecting (expected : String) :
    Limits limit n (Parse.failExpecting expected : Parse α) (Parse.failExpecting expected) := by
  refine of_never fun s l position r h => ?_
  have := (fails_failExpecting.mp h).1
  cases s <;> cases this

theorem expect (expected : String) (wanted : Token → Bool) :
    Limits limit n (Parse.expect expected wanted) (Parse.expect expected wanted) := by
  refine of_never fun s l position r h => ?_
  have := (fails_expect.mp h).2.1
  cases s <;> cases this

theorem bind (h : Limits limit n p q) (hf : ∀ a, Limits limit n (f a) (g a)) :
    Limits limit n (p >>= f) (q >>= g) := fun s => (h s).bind hf

theorem map (h : Limits limit n p q) (f : α → β) : Limits limit n (f <$> p) (f <$> q) :=
  h.bind fun a => pure (f a)

theorem ite_atKeyword {ks : List Keyword} {p' q' : Parse α}
    (hp : ∀ s, s.atKeyword ks = true → p.Limited limit n p' s) (hq : Limits limit n q q') :
    Limits limit n (atKeyword ks >>= fun b => if b = true then p else q)
      (atKeyword ks >>= fun b => if b = true then p' else q') := by
  intro s
  have hk : (atKeyword ks).Gives s (s.atKeyword ks) s := gives_atKeyword.mpr ⟨rfl, rfl⟩
  refine .after hk hk ?_ (Nat.le_refl _)
  split
  · exact hp s ‹_›
  · exact hq s

/-- Behind an opening parenthesis there is one level less to be looked for. -/
theorem take?_bind {wanted : Token → Bool} {f g : Option Token → Parse β}
    (taken : ∀ t, wanted t = true → ∃ k, n ≤ k + Token.opened [t] ∧
      Limits limit k (f (some t)) (g (some t)))
    (left : Limits limit n (f none) (g none)) :
    Limits limit n (Parse.take? wanted >>= f) (Parse.take? wanted >>= g) := by
  intro s
  rcases gives_or_fails (Parse.take? wanted) s with ⟨t, ht⟩ | ⟨e, he⟩
  · generalize ((Parse.take? wanted).run s).ahead = m at ht
    rcases gives_take?.mp ht with ⟨u, rfl, rfl, hw⟩ | ⟨rfl, rfl, -⟩
    · obtain ⟨k, hk, hf⟩ := taken u hw
      have : Token.opened (u :: m) = Token.opened [u] + Token.opened m := Token.opened_append [u] m
      exact .after ht ht (hf m) (by omega)
    · exact .after ht ht (left m) (Nat.le_refl _)
  · exact absurd he fails_take?

theorem collect {stops : σ → Token → Bool} {piece piece' : σ → Token → Parse (List α × σ)}
    (h : ∀ st t, stops st t = false → ∃ k, n ≤ k + Token.opened [t] ∧
      Limits limit k (piece st t) (piece' st t)) (st : σ) :
    Limits limit n (Parse.collect stops piece st) (Parse.collect stops piece' st) := by
  intro s
  induction st, s using collect_induction stops with
  | nil st => exact .gives (gives_collect.mpr (.done nofun)) (gives_collect.mpr (.done nofun))
  | stop st t s stop =>
    have hstop : ∀ u ∈ (t :: s).head?, stops st u = true := by simpa using stop
    exact .gives (gives_collect.mpr (.done hstop)) (gives_collect.mpr (.done hstop))
  | step st t s go ih =>
    obtain ⟨k, hk, hpiece⟩ := h st t go
    have hcons : Token.opened (t :: s) = Token.opened [t] + Token.opened s :=
      Token.opened_append [t] s
    cases hpiece s with
    | @gives found m left right =>
      obtain ⟨xs, st'⟩ := found
      have hopened := Token.opened_of_suffix left.suffix
      cases ih st' m left.suffix with
      | @gives rest r left' right' =>
        obtain ⟨ys, st''⟩ := rest
        exact .gives (gives_collect.mpr (.step go left (gives_collect.mp left')))
          (gives_collect.mpr (.step go right (gives_collect.mp right')))
      | fails left' right' other =>
        exact .fails (fails_collect.mpr (.later go left (fails_collect.mp left')))
          (fails_collect.mpr (.later go right (fails_collect.mp right'))) other
      | stopped left' select deep right' =>
        refine .stopped (fails_collect.mpr (.later go left (fails_collect.mp left'))) select
          (by omega) ?_
        rwa [right.ahead_collect go]
    | fails left right other =>
      exact .fails (fails_collect.mpr (.here go left)) (fails_collect.mpr (.here go right)) other
    | stopped left select deep right =>
      exact .stopped (fails_collect.mpr (.here go left)) select (by omega)
        ((ahead_collect_suffix go s).trans right)

theorem each {ks : List Keyword} {item item' : Token → Parse α}
    (h : ∀ t, t.isOneOf ks = true → Limits limit n (item t) (item' t)) :
    Limits limit n (Parse.each ks item) (Parse.each ks item') := by
  refine .bind (.collect (fun _ t go => ⟨n, Nat.le_add_right _ _, ?_⟩) ()) fun _ => pure _
  exact (h t (by simpa using go)).bind fun _ => pure _

end Limits

/-- Two readings of subqueries, of which the first may still nest `n` levels deep. -/
def LimitsQueries (limit n : Nat) (sub sub' : Parse Select) : Prop :=
  ∀ s, s.atKeyword [.select] = true → sub.Limited limit n sub' s

namespace LimitsQueries

variable {sub sub' : Parse Select} (hsub : LimitsQueries limit n sub sub')
include hsub

theorem piece (scope : Scope) (t : Token) :
    ∃ k, n + 1 ≤ k + Token.opened [t] ∧
      Limits limit k (Clause.piece sub scope t) (Clause.piece sub' scope t) := by
  unfold Clause.piece
  split
  next ho =>
    refine ⟨n, by simp [Token.opened, ho], .bind .trivia fun gap => .ite_atKeyword ?_ (.pure _)⟩
    refine fun s hs => (hsub s hs).bind fun query => .take?_bind (fun close _ => ?_) (.pure _)
    exact ⟨n, Nat.le_add_right _ _, .pure _⟩
  next => exact ⟨n + 1, Nat.le_add_right _ _, .pure _⟩

omit hsub in
theorem second (kind : ClauseKind) : Limits limit n (Clause.second kind) (Clause.second kind) := by
  unfold Clause.second
  split
  · exact .pure _
  · exact .bind .trivia fun gap => .bind (.expect _ _) fun second => .pure _

theorem following (kind : ClauseKind) (lead : Token) :
    Limits limit (n + 1) (Clause.following sub kind lead) (Clause.following sub' kind lead) :=
  .bind (second kind) fun _ => .bind (.collect (fun scope t _ => hsub.piece scope t) _)
    fun _ => .pure _

theorem clause (kind : ClauseKind) :
    Limits limit (n + 1) (Parse.clause sub kind) (Parse.clause sub' kind) :=
  .bind (.expect _ _) fun lead => hsub.following kind lead

theorem clause? (kind : ClauseKind) :
    Limits limit (n + 1) (Parse.clause? sub kind) (Parse.clause? sub' kind) :=
  .take?_bind
    (fun lead _ => ⟨n + 1, Nat.le_add_right _ _, .bind (hsub.following kind lead) fun _ => .pure _⟩)
    (.pure _)

theorem clauses (kind : ClauseKind) :
    Limits limit (n + 1) (Parse.clauses sub kind) (Parse.clauses sub' kind) :=
  .each fun lead _ => hsub.following kind lead

end LimitsQueries

end Parse

end SqlOutline
