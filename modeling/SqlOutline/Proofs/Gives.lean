import SqlOutline.Statement.Parse

namespace SqlOutline

/-- Reading `s` succeeds with `a` and leaves `r`. What the log tells is left out. -/
def Parse.Gives {α : Type} (p : Parse α) (s : Ahead) (a : α) (r : Ahead) : Prop :=
  (p.run s).answer = .ok a ∧ (p.run s).ahead = r

instance {α : Type} [DecidableEq α] (p : Parse α) (s : Ahead) (a : α) (r : Ahead) :
    Decidable (p.Gives s a r) :=
  match h : (p.run s).answer with
  | .ok b => decidable_of_decidable_of_iff (p := b = a ∧ (p.run s).ahead = r)
      (by simp [Parse.Gives, h])
  | .error _ => .isFalse fun hg => nomatch h.symm.trans hg.1

namespace Parse

variable {α β σ : Type}

theorem Gives.of_answer {p : Parse α} {s : Ahead} {a : α} (h : (p.run s).answer = .ok a) :
    p.Gives s a (p.run s).ahead :=
  ⟨h, rfl⟩

theorem Gives.suffix {p : Parse α} {s r : Ahead} {a : α} (h : p.Gives s a r) : r <:+ s :=
  h.2 ▸ p.forward s

theorem Gives.ne_nil {p : Parse α} {s r : Ahead} {a : α} (h : p.Gives s a r) (hr : r ≠ []) :
    s ≠ [] := fun hs => hr (List.suffix_nil.mp (hs ▸ h.suffix))

@[simp] theorem gives_pure {a b : α} {s r : Ahead} :
    (pure a : Parse α).Gives s b r ↔ b = a ∧ r = s := by
  simp [Gives, run_pure, eq_comm]

@[simp] theorem gives_bind {p : Parse α} {f : α → Parse β} {s r : Ahead} {b : β} :
    (p >>= f).Gives s b r ↔ ∃ a m, p.Gives s a m ∧ (f a).Gives m b r := by
  simp only [Gives, run_bind, Reply.andThen]
  cases ha : (p.run s).answer with
  | error e => simp
  | ok a =>
    constructor
    · intro h
      exact ⟨a, _, ⟨rfl, rfl⟩, h⟩
    · intro h
      obtain ⟨a', m, ⟨he, rfl⟩, h⟩ := h
      cases he
      exact h

theorem Gives.bind {p : Parse α} {f : α → Parse β} {s m r : Ahead} {a : α} {b : β}
    (hp : p.Gives s a m) (hf : (f a).Gives m b r) : (p >>= f).Gives s b r :=
  gives_bind.mpr ⟨a, m, hp, hf⟩

@[simp] theorem gives_map {p : Parse α} {f : α → β} {s r : Ahead} {b : β} :
    (f <$> p).Gives s b r ↔ ∃ a, p.Gives s a r ∧ b = f a := by
  change (p >>= fun a => pure (f a)).Gives s b r ↔ _
  rw [gives_bind]
  constructor
  · intro h
    obtain ⟨a, m, h, hb⟩ := h
    obtain ⟨rfl, rfl⟩ := gives_pure.mp hb
    exact ⟨a, h, rfl⟩
  · intro h
    obtain ⟨a, h, rfl⟩ := h
    exact ⟨a, r, h, gives_pure.mpr ⟨rfl, rfl⟩⟩

@[simp] theorem gives_fail {fault : Ahead → Fault} {s r : Ahead} {a : α} :
    ¬ (fail fault : Parse α).Gives s a r := by
  intro h
  obtain ⟨h, -⟩ := h
  cases h

@[simp] theorem gives_failExpecting {expected : String} {s r : Ahead} {a : α} :
    ¬ (failExpecting expected : Parse α).Gives s a r :=
  gives_fail

@[simp] theorem gives_log {e : Event} {s r : Ahead} {u : Unit} :
    (log e).Gives s u r ↔ r = s := by
  simp [Gives, log, eq_comm]

theorem Gives.after_log {p : Parse α} {s r : Ahead} {a : α} (h : p.Gives s a r) (e : Event) :
    (log e >>= fun _ => p).Gives s a r := by
  have hlog : (log e).Gives s () s := gives_log.mpr rfl
  exact hlog.bind h

@[simp] theorem gives_current {s r : Ahead} {t : Option Token} :
    current.Gives s t r ↔ t = s.head? ∧ r = s := by
  simp [Gives, current, Ahead.current, eq_comm]

@[simp] theorem gives_atKeyword {ks : List Keyword} {s r : Ahead} {b : Bool} :
    (atKeyword ks).Gives s b r ↔ b = s.atKeyword ks ∧ r = s := by
  simp [Gives, atKeyword, eq_comm]

@[simp] theorem gives_trivia {s r : Ahead} {ts : List Token} :
    trivia.Gives s ts r ↔ ts = s.takeWhile Token.isTrivia ∧ r = s.dropWhile Token.isTrivia := by
  simp [Gives, trivia, Ahead.trivia, eq_comm]

theorem gives_take? {wanted : Token → Bool} {s r : Ahead} {t : Option Token} :
    (take? wanted).Gives s t r ↔
      (∃ u, t = some u ∧ s = u :: r ∧ wanted u = true) ∨
        t = none ∧ r = s ∧ ∀ u ∈ s.head?, wanted u = false := by
  cases s with
  | nil => simp [Gives, take?, eq_comm (a := none), eq_comm (a := [])]
  | cons u s =>
    by_cases h : wanted u = true
    · simp only [Gives, take?, h, ↓reduceIte, Except.ok.injEq]
      constructor
      · intro h
        obtain ⟨rfl, rfl⟩ := h
        exact .inl ⟨u, rfl, rfl, h⟩
      · intro h
        rcases h with ⟨v, rfl, hs, -⟩ | ⟨-, -, hn⟩
        · cases hs
          exact ⟨rfl, rfl⟩
        · simp [h] at hn
    · simp only [Gives, take?, h, Bool.false_eq_true, ↓reduceIte, Except.ok.injEq]
      constructor
      · intro h
        obtain ⟨rfl, rfl⟩ := h
        exact .inr ⟨rfl, rfl, by simpa using h⟩
      · intro h
        rcases h with ⟨v, -, hs, hv⟩ | ⟨rfl, rfl, -⟩
        · cases hs
          contradiction
        · exact ⟨rfl, rfl⟩

theorem gives_expect {expected : String} {wanted : Token → Bool} {s r : Ahead} {t : Token} :
    (expect expected wanted).Gives s t r ↔ s = t :: r ∧ wanted t = true := by
  cases s with
  | nil => simp [Gives, run_expect_nil]
  | cons u s =>
    by_cases h : wanted u = true
    · simp only [Gives, run_expect_cons, h, if_true, Except.ok.injEq, List.cons.injEq]
      constructor
      · intro h
        obtain ⟨rfl, rfl⟩ := h
        exact ⟨⟨rfl, rfl⟩, h⟩
      · intro h
        obtain ⟨⟨rfl, rfl⟩, -⟩ := h
        exact ⟨rfl, rfl⟩
    · simp only [Gives, run_expect_cons, h, Bool.false_eq_true, ↓reduceIte, reduceCtorEq, false_and,
        false_iff, not_and]
      intro he
      cases he
      exact h

section collect

variable {stops : σ → Token → Bool} {piece : σ → Token → Parse (List α × σ)} {st : σ} {t : Token}

theorem run_collect_nil : (collect stops piece st).run [] = ⟨.ok ([], st), [], []⟩ := by
  simp only [collect, collectFrom]

theorem run_collect_of_stops (stop : stops st t = true) (s : Ahead) :
    (collect stops piece st).run (t :: s) = ⟨.ok ([], st), t :: s, []⟩ := by
  simp only [collect, collectFrom, stop, if_true]

/-- Where nothing stops it a run of pieces is its first piece and the run that follows. -/
theorem run_collect_cons (go : stops st t = false) (s : Ahead) :
    (collect stops piece st).run (t :: s) =
      (piece st t >>= fun x => collect stops piece x.2 >>= fun y =>
        pure (x.1 ++ y.1, y.2)).run s := by
  change collectFrom stops piece st (t :: s) = _
  rw [collectFrom, if_neg (by simp [go])]
  simp only [run_bind, Reply.andThen, run_pure, collect]
  cases ((piece st t).run s).answer with
  | error e => rfl
  | ok x =>
    generalize ((piece st t).run s).ahead = r
    cases h : (collectFrom stops piece x.2 r).answer <;> simp [h, Except.map]

/-- The recursion of a run of pieces. A piece leaves any part of what is behind its token. -/
theorem collect_induction (stops : σ → Token → Bool) {motive : σ → Ahead → Prop}
    (nil : ∀ st, motive st [])
    (stop : ∀ st t s, stops st t = true → motive st (t :: s))
    (step : ∀ st t s, stops st t = false → (∀ st' r, r <:+ s → motive st' r) → motive st (t :: s))
    (st : σ) (s : Ahead) : motive st s := by
  induction hl : s.length using Nat.strongRecOn generalizing s st with
  | ind l ih =>
    cases s with
    | nil => exact nil st
    | cons t s =>
      cases h : stops st t with
      | true => exact stop st t s h
      | false =>
        refine step st t s h fun st' r hr => ih r.length ?_ st' r rfl
        exact hl ▸ Nat.lt_succ_of_le hr.length_le

end collect

/-- What a run of pieces comes to, one piece at a time. -/
inductive Collects (stops : σ → Token → Bool) (piece : σ → Token → Parse (List α × σ)) :
    σ → Ahead → List α → σ → Ahead → Prop where
  | done {st : σ} {s : Ahead} (stop : ∀ t ∈ s.head?, stops st t = true) :
      Collects stops piece st s [] st s
  | step {st st' st'' : σ} {t : Token} {s m r : Ahead} {xs ys : List α}
      (go : stops st t = false) (first : (piece st t).Gives s (xs, st') m)
      (rest : Collects stops piece st' m ys st'' r) :
      Collects stops piece st (t :: s) (xs ++ ys) st'' r

theorem gives_collect {stops : σ → Token → Bool} {piece : σ → Token → Parse (List α × σ)}
    {st st' : σ} {s r : Ahead} {xs : List α} :
    (collect stops piece st).Gives s (xs, st') r ↔ Collects stops piece st s xs st' r := by
  constructor
  · induction st, s using collect_induction stops generalizing xs with
    | nil st =>
      intro h
      rw [Gives, run_collect_nil] at h
      obtain ⟨h, rfl⟩ := h
      cases h
      exact .done nofun
    | stop st t s stop =>
      intro h
      rw [Gives, run_collect_of_stops stop] at h
      obtain ⟨h, rfl⟩ := h
      cases h
      exact .done (by simpa using stop)
    | step st t s go ih =>
      intro h
      rw [Gives, run_collect_cons go, ← Gives, gives_bind] at h
      obtain ⟨⟨ys, st₁⟩, m, first, h⟩ := h
      obtain ⟨⟨zs, st₂⟩, r', rest, h⟩ := gives_bind.mp h
      obtain ⟨he, rfl⟩ := gives_pure.mp h
      cases he
      exact .step go first (ih st₁ m first.suffix rest)
  · intro h
    induction h with
    | @done st s stop =>
      cases s with
      | nil => exact ⟨congrArg Reply.answer run_collect_nil, congrArg Reply.ahead run_collect_nil⟩
      | cons t s =>
        rw [Gives, run_collect_of_stops (stop t rfl)]
        exact ⟨rfl, rfl⟩
    | step go first _ ih =>
      rw [Gives, run_collect_cons go]
      exact gives_bind.mpr ⟨_, _, first, gives_bind.mpr ⟨_, _, ih, gives_pure.mpr ⟨rfl, rfl⟩⟩⟩

end Parse

end SqlOutline
