import SqlOutline.Proofs.Scan

namespace SqlOutline

/-- Reading `s` comes to the fault `e` and stops where `r` is left. -/
def Parse.Fails {α : Type} (p : Parse α) (s : Ahead) (e : Fault) (r : Ahead) : Prop :=
  (p.run s).answer = .error e ∧ (p.run s).ahead = r

/-- What is read need not be compared, only the fault. -/
instance {α : Type} (p : Parse α) (s : Ahead) (e : Fault) (r : Ahead) : Decidable (p.Fails s e r) :=
  match h : (p.run s).answer with
  | .ok _ => .isFalse fun hf => nomatch h.symm.trans hf.1
  | .error e' => decidable_of_decidable_of_iff (p := e' = e ∧ (p.run s).ahead = r)
      (by simp [Parse.Fails, h])

/-- What a reading needs and does not find. -/
inductive Want where
  | token (expected : String)
  /-- The start of a statement, whichever. -/
  | statement
  /-- One more level of subqueries. -/
  | room (limit : Nat)

/-- The fault of wanting it at a token, or at the end. -/
def Want.fault : Want → Option Token → Fault
  | .token expected, some t => .unexpectedToken expected t.text t.start
  | .token expected, none => .unexpectedEnd expected
  | .statement, t => .unrecognized (t.elim [] Token.text) (t.elim 0 Token.start)
  | .room limit, t => .tooDeep limit (t.elim 0 Token.start)

namespace Parse

variable {α β σ : Type} {s r : Ahead} {e : Fault}

theorem Fails.suffix {p : Parse α} (h : p.Fails s e r) : r <:+ s :=
  h.2 ▸ p.forward s

theorem gives_or_fails (p : Parse α) (s : Ahead) :
    (∃ a, p.Gives s a (p.run s).ahead) ∨ ∃ e, p.Fails s e (p.run s).ahead := by
  cases h : (p.run s).answer with
  | ok a => exact .inl ⟨a, h, rfl⟩
  | error e => exact .inr ⟨e, h, rfl⟩

theorem Gives.not_fails {p : Parse α} {a : α} {m : Ahead} (h : p.Gives s a m) :
    ¬ p.Fails s e r := by
  intro hf
  cases h.1.symm.trans hf.1

@[simp] theorem fails_pure {a : α} : ¬ (pure a : Parse α).Fails s e r :=
  (gives_pure.mpr ⟨rfl, rfl⟩).not_fails

@[simp] theorem fails_log {event : Event} : ¬ (log event).Fails s e r :=
  (gives_log (u := ()).mpr rfl).not_fails

@[simp] theorem fails_current : ¬ current.Fails s e r :=
  (gives_current.mpr ⟨rfl, rfl⟩).not_fails

@[simp] theorem fails_atKeyword {ks : List Keyword} : ¬ (atKeyword ks).Fails s e r :=
  (gives_atKeyword.mpr ⟨rfl, rfl⟩).not_fails

@[simp] theorem fails_trivia : ¬ trivia.Fails s e r :=
  (gives_trivia.mpr ⟨rfl, rfl⟩).not_fails

@[simp] theorem fails_take? {wanted : Token → Bool} : ¬ (take? wanted).Fails s e r := by
  cases s with
  | nil =>
    have h : (take? wanted).Gives [] none [] := ⟨rfl, rfl⟩
    exact h.not_fails
  | cons t s =>
    by_cases h : wanted t = true
    · exact (gives_take?.mpr (.inl ⟨t, rfl, rfl, h⟩)).not_fails
    · exact (gives_take?.mpr (.inr ⟨rfl, rfl, by simpa using h⟩)).not_fails

@[simp] theorem fails_bind {p : Parse α} {f : α → Parse β} :
    (p >>= f).Fails s e r ↔ p.Fails s e r ∨ ∃ a m, p.Gives s a m ∧ (f a).Fails m e r := by
  simp only [Fails, Gives, run_bind, Reply.andThen]
  cases ha : (p.run s).answer with
  | error e' => simp
  | ok a =>
    simp only [reduceCtorEq, false_and, false_or, Except.ok.injEq]
    constructor
    · intro h
      exact ⟨a, _, ⟨rfl, rfl⟩, h⟩
    · intro h
      obtain ⟨a', m, ⟨rfl, rfl⟩, h⟩ := h
      exact h

@[simp] theorem fails_map {p : Parse α} {f : α → β} : (f <$> p).Fails s e r ↔ p.Fails s e r := by
  change (p >>= fun a => pure (f a)).Fails s e r ↔ _
  simp

@[simp] theorem fails_fail {fault : Ahead → Fault} :
    (fail fault : Parse α).Fails s e r ↔ e = fault s ∧ r = s := by
  simp [Fails, fail, eq_comm]

@[simp] theorem fails_failExpecting {expected : String} :
    (failExpecting expected : Parse α).Fails s e r ↔
      e = (Want.token expected).fault s.head? ∧ r = s := by
  cases s <;> exact fails_fail

theorem fails_expect {expected : String} {wanted : Token → Bool} :
    (expect expected wanted).Fails s e r ↔
      (∀ t ∈ s.head?, wanted t = false) ∧ e = (Want.token expected).fault s.head? ∧ r = s := by
  simp only [expect, fails_bind, fails_take?, false_or, gives_take?]
  constructor
  · intro h
    obtain ⟨t, m, ⟨u, rfl, -⟩ | ⟨rfl, rfl, hn⟩, h⟩ := h
    · exact absurd h fails_pure
    · exact ⟨hn, fails_failExpecting.mp h⟩
  · intro h
    obtain ⟨hn, h⟩ := h
    exact ⟨none, s, .inr ⟨rfl, rfl, hn⟩, fails_failExpecting.mpr h⟩

/-- A run of pieces that comes to a fault in one of them. -/
inductive Breaks (stops : σ → Token → Bool) (piece : σ → Token → Parse (List α × σ)) :
    σ → Ahead → Fault → Ahead → Prop where
  | here {st : σ} {t : Token} {s r : Ahead} {e : Fault} (go : stops st t = false)
      (first : (piece st t).Fails s e r) : Breaks stops piece st (t :: s) e r
  | later {st st' : σ} {t : Token} {s m r : Ahead} {xs : List α} {e : Fault}
      (go : stops st t = false) (first : (piece st t).Gives s (xs, st') m)
      (rest : Breaks stops piece st' m e r) : Breaks stops piece st (t :: s) e r

theorem fails_collect {stops : σ → Token → Bool} {piece : σ → Token → Parse (List α × σ)} {st : σ} :
    (collect stops piece st).Fails s e r ↔ Breaks stops piece st s e r := by
  constructor
  · induction st, s using collect_induction stops with
    | nil st =>
      intro h
      rw [Fails, run_collect_nil] at h
      cases h.1
    | stop st t s stop =>
      intro h
      rw [Fails, run_collect_of_stops stop] at h
      cases h.1
    | step st t s go ih =>
      intro h
      rw [Fails, run_collect_cons go, ← Fails, fails_bind] at h
      rcases h with first | ⟨⟨xs, st'⟩, m, first, h⟩
      · exact .here go first
      · rcases fails_bind.mp h with rest | ⟨_, _, -, h⟩
        · exact .later go first (ih st' m first.suffix rest)
        · exact absurd h fails_pure
  · intro h
    induction h with
    | here go first =>
      rw [Fails, run_collect_cons go]
      exact fails_bind.mpr (.inl first)
    | later go first _ ih =>
      rw [Fails, run_collect_cons go]
      exact fails_bind.mpr (.inr ⟨_, _, first, fails_bind.mpr (.inl ih)⟩)

/-- Items after keywords, of which one comes to a fault. -/
inductive ItemsBreak (ks : List Keyword) (item : Token → Parse α) : Ahead → Fault → Ahead → Prop where
  | here {t : Token} {s r : Ahead} {e : Fault} (lead : t.isOneOf ks = true)
      (first : (item t).Fails s e r) : ItemsBreak ks item (t :: s) e r
  | later {t : Token} {s m r : Ahead} {x : α} {e : Fault} (lead : t.isOneOf ks = true)
      (first : (item t).Gives s x m) (rest : ItemsBreak ks item m e r) :
      ItemsBreak ks item (t :: s) e r

theorem fails_each {ks : List Keyword} {item : Token → Parse α} :
    (each ks item).Fails s e r ↔ ItemsBreak ks item s e r := by
  simp only [each, fails_bind, fails_pure, and_false, exists_false, or_false, fails_collect]
  constructor
  · intro h
    generalize hst : () = st at h
    clear hst
    induction h with
    | here go first => exact .here (by simpa using go) (by simpa using first)
    | @later _ _ t s m r xs e go first _ ih =>
      obtain ⟨x, m', hx, hpure⟩ := gives_bind.mp first
      obtain ⟨-, rfl⟩ := gives_pure.mp hpure
      exact .later (by simpa using go) hx ih
  · intro h
    induction h with
    | here lead first => exact .here (by simpa using lead) (by simpa using first)
    | @later t s m r x e lead first _ ih =>
      have hx : (do return ([← item t], ()) : Parse (List α × Unit)).Gives s ([x], ()) m :=
        first.bind (gives_pure.mpr ⟨rfl, rfl⟩)
      exact .later (by simpa using lead) hx ih

end Parse

open Parse

/-- In a clause only a query in parentheses can come to a fault. -/
theorem Clause.fails_piece {sub : Parse Select} {scope : Scope} {t : Token} {s r : Ahead}
    {e : Fault} :
    (piece sub scope t).Fails s e r ↔ t.isPunctuation .openParen = true ∧
      Ahead.atKeyword [.select] (s.dropWhile Token.isTrivia) = true ∧
      sub.Fails (s.dropWhile Token.isTrivia) e r := by
  unfold piece
  by_cases ho : t.isPunctuation .openParen = true
  · simp only [ho, if_true, group, fails_bind, fails_trivia, gives_trivia, fails_atKeyword,
      gives_atKeyword, false_or, true_and]
    constructor
    · intro h
      obtain ⟨gap, m, ⟨rfl, rfl⟩, b, m', ⟨rfl, rfl⟩, h⟩ := h
      split at h
      · refine ⟨‹_›, (fails_bind.mp h).resolve_right ?_⟩
        rintro ⟨q, m, -, h⟩
        obtain ⟨close, m', -, h⟩ := (fails_bind.mp h).resolve_left fails_take?
        split at h <;> exact absurd h fails_pure
      · exact absurd h fails_pure
    · intro h
      obtain ⟨select, h⟩ := h
      refine ⟨_, _, ⟨rfl, rfl⟩, _, _, ⟨rfl, rfl⟩, ?_⟩
      rw [if_pos select]
      exact fails_bind.mpr (.inl h)
  · simp [ho]

end SqlOutline
