import SqlOutline.Proofs.Fails
import SqlOutline.Proofs.ParsePrint

namespace SqlOutline
open Parse

/-- The token that spells a keyword. -/
def Token.ofKeyword (k : Keyword) : Token :=
  ⟨.keyword k, 0, k.spelling.toList⟩

@[simp] theorem Token.isKeyword_ofKeyword (k : Keyword) : (ofKeyword k).isKeyword k = true :=
  beq_self_eq_true (Kind.keyword k)

theorem Token.isOneOf_ofKeyword {k : Keyword} {ks : List Keyword} (h : k ∈ ks) :
    (ofKeyword k).isOneOf ks = true :=
  List.any_eq_true.mpr ⟨k, h, isKeyword_ofKeyword k⟩

theorem Ahead.Opens.of_ofKeyword (k : Keyword) (s : Ahead) :
    Ahead.Opens [k] (Token.ofKeyword k :: s) :=
  .of_atKeyword (Token.isOneOf_ofKeyword (List.mem_singleton_self k))

def Token.closeParen : Token :=
  ⟨.punctuation .closeParen, 0, [')']⟩

/-- The keywords with which whatever is unfinished can be finished. -/
def Keyword.finishing : List Keyword :=
  [.end, .by, .select, .insert, .default, .values, .exec, .update, .set, .delete, .merge, .using, .on,
    .when]

def Token.finishing : List Token :=
  .closeParen :: Keyword.finishing.map .ofKeyword

theorem Token.closeParen_mem_finishing : closeParen ∈ finishing :=
  List.mem_cons_self

theorem Token.ofKeyword_mem_finishing {k : Keyword} (h : k ∈ Keyword.finishing) :
    ofKeyword k ∈ finishing :=
  List.mem_cons_of_mem _ (List.mem_map_of_mem h)

/-- Reading `s` goes on to its end, whether it succeeds there or not. -/
def Parse.Drains {α : Type} (p : Parse α) (s : Ahead) : Prop :=
  (p.run s).ahead = []

namespace Parse

variable {α β σ : Type} {s m r : Ahead} {e : Fault} {p : Parse α}

theorem Gives.drains_iff {a : α} (h : p.Gives s a r) : p.Drains s ↔ r = [] := by
  rw [Drains, h.2]

theorem Fails.drains_iff (h : p.Fails s e r) : p.Drains s ↔ r = [] := by
  rw [Drains, h.2]

theorem drains_iff : p.Drains s ↔ (∃ a, p.Gives s a []) ∨ ∃ e, p.Fails s e [] := by
  constructor
  · intro h
    rcases gives_or_fails p s with ⟨a, ha⟩ | ⟨e, he⟩
    · exact .inl ⟨a, ha.1, h⟩
    · exact .inr ⟨e, he.1, h⟩
  · rintro (⟨a, ha⟩ | ⟨e, he⟩)
    · exact ha.2
    · exact he.2

theorem drains_bind {f : α → Parse β} :
    (p >>= f).Drains s ↔
      (∃ e, p.Fails s e []) ∨ ∃ a m, p.Gives s a m ∧ (f a).Drains m := by
  simp only [drains_iff, gives_bind, fails_bind]
  constructor
  · rintro (⟨b, a, m, ha, hb⟩ | ⟨e, he | ⟨a, m, ha, he⟩⟩)
    · exact .inr ⟨a, m, ha, .inl ⟨b, hb⟩⟩
    · exact .inl ⟨e, he⟩
    · exact .inr ⟨a, m, ha, .inr ⟨e, he⟩⟩
  · rintro (⟨e, he⟩ | ⟨a, m, ha, ⟨b, hb⟩ | ⟨e, he⟩⟩)
    · exact .inr ⟨e, .inl he⟩
    · exact .inl ⟨b, a, m, ha, hb⟩
    · exact .inr ⟨e, .inr ⟨a, m, ha, he⟩⟩

theorem drains_map {f : α → β} : (f <$> p).Drains s ↔ p.Drains s := by
  simp [drains_iff]

theorem not_drains_pure {a : α} (hs : s ≠ []) : ¬ (pure a : Parse α).Drains s := by
  simp [drains_iff, hs.symm]

/-- A run of pieces comes to the end where there is no piece, or in one of them, or behind it. -/
theorem drains_collect {stops : σ → Token → Bool} {piece : σ → Token → Parse (List α × σ)} {st : σ}
    (h : (collect stops piece st).Drains s) :
    s = [] ∨ ∃ t m, s = t :: m ∧ stops st t = false ∧
      ((∃ e, (piece st t).Fails m e []) ∨
        ∃ xs st' m', (piece st t).Gives m (xs, st') m' ∧ (collect stops piece st').Drains m') := by
  rcases drains_iff.mp h with ⟨⟨xs, st'⟩, h⟩ | ⟨e, h⟩
  · cases gives_collect.mp h with
    | done => exact .inl rfl
    | step go first rest =>
      exact .inr ⟨_, _, rfl, go, .inr ⟨_, _, _, first, (gives_collect.mpr rest).2⟩⟩
  · cases fails_collect.mp h with
    | here go first => exact .inr ⟨_, _, rfl, go, .inl ⟨e, first⟩⟩
    | later go first rest =>
      exact .inr ⟨_, _, rfl, go, .inr ⟨_, _, _, first, (fails_collect.mpr rest).2⟩⟩

theorem drains_each {ks : List Keyword} {item : Token → Parse α} (h : (each ks item).Drains s) :
    s = [] ∨ ∃ t m, s = t :: m ∧ t.isOneOf ks = true ∧
      ((∃ e, (item t).Fails m e []) ∨
        ∃ x m', (item t).Gives m x m' ∧ (each ks item).Drains m') := by
  rcases drains_iff.mp h with ⟨xs, h⟩ | ⟨e, h⟩
  · cases gives_each.mp h with
    | done => exact .inl rfl
    | step lead first rest =>
      exact .inr ⟨_, _, rfl, lead, .inr ⟨_, _, first, (gives_each.mpr rest).2⟩⟩
  · cases fails_each.mp h with
    | here lead first => exact .inr ⟨_, _, rfl, lead, .inl ⟨e, first⟩⟩
    | later lead first rest =>
      exact .inr ⟨_, _, rfl, lead, .inr ⟨_, _, first, (fails_each.mpr rest).2⟩⟩

/-- The tokens `x` finish the reading of `s`, provided that `next` holds of what follows them. -/
def Finishes (p : Parse α) (next : Ahead → Prop) (s : Ahead) (x : List Token) : Prop :=
  ∀ y, next y → x ⊆ Token.finishing ∧ ∃ a, p.Gives (s ++ (x ++ y)) a y

/-- With room for all parentheses to be opened, what `p` reads before the end does not depend on what
stands behind, and where `p` comes to the end some tokens finish it. -/
structure Advances (room : Nat) (p : Parse α) (next : Ahead → Prop) : Prop where
  grows ⦃s m : Ahead⦄ ⦃a : α⦄ (x : Ahead) : p.Gives s a m → m ≠ [] → Token.opened s ≤ room →
    p.Gives (s ++ x) a (m ++ x)
  closes ⦃s : Ahead⦄ : s ≠ [] → Token.opened s ≤ room → p.Drains s → ∃ x, p.Finishes next s x

/-- The same also where there is nothing to be read, and then `least` finishes it. -/
structure Completes (room : Nat) (p : Parse α) (least : List Token) (next : Ahead → Prop) : Prop
    extends p.Advances room next where
  supplied : p.Finishes next [] least

variable {room : Nat} {least least' x : List Token} {next mid : Ahead → Prop} {f : α → Parse β}

/-- What was read before does not matter to the finishing. -/
theorem Finishes.after {a : α} (hp : ∀ z, p.Gives (s ++ z) a (m ++ z))
    (h : (f a).Finishes next m x) : (p >>= f).Finishes next s x := by
  intro y hy
  obtain ⟨hx, b, hb⟩ := h y hy
  exact ⟨hx, b, (hp _).bind hb⟩

/-- Where the first part is finished, the second starts with nothing. -/
theorem Finishes.bind (hp : p.Finishes mid s x) (hf : ∀ a, (f a).Finishes next [] least)
    (link : ∀ y, next y → mid (least ++ y)) : (p >>= f).Finishes next s (x ++ least) := by
  intro y hy
  obtain ⟨hx, a, ha⟩ := hp _ (link y hy)
  obtain ⟨hl, b, hb⟩ := hf a y hy
  refine ⟨List.append_subset.mpr ⟨hx, hl⟩, b, ?_⟩
  rw [List.append_assoc]
  exact ha.bind hb

theorem Completes.finish (h : p.Completes room least next) (hroom : Token.opened s ≤ room)
    (hd : p.Drains s) : ∃ x, p.Finishes next s x := by
  by_cases hs : s = []
  · exact ⟨least, hs ▸ h.supplied⟩
  · exact h.closes hs hroom hd

theorem Advances.bind (hp : p.Advances room mid) (hf : ∀ a, (f a).Completes room least next)
    (link : ∀ y, next y → mid (least ++ y)) : (p >>= f).Advances room next where
  grows s m b x h hm hroom := by
    obtain ⟨a, m', ha, hb⟩ := gives_bind.mp h
    have hm' := hb.ne_nil hm
    have hle := Nat.le_trans (Token.opened_of_suffix ha.suffix) hroom
    exact (hp.grows x ha hm' hroom).bind ((hf a).grows x hb hm hle)
  closes s hs hroom hd := by
    -- Where the first part takes all there is, it is finished first, whether it was at fault or not.
    have drained (hd : p.Drains s) : ∃ x, (p >>= f).Finishes next s x := by
      obtain ⟨x, hx⟩ := hp.closes hs hroom hd
      exact ⟨x ++ least, hx.bind (fun a => (hf a).supplied) link⟩
    rcases drains_bind.mp hd with ⟨e, he⟩ | ⟨a, m, ha, hb⟩
    · exact drained he.2
    · by_cases hm : m = []
      · exact drained (ha.drains_iff.mpr hm)
      · have hle := Nat.le_trans (Token.opened_of_suffix ha.suffix) hroom
        obtain ⟨x, hx⟩ := (hf a).closes hm hle hb
        exact ⟨x, hx.after fun z => hp.grows z ha hm hroom⟩

theorem Completes.bind (hp : p.Completes room least mid)
    (hf : ∀ a, (f a).Completes room least' next) (link : ∀ y, next y → mid (least' ++ y)) :
    (p >>= f).Completes room (least ++ least') next where
  toAdvances := hp.toAdvances.bind hf link
  supplied := hp.supplied.bind (fun a => (hf a).supplied) link

/-- What may as well find nothing to read needs no tokens of its own. -/
theorem Completes.bind_rest (hp : p.Completes room least next)
    (hf : ∀ a, (f a).Completes room [] next) : (p >>= f).Completes room least next :=
  List.append_nil least ▸ hp.bind hf fun _ hy => hy

theorem Completes.pure (a : α) (room : Nat) (next : Ahead → Prop) :
    (Pure.pure a : Parse α).Completes room [] next where
  grows s m b x h _ _ := by
    obtain ⟨rfl, rfl⟩ := gives_pure.mp h
    exact gives_pure.mpr ⟨rfl, rfl⟩
  closes s hs _ hd := absurd hd (not_drains_pure hs)
  supplied y _ := ⟨List.nil_subset _, a, gives_pure.mpr ⟨rfl, rfl⟩⟩

theorem Finishes.map (h : p.Finishes next s x) (f : α → β) : (f <$> p).Finishes next s x := by
  intro y hy
  obtain ⟨hx, a, ha⟩ := h y hy
  exact ⟨hx, f a, gives_map.mpr ⟨a, ha, rfl⟩⟩

theorem Advances.map (h : p.Advances room next) (f : α → β) : (f <$> p).Advances room next where
  grows s m b x hb hm hroom := by
    obtain ⟨a, ha, rfl⟩ := gives_map.mp hb
    exact gives_map.mpr ⟨a, h.grows x ha hm hroom, rfl⟩
  closes s hs hroom hd := by
    obtain ⟨x, hx⟩ := h.closes hs hroom (drains_map.mp hd)
    exact ⟨x, hx.map f⟩

theorem Completes.map (h : p.Completes room least next) (f : α → β) :
    (f <$> p).Completes room least next where
  toAdvances := h.toAdvances.map f
  supplied := h.supplied.map f

/-- Where a fault leaves the stream as it is, it is none that the end causes. -/
theorem Advances.fail (fault : Ahead → Fault) (room : Nat) (next : Ahead → Prop) :
    (Parse.fail fault : Parse α).Advances room next where
  grows _ _ _ _ h := absurd h gives_fail
  closes _ hs _ hd := absurd ((fails_fail (α := α).mpr ⟨rfl, rfl⟩).drains_iff.mp hd) hs

theorem Advances.ite_atKeyword {ks : List Keyword} {q : Parse α} (hp : p.Advances room next)
    (hq : q.Advances room next) :
    (atKeyword ks >>= fun b => if b = true then p else q).Advances room next := by
  have grown {s : Ahead} (hs : s ≠ []) (x : Ahead) :
      Ahead.atKeyword ks (s ++ x) = s.atKeyword ks := by
    rw [Ahead.atKeyword, List.head?_append_of_ne_nil _ hs, Ahead.atKeyword]
  constructor
  · intro s m a x h hm hroom
    have hs := h.ne_nil hm
    rw [gives_ite_atKeyword] at h ⊢
    rw [grown hs]
    split at h
    next hk => exact (if_pos hk).mpr (hp.grows x h hm hroom)
    next hk => exact (if_neg hk).mpr (hq.grows x h hm hroom)
  · intro s hs hroom hd
    obtain ⟨b, m, hb, hd⟩ := (drains_bind.mp hd).resolve_left (not_exists.mpr fun _ => fails_atKeyword)
    obtain ⟨rfl, rfl⟩ := gives_atKeyword.mp hb
    simp only [Finishes, gives_ite_atKeyword, grown hs]
    split at hd
    next hk =>
      simp only [hk, if_true]
      exact hp.closes hs hroom hd
    next hk =>
      simp only [hk, Bool.false_eq_true, if_false]
      exact hq.closes hs hroom hd

theorem Completes.ite_atKeyword {ks : List Keyword} {q : Parse α} (hp : p.Completes room least next)
    (hq : q.Advances room next) (start : ∀ y, Ahead.atKeyword ks (least ++ y) = true) :
    (atKeyword ks >>= fun b => if b = true then p else q).Completes room least next where
  toAdvances := hp.toAdvances.ite_atKeyword hq
  supplied y hy := by
    obtain ⟨hl, a, ha⟩ := hp.supplied y hy
    exact ⟨hl, a, gives_ite_atKeyword.mpr ((if_pos (start y)).mpr ha)⟩

/-- What looks at the next token, where there is one. -/
theorem Advances.current_bind {f : Option Token → Parse α}
    (hf : ∀ t, (f (some t)).Advances room next) : (current >>= f).Advances room next := by
  have gives : ∀ s a r, (current >>= f).Gives s a r ↔ (f s.head?).Gives s a r := by
    intro s a r
    simp
  constructor
  · intro s m a x h hm hroom
    rw [gives] at h ⊢
    cases s with
    | nil => exact absurd rfl (h.ne_nil hm)
    | cons t s => exact (hf t).grows x h hm hroom
  · intro s hs hroom hd
    obtain ⟨t, m, ht, hd⟩ := (drains_bind.mp hd).resolve_left (not_exists.mpr fun _ => fails_current)
    obtain ⟨rfl, rfl⟩ := gives_current.mp ht
    simp only [Finishes, gives]
    cases m with
    | nil => exact absurd rfl hs
    | cons t m => exact (hf t).closes hs hroom hd

theorem Completes.log_bind {e : Event} {f : Unit → Parse α} (h : (f ()).Completes room least next) :
    (log e >>= f).Completes room least next := by
  have gives : ∀ s a r, (log e >>= f).Gives s a r ↔ (f ()).Gives s a r := fun _ _ _ => Iff.rfl
  have drains : ∀ s, (log e >>= f).Drains s ↔ (f ()).Drains s := fun _ => Iff.rfl
  refine ⟨⟨fun s m a x => ?_, fun s => ?_⟩, ?_⟩
  · simpa only [gives] using h.grows x
  · simpa only [Finishes, gives, drains] using @h.closes s
  · simpa only [Finishes, gives] using h.supplied

theorem Completes.trivia (room : Nat) : Parse.trivia.Completes room [] Ahead.Settled where
  grows s m ts x h hm _ := by
    obtain ⟨rfl, rfl⟩ := gives_trivia.mp h
    obtain ⟨htake, hdrop⟩ := Ahead.trivia_before (x := x) fun he => absurd he hm
    exact gives_trivia.mpr ⟨htake.symm, hdrop.symm⟩
  closes s _ _ hd := by
    refine ⟨[], fun y hy => ⟨List.nil_subset _, s.takeWhile Token.isTrivia, ?_⟩⟩
    obtain ⟨htake, hdrop⟩ := Ahead.trivia_before (s := s) fun _ => hy
    refine gives_trivia.mpr ⟨htake.symm, ?_⟩
    rw [List.nil_append, hdrop, show s.dropWhile Token.isTrivia = [] from hd, List.nil_append]
  supplied y hy :=
    ⟨List.nil_subset _, [], gives_trivia.mpr ⟨hy.trivia.1.symm, hy.trivia.2.symm⟩⟩

theorem Completes.expect (expected : String) {wanted : Token → Bool} {t : Token}
    (ht : wanted t = true) (spelled : t ∈ Token.finishing) (room : Nat) :
    (Parse.expect expected wanted).Completes room [t] fun _ => True where
  grows s m u x h _ _ := by
    obtain ⟨rfl, hu⟩ := gives_expect.mp h
    exact gives_expect.mpr ⟨rfl, hu⟩
  closes s hs _ hd := by
    rcases gives_or_fails (Parse.expect expected wanted) s with ⟨u, hu⟩ | ⟨e, he⟩
    · rw [show ((Parse.expect expected wanted).run s).ahead = [] from hd] at hu
      obtain ⟨rfl, hwu⟩ := gives_expect.mp hu
      exact ⟨[], fun y _ => ⟨List.nil_subset _, u, gives_expect.mpr ⟨rfl, hwu⟩⟩⟩
    · have hr := (fails_expect.mp he).2.2
      rw [show ((Parse.expect expected wanted).run s).ahead = [] from hd] at hr
      exact absurd hr.symm hs
  supplied y _ :=
    ⟨List.cons_subset.mpr ⟨spelled, List.nil_subset _⟩, t, gives_expect.mpr ⟨rfl, ht⟩⟩

/-- Where a token is taken if it is wanted. What is read behind it may have less room. -/
theorem Completes.take?_bind {wanted : Token → Bool} {f : Option Token → Parse α}
    (least' : List Token)
    (taken : ∀ t m, wanted t = true → Token.opened (t :: m) ≤ room →
      ∃ room', Token.opened m ≤ room' ∧ (f (some t)).Completes room' least' next)
    (left : (f none).Completes room least next)
    (start : ∀ y, next y → ∀ t ∈ (least ++ y).head?, wanted t = false) :
    (take? wanted >>= f).Completes room least next where
  grows s m a x h hm hroom := by
    obtain ⟨t, m', ht, ha⟩ := gives_bind.mp h
    rcases gives_take?.mp ht with ⟨t, rfl, rfl, hw⟩ | ⟨rfl, rfl, hn⟩
    · obtain ⟨room', hroom', hf⟩ := taken t m' hw hroom
      have htake : (take? wanted).Gives (t :: m' ++ x) (some t) (m' ++ x) :=
        gives_take?.mpr (.inl ⟨t, rfl, rfl, hw⟩)
      exact htake.bind (hf.grows x ha hm hroom')
    · have hs := ha.ne_nil hm
      have htake : (take? wanted).Gives (m' ++ x) none (m' ++ x) := by
        refine gives_take?.mpr (.inr ⟨rfl, rfl, ?_⟩)
        rwa [List.head?_append_of_ne_nil _ hs]
      exact htake.bind (left.grows x ha hm hroom)
  closes s hs hroom hd := by
    obtain ⟨t, m, ht, hf⟩ := (drains_bind.mp hd).resolve_left (not_exists.mpr fun _ => fails_take?)
    rcases gives_take?.mp ht with ⟨t, rfl, rfl, hw⟩ | ⟨rfl, rfl, hn⟩
    · obtain ⟨room', hroom', htaken⟩ := taken t m hw hroom
      obtain ⟨x, hx⟩ := htaken.finish hroom' hf
      exact ⟨x, hx.after fun z => gives_take?.mpr (.inl ⟨t, rfl, rfl, hw⟩)⟩
    · obtain ⟨x, hx⟩ := left.closes hs hroom hf
      refine ⟨x, hx.after fun z => gives_take?.mpr (.inr ⟨rfl, rfl, ?_⟩)⟩
      rwa [List.head?_append_of_ne_nil _ hs]
  supplied y hy := by
    obtain ⟨hl, a, ha⟩ := left.supplied y hy
    exact ⟨hl, a, Gives.bind (gives_take?.mpr (.inr ⟨rfl, rfl, start y hy⟩)) ha⟩

/-- Items after keywords, as many as there are. -/
theorem Completes.each {ks : List Keyword} {item : Token → Parse α}
    (h : ∀ t, t.isOneOf ks = true → (item t).Completes room least next)
    (stop : ∀ y, next y → Ahead.atKeyword ks y = false) :
    (Parse.each ks item).Completes room [] next where
  grows s m xs x hxs hm hroom := by
    rw [gives_each] at hxs ⊢
    induction hxs with
    | @done s hs =>
      refine .done ?_
      rwa [Ahead.atKeyword, List.head?_append_of_ne_nil _ hm]
    | @step t s m' r a as lead first rest ih =>
      have hm' := (gives_each.mpr rest).ne_nil hm
      have hs := Nat.le_trans (Token.opened_of_suffix (List.suffix_cons t s)) hroom
      have hle := Nat.le_trans (Token.opened_of_suffix first.suffix) hs
      exact .step lead ((h t lead).grows x first hm' hs) (ih hm hle)
  closes s _ hroom hd := by
    simp only [Finishes, gives_each]
    induction hl : s.length using Nat.strongRecOn generalizing s with
    | ind l ih =>
      rcases drains_each hd with rfl | ⟨t, s, rfl, lead, hitem⟩
      · exact ⟨[], fun y hy => ⟨List.nil_subset _, [], .done (stop y hy)⟩⟩
      · have hs := Nat.le_trans (Token.opened_of_suffix (List.suffix_cons t s)) hroom
        have drained (hd : (item t).Drains s) : ∃ x, ∀ y, next y →
            x ⊆ Token.finishing ∧ ∃ as, Items ks item (t :: s ++ (x ++ y)) as y := by
          obtain ⟨x, hx⟩ := (h t lead).finish hs hd
          refine ⟨x, fun y hy => ?_⟩
          obtain ⟨hsub, a, ha⟩ := hx y hy
          exact ⟨hsub, [a], .step lead ha (.done (stop y hy))⟩
        rcases hitem with ⟨e, he⟩ | ⟨a, m, ha, hd'⟩
        · exact drained he.2
        · by_cases hm : m = []
          · exact drained (ha.drains_iff.mpr hm)
          · have hle := Nat.le_trans (Token.opened_of_suffix ha.suffix) hs
            have hlt : m.length < l := hl ▸ Nat.lt_succ_of_le ha.suffix.length_le
            obtain ⟨x, hx⟩ := ih _ hlt m hm hle hd' rfl
            refine ⟨x, fun y hy => ?_⟩
            obtain ⟨hsub, as, has⟩ := hx y hy
            exact ⟨hsub, a :: as, .step lead ((h t lead).grows (x ++ y) ha hm hs) has⟩
  supplied y hy := ⟨List.nil_subset _, [], gives_each.mpr (.done (stop y hy))⟩

end Parse

end SqlOutline
