import SqlOutline.Parse.Progress
import SqlOutline.Proofs.Alike
import SqlOutline.Proofs.Choice
import SqlOutline.Proofs.Segments

namespace SqlOutline
open Parse

theorem Parse.Gives.length_lt {α : Type} {p : Parse α} {s r : Ahead} {a : α} (h : p.Gives s a r)
    (hp : p.Progresses) : r.length < s.length :=
  h.2 ▸ hp s a h.1

namespace Ahead

/-- Neither whitespace nor a comment stands next. -/
def Settled (s : Ahead) : Prop :=
  ∀ t ∈ s.head?, t.isTrivia = false

theorem settled_dropWhile (s : Ahead) : Settled (s.dropWhile Token.isTrivia) := by
  intro t ht
  have h := List.head?_dropWhile_not Token.isTrivia s
  rw [ht] at h
  simpa using h

theorem Settled.trivia {s : Ahead} (h : s.Settled) :
    s.takeWhile Token.isTrivia = [] ∧ s.dropWhile Token.isTrivia = s := by
  cases s with
  | nil => exact ⟨rfl, rfl⟩
  | cons t s =>
    have ht : ¬ t.isTrivia = true := by simp [h t rfl]
    exact ⟨List.takeWhile_cons_of_neg ht, List.dropWhile_cons_of_neg ht⟩

/-- What follows `s` takes no part in the trivia at its front, unless it goes on with more of
them. -/
theorem trivia_before {s x : Ahead} (h : s.dropWhile Token.isTrivia = [] → x.Settled) :
    (s ++ x).takeWhile Token.isTrivia = s.takeWhile Token.isTrivia ∧
      (s ++ x).dropWhile Token.isTrivia = s.dropWhile Token.isTrivia ++ x := by
  induction s with
  | nil => exact (h rfl).trivia
  | cons t s ih =>
    by_cases ht : t.isTrivia = true
    · simp only [List.cons_append, List.dropWhile_cons_of_pos ht, List.takeWhile_cons_of_pos ht]
        at h ⊢
      obtain ⟨htake, hdrop⟩ := ih h
      exact ⟨congrArg _ htake, hdrop⟩
    · simp only [List.cons_append, List.dropWhile_cons_of_neg ht, List.takeWhile_cons_of_neg ht,
        and_self]

/-- How two streams go on next to each other. Both have a token of the same kind, or both have
ended, or the second has ended where the first must not be read further. Only behind an opening
parenthesis may the level go down. -/
inductive Beside (rel : Nat → Ahead → Ahead → Prop) (same : List Token → List Token → Prop)
    (live : Ahead → Prop) (n : Nat) : Ahead → Ahead → Prop where
  | token {t t' : Token} {s s' : Ahead} (kind : t'.kind = t.kind) (one : same [t] [t'])
      (rest : rel n s s')
      (inner : t.isPunctuation .openParen = true → ∀ m, n = m + 1 → rel m s s') :
      Beside rel same live n (t :: s) (t' :: s')
  | ended {s s' : Ahead} (left : s.Ended) (right : s'.Ended) : Beside rel same live n s s'
  | beyond {s s' : Ahead} (last : ∀ r, r <:+ s → live r → r = s) (right : s'.Ended) :
      Beside rel same live n s s'

end Ahead

/-- Two streams of tokens that are read side by side, the second as the first is. Only what of the
first is `live` counts, so the streams may differ behind it. The level is for what has to shrink from
one query to those inside it. -/
structure Coupling where
  rel : Nat → Ahead → Ahead → Prop
  /-- What was read of the one and of the other. -/
  same : List Token → List Token → Prop
  live : Ahead → Prop
  same_nil : same [] []
  same_append {ts us ts' us' : List Token} :
    same ts ts' → same us us' → same (ts ++ us) (ts' ++ us')
  live_of_suffix {r s : Ahead} : r <:+ s → live r → live s
  rel_succ {n : Nat} {s s' : Ahead} : rel n s s' → rel (n + 1) s s'
  gap {n : Nat} {s s' : Ahead} : rel n s s' → live (s.dropWhile Token.isTrivia) →
    same (s.takeWhile Token.isTrivia) (s'.takeWhile Token.isTrivia) ∧
      rel n (s.dropWhile Token.isTrivia) (s'.dropWhile Token.isTrivia)
  beside {n : Nat} {s s' : Ahead} : rel n s s' → live s → s.Settled → s'.Settled →
    Ahead.Beside rel same live n s s'

namespace Coupling

variable {α α' β β' : Type} {J : Coupling} {n : Nat}

/-- Neither of two coupled streams has trivia next. -/
structure Met (J : Coupling) (n : Nat) (s s' : Ahead) : Prop where
  rel : J.rel n s s'
  left : s.Settled
  right : s'.Settled

theorem Met.beside {s s' : Ahead} (h : J.Met n s s') (live : J.live s) :
    Ahead.Beside J.rel J.same J.live n s s' :=
  J.beside h.rel live h.left h.right

theorem Met.succ {s s' : Ahead} (h : J.Met n s s') : J.Met (n + 1) s s' :=
  ⟨J.rel_succ h.rel, h.left, h.right⟩

/-- Whatever `p` gives on the first stream `q` gives the like of on the second. -/
def Runs (J : Coupling) (pre : Ahead → Ahead → Prop) (p : Parse α) (q : Parse β)
    (out : α → β → Prop) (post : Ahead → Ahead → Prop) : Prop :=
  ∀ ⦃s s' : Ahead⦄ ⦃a : α⦄ ⦃r : Ahead⦄, pre s s' → p.Gives s a r → J.live r →
    ∃ b r', q.Gives s' b r' ∧ out a b ∧ post r r'

namespace Runs

variable {pre mid post post' : Ahead → Ahead → Prop} {p p' : Parse α} {q q' : Parse β}
  {out : α → β → Prop} {out' : α' → β' → Prop}

theorem pure {a : α} {b : β} (h : out a b) :
    J.Runs pre (Pure.pure a : Parse α) (Pure.pure b : Parse β) out pre := by
  intro s s' c r hs hc _
  obtain ⟨rfl, rfl⟩ := gives_pure.mp hc
  exact ⟨b, s', gives_pure.mpr ⟨rfl, rfl⟩, h, hs⟩

theorem bind {f : α → Parse α'} {g : β → Parse β'} (hp : J.Runs pre p q out mid)
    (hf : ∀ a b, out a b → J.Runs mid (f a) (g b) out' post) :
    J.Runs pre (p >>= f) (q >>= g) out' post := by
  intro s s' c r hs h live
  obtain ⟨a, m, ha, hc⟩ := gives_bind.mp h
  obtain ⟨b, m', hb, hab, hm⟩ := hp hs ha (J.live_of_suffix hc.suffix live)
  obtain ⟨d, r', hd, hcd, hr⟩ := hf a b hab hm hc live
  exact ⟨d, r', hb.bind hd, hcd, hr⟩

theorem mono (hp : J.Runs pre p q out post) (h : ∀ s s', post s s' → post' s s') :
    J.Runs pre p q out post' := by
  intro s s' a r hs ha live
  obtain ⟨b, r', hb, hab, hr⟩ := hp hs ha live
  exact ⟨b, r', hb, hab, h _ _ hr⟩

theorem of_imp {pre' : Ahead → Ahead → Prop} (hp : J.Runs pre p q out post)
    (h : ∀ s s', pre' s s' → pre s s') : J.Runs pre' p q out post :=
  fun _ _ _ _ hs ha live => hp (h _ _ hs) ha live

theorem fail {fault : Ahead → Fault} : J.Runs pre (Parse.fail fault : Parse α) q out post :=
  fun _ _ _ _ _ h => absurd h gives_fail

theorem log (e e' : Event) : J.Runs pre (Parse.log e) (Parse.log e') (fun _ _ => True) pre := by
  intro s s' u r hs h _
  obtain rfl := gives_log.mp h
  exact ⟨(), s', gives_log.mpr rfl, trivial, hs⟩

theorem trivia : J.Runs (J.rel n) trivia trivia J.same (J.Met n) := by
  intro s s' ts r hs h live
  obtain ⟨rfl, rfl⟩ := gives_trivia.mp h
  obtain ⟨same, rel⟩ := J.gap hs live
  exact ⟨_, _, gives_trivia.mpr ⟨rfl, rfl⟩, same, rel, Ahead.settled_dropWhile s,
    Ahead.settled_dropWhile s'⟩

end Runs

end Coupling

/-- What is wanted of a token is a matter of its kind, and no semicolon is wanted. -/
def Token.Marks (wanted : Token → Bool) : Prop :=
  ∃ v : Kind → Bool, (∀ t, wanted t = v t.kind) ∧ v (.punctuation .semicolon) = false

namespace Token

theorem marks_isOneOf (ks : List Keyword) : Marks (·.isOneOf ks) :=
  ⟨fun kind => ks.any fun k => decide (kind = .keyword k), fun _ => rfl, by simp⟩

theorem marks_isKeyword (k : Keyword) : Marks (·.isKeyword k) :=
  ⟨fun kind => decide (kind = .keyword k), fun _ => rfl, by simp⟩

theorem marks_isPunctuation {p : Punctuation} (h : p ≠ .semicolon) : Marks (·.isPunctuation p) :=
  ⟨fun kind => decide (kind = .punctuation p), fun _ => rfl, by simpa using h.symm⟩

theorem marks_not_semicolon : Marks (!·.isPunctuation .semicolon) :=
  ⟨fun kind => !decide (kind = .punctuation .semicolon), fun _ => rfl, by simp⟩

variable {wanted : Token → Bool} {t t' : Token}

theorem Marks.congr (hw : Marks wanted) (h : t'.kind = t.kind) : wanted t' = wanted t := by
  obtain ⟨v, hv, -⟩ := hw
  rw [hv, hv, h]

theorem Marks.of_ended {s : Ahead} (hw : Marks wanted) (h : s.Ended) :
    ∀ t ∈ s.head?, wanted t = false := by
  intro t ht
  obtain ⟨v, hv, hs⟩ := hw
  have hk : t.kind = .punctuation .semicolon := by simpa [isPunctuation] using h t ht
  rw [hv, hk, hs]

end Token

namespace Coupling

variable {α α' β β' : Type} {J : Coupling} {n : Nat} {s s' r : Ahead}

/-- Where the first stream may be read on and the next token is wanted, the second has such a token
as well. -/
theorem Met.token {wanted : Token → Bool} (h : J.Met n s s') (hw : Token.Marks wanted) {t : Token}
    {m : Ahead} (hs : s = t :: m) (ht : wanted t = true) (hr : r <:+ m) (live : J.live r) :
    ∃ t' m', s' = t' :: m' ∧ t'.kind = t.kind ∧ J.same [t] [t'] ∧ J.rel n m m' ∧
      (t.isPunctuation .openParen = true → ∀ k, n = k + 1 → J.rel k m m') := by
  subst hs
  have hrs : r <:+ t :: m := hr.trans (List.suffix_cons t m)
  cases h.beside (J.live_of_suffix hrs live) with
  | token kind one rest inner => exact ⟨_, _, rfl, kind, one, rest, inner⟩
  | ended left _ =>
    have := hw.of_ended left t rfl
    simp [ht] at this
  | beyond last _ =>
    have := congrArg List.length (last r hrs live)
    have := hr.length_le
    simp at *
    omega

/-- Where the next token of the first stream is not wanted, that of the second is not either. -/
theorem Met.none {wanted : Token → Bool} (h : J.Met n s s') (hw : Token.Marks wanted)
    (live : J.live s) (hs : ∀ t ∈ s.head?, wanted t = false) :
    ∀ t ∈ s'.head?, wanted t = false := by
  cases h.beside live with
  | token kind =>
    intro u hu
    cases hu
    rw [hw.congr kind]
    exact hs _ rfl
  | ended _ right | beyond _ right => exact hw.of_ended right

namespace Runs

variable {post : Ahead → Ahead → Prop} {out : α → β → Prop}

theorem expect (expected : String) {wanted : Token → Bool} (hw : Token.Marks wanted) :
    J.Runs (J.Met n) (Parse.expect expected wanted) (Parse.expect expected wanted)
      (fun t t' => t'.kind = t.kind ∧ J.same [t] [t']) (J.rel n) := by
  intro s s' t r hs h live
  obtain ⟨rfl, ht⟩ := gives_expect.mp h
  obtain ⟨t', m', rfl, kind, one, rest, -⟩ := hs.token hw rfl ht (List.suffix_refl r) live
  exact ⟨t', m', gives_expect.mpr ⟨rfl, by rwa [hw.congr kind]⟩, ⟨kind, one⟩, rest⟩

theorem take?_bind {wanted : Token → Bool} (hw : Token.Marks wanted)
    {f : Option Token → Parse α} {g : Option Token → Parse β}
    (taken : ∀ t t', wanted t = true → t'.kind = t.kind → J.same [t] [t'] →
      J.Runs (fun s s' => J.rel n s s' ∧
        (t.isPunctuation .openParen = true → ∀ k, n = k + 1 → J.rel k s s'))
        (f (some t)) (g (some t')) out post)
    (left : J.Runs (J.Met n) (f none) (g none) out post) :
    J.Runs (J.Met n) (take? wanted >>= f) (take? wanted >>= g) out post := by
  intro s s' a r hs h live
  obtain ⟨t, m, ht, ha⟩ := gives_bind.mp h
  rcases gives_take?.mp ht with ⟨t, rfl, hm, hwt⟩ | ⟨rfl, rfl, hn⟩
  · obtain ⟨t', m', rfl, kind, one, rest, inner⟩ := hs.token hw hm hwt ha.suffix live
    obtain ⟨b, r', hb, hab, hr⟩ := taken t t' hwt kind one ⟨rest, inner⟩ ha live
    have hwt' : wanted t' = true := by rwa [hw.congr kind]
    have htake : (take? wanted).Gives (t' :: m') (some t') m' :=
      gives_take?.mpr (.inl ⟨t', rfl, rfl, hwt'⟩)
    exact ⟨b, r', htake.bind hb, hab, hr⟩
  · have hn' := hs.none hw (J.live_of_suffix ha.suffix live) hn
    obtain ⟨b, r', hb, hab, hr⟩ := left hs ha live
    have htake : (take? wanted).Gives s' none s' := gives_take?.mpr (.inr ⟨rfl, rfl, hn'⟩)
    exact ⟨b, r', htake.bind hb, hab, hr⟩

end Runs

theorem Met.atKeyword (ks : List Keyword) (h : J.Met n s s') (live : J.live r) (hr : r <:+ s)
    (hlt : s.atKeyword ks = true → r.length < s.length) :
    s'.atKeyword ks = s.atKeyword ks := by
  have hw := Token.marks_isOneOf ks
  cases hs : s.atKeyword ks with
  | false =>
    have hn := Ahead.atKeyword_eq_false_iff.mp hs
    exact Ahead.atKeyword_eq_false_iff.mpr (h.none hw (J.live_of_suffix hr live) hn)
  | true =>
    cases s with
    | nil => simp [Ahead.atKeyword] at hs
    | cons t m =>
      have ht : t.isOneOf ks = true := hs
      have hm : r <:+ m := (List.suffix_cons_iff.mp hr).resolve_left fun he =>
        Nat.ne_of_lt (hlt hs) (congrArg List.length he)
      obtain ⟨t', m', rfl, kind, -⟩ := h.token hw rfl ht hm live
      exact (hw.congr kind).trans ht

theorem Runs.ite_atKeyword {post : Ahead → Ahead → Prop} {out : α → β → Prop} {ks : List Keyword}
    {p q : Parse α} {p' q' : Parse β} (progress : p.Progresses)
    (hp : J.Runs (J.Met n) p p' out post) (hq : J.Runs (J.Met n) q q' out post) :
    J.Runs (J.Met n) (Parse.atKeyword ks >>= fun b => if b = true then p else q)
      (Parse.atKeyword ks >>= fun b => if b = true then p' else q') out post := by
  intro s s' a r hs h live
  rw [gives_ite_atKeyword] at h
  simp only [gives_ite_atKeyword]
  by_cases hk : s.atKeyword ks = true
  · rw [if_pos hk] at h
    simp only [hs.atKeyword ks live h.suffix fun _ => h.length_lt progress, hk, if_true]
    exact hp hs h live
  · rw [if_neg hk] at h
    simp only [hs.atKeyword ks live h.suffix fun hf => absurd hf hk, hk]
    exact hq hs h live

/-- Items after keywords go side by side if each single one does. -/
theorem Runs.each {ks : List Keyword} {item : Token → Parse α} {item' : Token → Parse β}
    {out : α → β → Prop}
    (h : ∀ t t', t.isOneOf ks = true → t'.kind = t.kind → J.same [t] [t'] →
      J.Runs (J.rel n) (item t) (item' t') out (J.Met n)) :
    J.Runs (J.Met n) (Parse.each ks item) (Parse.each ks item') (List.Forall₂ out) (J.Met n) := by
  intro s s' xs r hs hxs live
  replace hxs := gives_each.mp hxs
  simp only [gives_each]
  induction hxs generalizing s' with
  | @done s stop =>
    refine ⟨[], s', .done ?_, .nil, hs⟩
    exact (hs.atKeyword ks live (List.suffix_refl s) fun hk => by simp [hk] at stop).trans stop
  | @step t s m r x xs lead first rest ih =>
    have hm : r <:+ m := (gives_each.mpr rest).suffix
    have hw := Token.marks_isOneOf ks
    obtain ⟨t', s', rfl, kind, one, rel, -⟩ := hs.token hw rfl lead (hm.trans first.suffix) live
    obtain ⟨y, m', hy, hxy, hmet⟩ := h t t' lead kind one rel first (J.live_of_suffix hm live)
    obtain ⟨ys, r', hys, hxys, hr⟩ := ih hmet live
    exact ⟨y :: ys, r', .step ((hw.congr kind).trans lead) hy hys, .cons hxy hxys, hr⟩

end Coupling

end SqlOutline
