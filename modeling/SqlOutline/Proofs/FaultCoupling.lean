import SqlOutline.Proofs.Fails
import SqlOutline.Proofs.StatementCoupling

namespace SqlOutline
open Parse

namespace Clause

variable {sub : Parse Select} {kind : ClauseKind} {scope : Scope} {s r : Ahead} {e : Fault}

/-- No fault arises in the trivia of a clause. -/
theorem breaks_cons_iff_of_isTrivia {t : Token} (ht : t.isTrivia = true) :
    Breaks kind.rule.stops (piece sub) scope (t :: s) e r ↔
      Breaks kind.rule.stops (piece sub) scope s e r := by
  have ho := Token.isPunctuation_of_isTrivia ht .openParen
  have hs := Scope.after_of_isTrivia ht scope
  constructor
  · intro h
    cases h with
    | here go first =>
      rw [(fails_piece.mp first).1] at ho
      contradiction
    | later go first rest =>
      cases gives_piece.mp first with
      | token single => rwa [hs] at rest
      | query opening | cut opening | group opening => simp [ho] at opening
  · intro h
    have go : kind.rule.stops scope t = false := Bool.eq_false_iff.mpr fun h => by
      simp [ClauseRule.not_isTrivia_of_stops h] at ht
    rw [← hs] at h
    exact .later go (gives_piece.mpr (.token ho)) h

theorem breaks_gap_iff :
    Breaks kind.rule.stops (piece sub) scope s e r ↔
      Breaks kind.rule.stops (piece sub) scope (s.dropWhile Token.isTrivia) e r := by
  induction s with
  | nil => rfl
  | cons t s ih =>
    by_cases ht : t.isTrivia = true
    · rw [List.dropWhile_cons_of_pos ht, breaks_cons_iff_of_isTrivia ht, ih]
    · rw [List.dropWhile_cons_of_neg ht]

end Clause

namespace Coupling
open Clause

variable {α α' β β' : Type} {J : Coupling} {n : Nat} {s s' r : Ahead} {e : Fault}

/-- As long as the first stream is live, neither ends before the other, and their next tokens are of
one kind. -/
def Faithful (J : Coupling) : Prop :=
  ∀ ⦃n : Nat⦄ ⦃s s' : Ahead⦄, J.Met n s s' → J.live s →
    s = [] ∧ s' = [] ∨ ∃ t t' m m', s = t :: m ∧ s' = t' :: m' ∧ t'.kind = t.kind ∧
      J.same [t] [t'] ∧ J.rel n m m'

theorem Faithful.head? (hJ : J.Faithful) (hs : J.Met n s s') (live : J.live s) :
    s'.head?.map Token.kind = s.head?.map Token.kind := by
  rcases hJ hs live with ⟨rfl, rfl⟩ | ⟨t, t', m, m', rfl, rfl, hk, -⟩
  · rfl
  · exact congrArg some hk

theorem Faithful.all_head? (hJ : J.Faithful) (hs : J.Met n s s') (live : J.live s)
    {wanted : Token → Bool} (hw : Token.Marks wanted) (h : ∀ t ∈ s.head?, wanted t = false) :
    ∀ t ∈ s'.head?, wanted t = false := by
  intro t' ht'
  have hk := hJ.head? hs live
  rw [ht'] at hk
  obtain ⟨t, ht, hkind⟩ := Option.map_eq_some_iff.mp hk.symm
  rw [hw.congr hkind.symm]
  exact h t ht

theorem Faithful.atKeyword (hJ : J.Faithful) (hs : J.Met n s s') (live : J.live s)
    (ks : List Keyword) : s'.atKeyword ks = s.atKeyword ks := by
  have hk := hJ.head? hs live
  cases s <;> cases s' <;> simp only [List.head?_nil, List.head?_cons, Option.map_none,
    Option.map_some, Option.some.injEq, reduceCtorEq] at hk
  · rfl
  · exact (Token.marks_isOneOf ks).congr hk

/-- The fault `e` at `r` has its like where `q` reads `s'`: a fault next to it and for want of the
same. At the end nothing but a token can be wanting. -/
def Echoes (J : Coupling) (n : Nat) (e : Fault) (r : Ahead) (q : Parse β) (s' : Ahead) : Prop :=
  ∃ (want : Want) (r' : Ahead), e = want.fault r.head? ∧ q.Fails s' (want.fault r'.head?) r' ∧
    J.Met n r r' ∧ (r = [] → ∃ expected, want = .token expected)

theorem Echoes.of_imp {q : Parse β} {q' : Parse β'} {s'' : Ahead} (h : J.Echoes n e r q s')
    (hq : ∀ e' r', q.Fails s' e' r' → q'.Fails s'' e' r') : J.Echoes n e r q' s'' := by
  obtain ⟨want, r', he, hf, hr⟩ := h
  exact ⟨want, r', he, hq _ _ hf, hr⟩

theorem Echoes.succ {q : Parse β} (h : J.Echoes n e r q s') : J.Echoes (n + 1) e r q s' := by
  obtain ⟨want, r', he, hf, met, hend⟩ := h
  exact ⟨want, r', he, hf, met.succ, hend⟩

theorem Echoes.of_token {q : Parse β} {expected : String} (hs : J.Met n s s')
    (he : e = (Want.token expected).fault s.head?)
    (hq : q.Fails s' ((Want.token expected).fault s'.head?) s') : J.Echoes n e s q s' :=
  ⟨.token expected, s', he, hq, hs, fun _ => ⟨expected, rfl⟩⟩

/-- Where `p` comes to a fault on the first stream, `q` comes to its like on the second. -/
def Faults (J : Coupling) (n : Nat) (pre : Ahead → Ahead → Prop) (p : Parse α) (q : Parse β) : Prop :=
  ∀ ⦃s s' : Ahead⦄ ⦃e : Fault⦄ ⦃r : Ahead⦄, pre s s' → p.Fails s e r → J.live r →
    J.Echoes n e r q s'

namespace Faults

variable {pre mid : Ahead → Ahead → Prop} {p : Parse α} {q : Parse β}

theorem of_never (h : ∀ s e r, ¬ p.Fails s e r) : J.Faults n pre p q :=
  fun s _ e r _ hf => absurd hf (h s e r)

theorem pure {a : α} : J.Faults n pre (Pure.pure a : Parse α) q :=
  of_never fun _ _ _ => fails_pure

theorem log {event : Event} : J.Faults n pre (Parse.log event) q :=
  of_never fun _ _ _ => fails_log

theorem trivia : J.Faults n pre Parse.trivia q :=
  of_never fun _ _ _ => fails_trivia

theorem bind {out : α → β → Prop} {f : α → Parse α'} {g : β → Parse β'}
    (runs : J.Runs pre p q out mid) (faults : J.Faults n pre p q)
    (hf : ∀ a b, out a b → J.Faults n mid (f a) (g b)) :
    J.Faults n pre (p >>= f) (q >>= g) := by
  intro s s' e r hs h live
  rcases fails_bind.mp h with h | ⟨a, m, ha, h⟩
  · exact (faults hs h live).of_imp fun _ _ hq => fails_bind.mpr (.inl hq)
  · obtain ⟨b, m', hb, hab, hm⟩ := runs hs ha (J.live_of_suffix h.suffix live)
    exact (hf a b hab hm h live).of_imp fun _ _ hq => fails_bind.mpr (.inr ⟨b, m', hb, hq⟩)

theorem map {f : α → α'} {g : β → β'} (h : J.Faults n pre p q) :
    J.Faults n pre (f <$> p) (g <$> q) :=
  fun _ _ _ _ hs hf live => (h hs (fails_map.mp hf) live).of_imp fun _ _ => fails_map.mpr

theorem of_imp {pre' : Ahead → Ahead → Prop} (h : J.Faults n pre p q)
    (hp : ∀ s s', pre' s s' → pre s s') : J.Faults n pre' p q :=
  fun _ _ _ _ hs hf live => h (hp _ _ hs) hf live

theorem succ (h : J.Faults n pre p q) : J.Faults (n + 1) pre p q :=
  fun _ _ _ _ hs hf live => (h hs hf live).succ

theorem failExpecting (expected : String) :
    J.Faults n (J.Met n) (Parse.failExpecting expected : Parse α)
      (Parse.failExpecting expected : Parse β) := by
  intro s s' e r hs h live
  obtain ⟨he, rfl⟩ := fails_failExpecting.mp h
  exact .of_token hs he (fails_failExpecting.mpr ⟨rfl, rfl⟩)

theorem expect (hJ : J.Faithful) (expected : String) {wanted : Token → Bool}
    (hw : Token.Marks wanted) :
    J.Faults n (J.Met n) (Parse.expect expected wanted) (Parse.expect expected wanted) := by
  intro s s' e r hs h live
  obtain ⟨hn, he, rfl⟩ := fails_expect.mp h
  exact .of_token hs he (fails_expect.mpr ⟨hJ.all_head? hs live hw hn, rfl, rfl⟩)

theorem take?_bind {wanted : Token → Bool} (hw : Token.Marks wanted)
    {f : Option Token → Parse α} {g : Option Token → Parse β}
    (taken : ∀ t t', wanted t = true → t'.kind = t.kind → J.same [t] [t'] →
      J.Faults n (fun s s' => J.rel n s s' ∧
        (t.isPunctuation .openParen = true → ∀ k, n = k + 1 → J.rel k s s'))
        (f (some t)) (g (some t')))
    (left : J.Faults n (J.Met n) (f none) (g none)) :
    J.Faults n (J.Met n) (take? wanted >>= f) (take? wanted >>= g) := by
  intro s s' e r hs h live
  obtain ⟨t, m, ht, hf⟩ := (fails_bind.mp h).resolve_left fails_take?
  rcases gives_take?.mp ht with ⟨t, rfl, hm, hwt⟩ | ⟨rfl, rfl, hn⟩
  · obtain ⟨t', m', rfl, kind, one, rest, inner⟩ := hs.token hw hm hwt hf.suffix live
    have htake : (take? wanted).Gives (t' :: m') (some t') m' :=
      gives_take?.mpr (.inl ⟨t', rfl, rfl, (hw.congr kind).trans hwt⟩)
    exact (taken t t' hwt kind one ⟨rest, inner⟩ hf live).of_imp fun _ _ hq =>
      fails_bind.mpr (.inr ⟨_, _, htake, hq⟩)
  · have hn' := hs.none hw (J.live_of_suffix hf.suffix live) hn
    have htake : (take? wanted).Gives s' none s' := gives_take?.mpr (.inr ⟨rfl, rfl, hn'⟩)
    exact (left hs hf live).of_imp fun _ _ hq => fails_bind.mpr (.inr ⟨_, _, htake, hq⟩)

/-- A choice by the next keyword falls the same way on both sides, and what is chosen knows of the
keyword. -/
theorem ite_atKeyword (hJ : J.Faithful) {ks : List Keyword} {p q : Parse α} {p' q' : Parse β}
    (hp : J.Faults n (fun s s' => J.Met n s s' ∧ s.atKeyword ks = true) p p')
    (hq : J.Faults n (J.Met n) q q') :
    J.Faults n (J.Met n) (Parse.atKeyword ks >>= fun b => if b = true then p else q)
      (Parse.atKeyword ks >>= fun b => if b = true then p' else q') := by
  intro s s' e r hs h live
  obtain ⟨b, m, hb, h⟩ := (fails_bind.mp h).resolve_left fails_atKeyword
  obtain ⟨rfl, rfl⟩ := gives_atKeyword.mp hb
  have hk := hJ.atKeyword hs (J.live_of_suffix h.suffix live) ks
  have hb' : (Parse.atKeyword ks).Gives s' (Ahead.atKeyword ks m) s' :=
    gives_atKeyword.mpr ⟨hk.symm, rfl⟩
  split at h
  · refine (hp ⟨hs, ‹_›⟩ h live).of_imp fun _ _ hf => fails_bind.mpr (.inr ⟨_, _, hb', ?_⟩)
    rwa [if_pos ‹_›]
  · refine (hq hs h live).of_imp fun _ _ hf => fails_bind.mpr (.inr ⟨_, _, hb', ?_⟩)
    rwa [if_neg ‹_›]

theorem each {ks : List Keyword} {item : Token → Parse α} {item' : Token → Parse β}
    {out : α → β → Prop}
    (runs : ∀ t t', t.isOneOf ks = true → t'.kind = t.kind → J.same [t] [t'] →
      J.Runs (J.rel n) (item t) (item' t') out (J.Met n))
    (faults : ∀ t t', t.isOneOf ks = true → t'.kind = t.kind → J.same [t] [t'] →
      J.Faults n (J.rel n) (item t) (item' t')) :
    J.Faults n (J.Met n) (Parse.each ks item) (Parse.each ks item') := by
  intro s s' e r hs h live
  replace h := fails_each.mp h
  have hw := Token.marks_isOneOf ks
  induction h generalizing s' with
  | @here t s r e lead first =>
    obtain ⟨t', m', rfl, kind, one, rest, -⟩ := hs.token hw rfl lead first.suffix live
    have lead' := (hw.congr kind).trans lead
    exact (faults t t' lead kind one rest first live).of_imp fun _ _ hq =>
      fails_each.mpr (.here lead' hq)
  | @later t s m r x e lead first rest ih =>
    have hm : r <:+ m := (fails_each.mpr rest).suffix
    obtain ⟨t', m', rfl, kind, one, rel, -⟩ := hs.token hw rfl lead (hm.trans first.suffix) live
    have lead' := (hw.congr kind).trans lead
    obtain ⟨y, m'', hy, -, met⟩ := runs t t' lead kind one rel first (J.live_of_suffix hm live)
    exact (ih met live).of_imp fun _ _ hq => fails_each.mpr (.later lead' hy (fails_each.mp hq))

end Faults

/-- Two parses of subqueries that go side by side one level down, also where they come to a fault. -/
structure Queries (J : Coupling) (n : Nat) (sub sub' : Parse Select) : Prop extends
    J.Subs n sub sub' where
  faults : J.Faults n (fun s s' => J.Met n s s' ∧ s.atKeyword [.select] = true) sub sub'

namespace Queries

variable {sub sub' : Parse Select} {kind : ClauseKind} {scope : Scope} {t t' : Token}
  (hsub : J.Queries n sub sub') (hJ : J.Faithful)
include hsub hJ

theorem piece (h : (Clause.piece sub scope t).Fails s e r) (live : J.live r)
    (hk : t'.kind = t.kind) (inner : t.isPunctuation .openParen = true → J.rel n s s') :
    J.Echoes n e r (Clause.piece sub' scope t') s' := by
  obtain ⟨opening, select, h⟩ := fails_piece.mp h
  have hopen := (Token.marks_isPunctuation (p := .openParen) (by decide)).congr hk
  have live' := J.live_of_suffix h.suffix live
  obtain ⟨-, met⟩ := Met.of_gap (inner opening) live'
  have select' := (hJ.atKeyword met live' [.select]).trans select
  exact (hsub.faults ⟨met, select⟩ h live).of_imp fun _ _ hq =>
    fails_piece.mpr ⟨hopen.trans opening, select', hq⟩

/-- The induction is on what is left of the first stream, as where both bodies are read. -/
theorem collect (kind : ClauseKind) (scope : Scope) :
    J.Faults (n + 1) (J.rel (n + 1)) (Parse.collect kind.rule.stops (Clause.piece sub) scope)
      (Parse.collect kind.rule.stops (Clause.piece sub') scope) := by
  intro s s' e r hs h live
  replace h := fails_collect.mp h
  induction hl : s.length using Nat.strongRecOn generalizing scope s s' with
  | ind l ih =>
    have hgap := breaks_gap_iff.mp h
    have hr := (fails_collect.mpr hgap).suffix
    obtain ⟨-, met⟩ := Met.of_gap hs (J.live_of_suffix hr live)
    have hlen := (List.dropWhile_suffix Token.isTrivia (l := s)).length_le
    suffices key : J.Echoes (n + 1) e r (Parse.collect kind.rule.stops (Clause.piece sub') scope)
        (s'.dropWhile Token.isTrivia) from
      key.of_imp fun _ _ hq => fails_collect.mpr (breaks_gap_iff.mpr (fails_collect.mp hq))
    clear h
    generalize s.dropWhile Token.isTrivia = s at *
    generalize s'.dropWhile Token.isTrivia = s' at *
    cases hgap with
    | @here _ t s _ _ go first =>
      have ht : t.isPunctuation .semicolon = false := Bool.eq_false_iff.mpr fun h => by
        simp [ClauseRule.stops_semicolon h] at go
      obtain ⟨t', s', rfl, kind, -, -, inner⟩ :=
        met.token Token.marks_not_semicolon rfl (by simpa using ht) first.suffix live
      rw [← ClauseRule.stops_congr kind] at go
      exact (hsub.piece hJ first live kind fun ho => inner ho n rfl).succ.of_imp fun _ _ hq =>
        fails_collect.mpr (.here go hq)
    | @later _ st t s m _ xs _ go first rest =>
      have ht : t.isPunctuation .semicolon = false := Bool.eq_false_iff.mpr fun h => by
        simp [ClauseRule.stops_semicolon h] at go
      have hm := (fails_collect.mpr rest).suffix
      have hfirst := first.suffix
      obtain ⟨t', s', rfl, kind, one, rel, inner⟩ :=
        met.token Token.marks_not_semicolon rfl (by simpa using ht) (hm.trans hfirst) live
      obtain ⟨xs', m', hx, -, hrel⟩ := hsub.toSubs.piece (gives_piece.mp first)
        (J.live_of_suffix hm live) kind one rel fun ho => inner ho n rfl
      have hlt : m.length < l := by
        have := hfirst.length_le
        simp only [List.length_cons] at hlen
        omega
      rw [← ClauseRule.stops_congr kind] at go
      exact (ih _ hlt st hrel rest rfl).of_imp fun _ _ hq =>
        fails_collect.mpr (.later go (gives_piece.mpr hx) (fails_collect.mp hq))

omit hsub in
theorem second (kind : ClauseKind) :
    J.Faults n (J.rel n) (Clause.second kind) (Clause.second kind) := by
  unfold Clause.second
  cases kind.rule.second with
  | none => exact .pure
  | some k =>
    apply Faults.bind Runs.trivia .trivia
    intro gap gap' hgap
    exact .bind (.expect _ (Token.marks_isKeyword k)) (.expect hJ _ (Token.marks_isKeyword k))
      fun _ _ _ => .pure

theorem following (lead lead' : Token) :
    J.Faults (n + 1) (J.rel (n + 1)) (Clause.following sub kind lead)
      (Clause.following sub' kind lead') := by
  apply Faults.bind (Runs.second kind) (second hJ kind)
  intro _ _ _
  exact .bind (hsub.toSubs.collect kind {}) (hsub.collect hJ kind {}) fun _ _ _ => .pure

theorem clause (kind : ClauseKind) :
    J.Faults (n + 1) (J.Met (n + 1)) (Parse.clause sub kind) (Parse.clause sub' kind) :=
  .bind (.expect _ (Token.marks_isOneOf _)) (.expect hJ _ (Token.marks_isOneOf _))
    fun _ _ _ => hsub.following hJ _ _

theorem clause? (kind : ClauseKind) :
    J.Faults (n + 1) (J.Met (n + 1)) (Parse.clause? sub kind) (Parse.clause? sub' kind) := by
  refine .take?_bind (Token.marks_isOneOf _) (fun _ _ _ _ one => ?_) .pure
  refine .of_imp ?_ fun s s' h => h.1
  exact .bind (hsub.toSubs.following one) (hsub.following hJ _ _) fun _ _ _ => .pure

theorem clauses (kind : ClauseKind) :
    J.Faults (n + 1) (J.Met (n + 1)) (Parse.clauses sub kind) (Parse.clauses sub' kind) :=
  .each (fun _ _ _ _ one => hsub.toSubs.following one) fun _ _ _ _ _ => hsub.following hJ _ _

end Queries

end Coupling

end SqlOutline
