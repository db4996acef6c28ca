import SqlOutline.Proofs.Coupling

namespace SqlOutline
open Parse Clause

theorem Scope.after_congr {t t' : Token} (h : t'.kind = t.kind) (scope : Scope) :
    scope.after t' = scope.after t := by
  unfold after
  rw [h]

theorem Scope.after_of_isTrivia {t : Token} (h : t.isTrivia = true) (scope : Scope) :
    scope.after t = scope := by
  unfold after
  split <;> simp_all [Token.isTrivia, Kind.isTrivia, Kind.isComment]

theorem ClauseRule.stops_congr {t t' : Token} (h : t'.kind = t.kind) (rule : ClauseRule)
    (scope : Scope) : rule.stops scope t' = rule.stops scope t := by
  unfold stops
  rw [h]

theorem Ahead.Ended.stops {s : Ahead} (h : s.Ended) (rule : ClauseRule) (scope : Scope) :
    ∀ t ∈ s.head?, rule.stops scope t = true := fun t ht =>
  ClauseRule.stops_semicolon (h t ht) rule scope

namespace Clause

variable {sub : Parse Select} {kind : ClauseKind} {scope scope' : Scope} {s r : Ahead}
  {body : List Token}

theorem Body.cons_iff_of_isTrivia {t : Token} (ht : t.isTrivia = true) :
    Body sub kind scope (t :: s) body scope' r ↔
      ∃ rest, body = t :: rest ∧ Body sub kind scope s rest scope' r := by
  have ho := Token.isPunctuation_of_isTrivia ht .openParen
  have hs := Scope.after_of_isTrivia ht scope
  constructor
  · intro h
    cases h with
    | done stop => simp [ClauseRule.not_isTrivia_of_stops (stop t rfl)] at ht
    | step go first rest =>
      cases gives_piece.mp first with
      | token single =>
        rw [hs] at rest
        exact ⟨_, rfl, rest⟩
      | query opening | cut opening | group opening => simp [ho] at opening
  · intro h
    obtain ⟨rest, rfl, h⟩ := h
    have go : kind.rule.stops scope t = false := Bool.eq_false_iff.mpr fun h => by
      simp [ClauseRule.not_isTrivia_of_stops h] at ht
    rw [← hs] at h
    exact .step go (gives_piece.mpr (.token ho)) h

/-- Trivia belong to the body of a clause wherever they stand. -/
theorem Body.gap_iff :
    Body sub kind scope s body scope' r ↔
      ∃ rest, body = s.takeWhile Token.isTrivia ++ rest ∧
        Body sub kind scope (s.dropWhile Token.isTrivia) rest scope' r := by
  induction s generalizing body with
  | nil => simp
  | cons t s ih =>
    by_cases ht : t.isTrivia = true
    · rw [List.takeWhile_cons_of_pos ht, List.dropWhile_cons_of_pos ht,
        Body.cons_iff_of_isTrivia ht]
      constructor
      · intro h
        obtain ⟨rest, rfl, h⟩ := h
        obtain ⟨us, rfl, hus⟩ := ih.mp h
        exact ⟨us, rfl, hus⟩
      · intro h
        obtain ⟨us, rfl, hus⟩ := h
        exact ⟨_, rfl, ih.mpr ⟨us, rfl, hus⟩⟩
    · rw [List.takeWhile_cons_of_neg ht, List.dropWhile_cons_of_neg ht]
      simp

end Clause

namespace Coupling

variable {J : Coupling} {n : Nat}

/-- Clauses of one kind whose tokens were read side by side. -/
structure Clauses (J : Coupling) (c d : Clause) : Prop where
  kind : d.kind = c.kind
  lead : J.same [c.lead] [d.lead]
  body : J.same c.body d.body

theorem Clauses.tokens {c d : Clause} (h : J.Clauses c d) : J.same c.tokens d.tokens :=
  J.same_append h.lead h.body

theorem Clauses.push {c d : Clause} {ts us : List Token} (h : J.Clauses c d) (ht : J.same ts us) :
    J.Clauses (c.push ts) (d.push us) :=
  ⟨h.kind, h.lead, J.same_append h.body ht⟩

theorem same_flatMap {cs ds : List Clause} (h : List.Forall₂ J.Clauses cs ds) :
    J.same (cs.flatMap Clause.tokens) (ds.flatMap Clause.tokens) := by
  induction h with
  | nil => exact J.same_nil
  | cons h _ ih => exact J.same_append h.tokens ih

/-- Two parses of subqueries that go side by side one level down, and read something. -/
structure Subs (J : Coupling) (n : Nat) (sub sub' : Parse Select) : Prop where
  runs : J.Runs (J.Met n) sub sub' (Select.Alike J.Clauses) (J.Met n)
  progress : sub.Progresses

theorem same_tokens {q q' : Select} (h : q.Alike J.Clauses q') : J.same q.tokens q'.tokens :=
  same_flatMap h.clauses

variable {sub sub' : Parse Select} {kind : ClauseKind} {scope scope' : Scope} {s s' r : Ahead}
  {t t' : Token}

/-- Behind an opening parenthesis both streams come to what stands in it. -/
theorem Met.of_gap (hs : J.rel n s s') (live : J.live (s.dropWhile Token.isTrivia)) :
    J.same (s.takeWhile Token.isTrivia) (s'.takeWhile Token.isTrivia) ∧
      J.Met n (s.dropWhile Token.isTrivia) (s'.dropWhile Token.isTrivia) := by
  obtain ⟨same, rel⟩ := J.gap hs live
  exact ⟨same, rel, Ahead.settled_dropWhile s, Ahead.settled_dropWhile s'⟩

theorem Subs.query (hsub : J.Subs n sub sub') {q : Select} (hs : J.rel n s s')
    (select : Ahead.atKeyword [.select] (s.dropWhile Token.isTrivia) = true)
    (hq : sub.Gives (s.dropWhile Token.isTrivia) q r) (live : J.live r) :
    ∃ q' r', Ahead.atKeyword [.select] (s'.dropWhile Token.isTrivia) = true ∧
      sub'.Gives (s'.dropWhile Token.isTrivia) q' r' ∧
      J.same (s.takeWhile Token.isTrivia ++ q.tokens) (s'.takeWhile Token.isTrivia ++ q'.tokens) ∧
      J.Met n r r' := by
  obtain ⟨same, met⟩ := Met.of_gap hs (J.live_of_suffix hq.suffix live)
  obtain ⟨q', r', hq', hqq, hr⟩ := hsub.runs met hq live
  have hk := met.atKeyword [.select] live hq.suffix fun _ => hq.length_lt hsub.progress
  exact ⟨q', r', hk.trans select, hq', J.same_append same (same_tokens hqq), hr⟩

theorem Subs.piece (hsub : J.Subs n sub sub') {ts : List Token}
    (h : Clause.Piece sub scope t s ts scope' r) (live : J.live r) (hk : t'.kind = t.kind)
    (one : J.same [t] [t']) (hs : J.rel (n + 1) s s')
    (inner : t.isPunctuation .openParen = true → J.rel n s s') :
    ∃ ts' r', Clause.Piece sub' scope t' s' ts' scope' r' ∧ J.same ts ts' ∧ J.rel (n + 1) r r' := by
  have hopen := (Token.marks_isPunctuation (p := .openParen) (by decide)).congr hk
  have hclose := Token.marks_isPunctuation (p := .closeParen) (by decide)
  cases h with
  | token single =>
    refine ⟨[t'], s', ?_, one, hs⟩
    rw [← Scope.after_congr hk]
    exact .token (by rwa [hopen])
  | @query _ q close opening select hq closing =>
    have hr := J.live_of_suffix (List.suffix_cons close r) live
    obtain ⟨q', m', select', hq', same, met⟩ := hsub.query (inner opening) select hq hr
    obtain ⟨close', r', rfl, hc, hcc, hrel, -⟩ :=
      met.token hclose rfl closing (List.suffix_refl r) live
    have closing' := (hclose.congr hc).trans closing
    have opened := J.same_append one same
    exact ⟨_, r', .query (by rwa [hopen]) select' hq' closing', J.same_append opened hcc,
      J.rel_succ hrel⟩
  | @cut _ q opening select hq missing =>
    obtain ⟨q', r', select', hq', same, met⟩ := hsub.query (inner opening) select hq live
    have opened := J.same_append one same
    rw [← Scope.after_congr hk]
    exact ⟨_, r', .cut (by rwa [hopen]) select' hq' (met.none hclose live missing), opened,
      J.rel_succ met.rel⟩
  | group opening other =>
    obtain ⟨same, met⟩ := Met.of_gap (inner opening) live
    have other' := met.atKeyword [.select] live (List.suffix_refl _) fun h =>
      absurd (h.symm.trans other) (by decide)
    rw [← Scope.after_congr hk]
    exact ⟨_, _, .group (by rwa [hopen]) (other'.trans other), J.same_append one same,
      J.rel_succ met.rel⟩

/-- The bodies of two clauses of one kind go side by side. The induction is on what is left of the
first stream: trivia are passed over in one stretch, on both sides, before the next token counts. -/
theorem Subs.body (hsub : J.Subs n sub sub') {body : List Token}
    (h : Clause.Body sub kind scope s body scope' r) (live : J.live r) (hs : J.rel (n + 1) s s') :
    ∃ body' r', Clause.Body sub' kind scope s' body' scope' r' ∧ J.same body body' ∧
      J.Met (n + 1) r r' := by
  induction hl : s.length using Nat.strongRecOn generalizing scope s s' body with
  | ind l ih =>
    obtain ⟨rest, rfl, hrest⟩ := Clause.Body.gap_iff.mp h
    have hr := (gives_collect.mpr hrest).suffix
    obtain ⟨same, met⟩ := Met.of_gap hs (J.live_of_suffix hr live)
    have hlen := (List.dropWhile_suffix Token.isTrivia (l := s)).length_le
    suffices key : ∃ rest' r', Clause.Body sub' kind scope (s'.dropWhile Token.isTrivia) rest' scope'
        r' ∧ J.same rest rest' ∧ J.Met (n + 1) r r' by
      obtain ⟨rest', r', hrest', hsame, hmet⟩ := key
      exact ⟨_, r', Clause.Body.gap_iff.mpr ⟨rest', rfl, hrest'⟩, J.same_append same hsame, hmet⟩
    generalize s.dropWhile Token.isTrivia = s at *
    generalize s'.dropWhile Token.isTrivia = s' at *
    cases hrest with
    | done stop =>
      refine ⟨[], s', .done ?_, J.same_nil, met⟩
      cases met.beside live with
      | token kind =>
        intro u hu
        cases hu
        rw [ClauseRule.stops_congr kind]
        exact stop _ rfl
      | ended _ right | beyond _ right => exact right.stops _ _
    | @step _ st _ t s m _ xs ys go first rest =>
      have ht : t.isPunctuation .semicolon = false := Bool.eq_false_iff.mpr fun h => by
        simp [ClauseRule.stops_semicolon h] at go
      have hm := (gives_collect.mpr rest).suffix
      have hfirst := first.suffix
      obtain ⟨t', s', rfl, kind, one, rel, inner⟩ :=
        met.token Token.marks_not_semicolon rfl (by simpa using ht) (hm.trans hfirst) live
      obtain ⟨xs', m', hx, hxs, hrel⟩ := hsub.piece (gives_piece.mp first)
        (J.live_of_suffix hm live) kind one rel fun ho => inner ho n rfl
      have hlt : m.length < l := by
        have := hfirst.length_le
        simp only [List.length_cons] at hlen
        omega
      obtain ⟨ys', r', hy, hys, hmet⟩ := ih _ hlt rest hrel rfl
      refine ⟨xs' ++ ys', r', .step ?_ (gives_piece.mpr hx) hy, J.same_append hxs hys, hmet⟩
      rw [ClauseRule.stops_congr kind]
      exact go

theorem Runs.second (kind : ClauseKind) :
    J.Runs (J.rel n) (Clause.second kind) (Clause.second kind) J.same (J.rel n) := by
  unfold Clause.second
  cases kind.rule.second with
  | none => exact .pure J.same_nil
  | some k =>
    apply Runs.bind Runs.trivia
    intro gap gap' hgap
    apply Runs.bind (Runs.expect _ (Token.marks_isKeyword k))
    intro t t' ht
    exact .pure (J.same_append hgap ht.2)

theorem Subs.collect (hsub : J.Subs n sub sub') (kind : ClauseKind) (scope : Scope) :
    J.Runs (J.rel (n + 1)) (Parse.collect kind.rule.stops (Clause.piece sub) scope)
      (Parse.collect kind.rule.stops (Clause.piece sub') scope) (fun x y => J.same x.1 y.1)
      (J.Met (n + 1)) := by
  rintro s s' ⟨body, scope⟩ r hs h live
  obtain ⟨body', r', hb, same, met⟩ := hsub.body (gives_collect.mp h) live hs
  exact ⟨(body', scope), r', gives_collect.mpr hb, same, met⟩

theorem Subs.following (hsub : J.Subs n sub sub') {lead lead' : Token} (one : J.same [lead] [lead']) :
    J.Runs (J.rel (n + 1)) (Clause.following sub kind lead) (Clause.following sub' kind lead')
      J.Clauses (J.Met (n + 1)) := by
  apply Runs.bind (Runs.second kind)
  intro ts ts' hts
  apply Runs.bind (hsub.collect kind {})
  intro x y hxy
  exact .pure ⟨rfl, one, J.same_append hts hxy⟩

theorem Subs.clause (hsub : J.Subs n sub sub') (kind : ClauseKind) :
    J.Runs (J.Met (n + 1)) (Parse.clause sub kind) (Parse.clause sub' kind) J.Clauses
      (J.Met (n + 1)) :=
  .bind (.expect _ (Token.marks_isOneOf _)) fun _ _ ht => hsub.following ht.2

theorem Subs.clause? (hsub : J.Subs n sub sub') (kind : ClauseKind) :
    J.Runs (J.Met (n + 1)) (Parse.clause? sub kind) (Parse.clause? sub' kind)
      (Option.Rel J.Clauses) (J.Met (n + 1)) := by
  refine .take?_bind (Token.marks_isOneOf _) (fun t t' _ _ one => ?_) (.pure .none)
  refine .of_imp ?_ fun s s' h => h.1
  exact .bind (hsub.following one) fun c d h => .pure (.some h)

theorem Subs.clauses (hsub : J.Subs n sub sub') (kind : ClauseKind) :
    J.Runs (J.Met (n + 1)) (Parse.clauses sub kind) (Parse.clauses sub' kind)
      (List.Forall₂ J.Clauses) (J.Met (n + 1)) :=
  .each fun _ _ _ _ one => hsub.following one

end Coupling

end SqlOutline
