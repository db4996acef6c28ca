import SqlOutline.Proofs.Completion

namespace SqlOutline
open Parse Clause

/-- The tokens that close what a clause has left open. -/
def Scope.closers (scope : Scope) : List Token :=
  List.replicate scope.parens .closeParen ++ List.replicate scope.cases (.ofKeyword .end)

theorem Scope.closers_subset (scope : Scope) : scope.closers ⊆ Token.finishing := by
  intro t ht
  rcases List.mem_append.mp ht with ht | ht
  · rw [List.eq_of_mem_replicate ht]
    exact Token.closeParen_mem_finishing
  · rw [List.eq_of_mem_replicate ht]
    exact Token.ofKeyword_mem_finishing (by decide)

/-- In a clause of keywords only nothing is ever open. -/
def Scope.Fits (kind : ClauseKind) (scope : Scope) : Prop :=
  kind.rule.keywordsOnly = true → scope.parens + scope.cases = 0

theorem Scope.Fits.of_open {kind : ClauseKind} {scope scope' : Scope} {t : Token}
    (ho : t.isPunctuation .openParen = true) (go : kind.rule.stops scope t = false) :
    scope'.Fits kind := by
  intro h
  simp [ClauseRule.not_keywordsOnly_of_open ho go] at h

theorem Scope.Fits.after {kind : ClauseKind} {scope : Scope} {t : Token} (h : scope.Fits kind)
    (go : kind.rule.stops scope t = false) : (scope.after t).Fits kind := by
  intro hk
  obtain rfl : kind = .setOperator := by
    cases kind <;> simp_all [ClauseKind.rule]
  have hscope : scope.after t = scope := by
    by_cases ht : t.isTrivia = true
    · exact Scope.after_of_isTrivia ht scope
    · have hall : t.kind = .keyword .all := by
        unfold ClauseRule.stops at go
        split at go <;> simp_all [ClauseKind.rule, ClauseRule.permits, Token.isTrivia]
      simp [Scope.after, hall]
  rw [hscope]
  exact h hk

namespace Clause

variable {kind : ClauseKind} {ks : List Keyword} {scope scope' : Scope}
  {depth room : Nat} {s m r x y : Ahead}

/-- Each closer goes into the clause, and behind the last of them nothing is open. -/
theorem body_closers (sub : Parse Select) (fits : scope.Fits kind) (hy : y.Opens ks)
    (he : kind.EndsAt ks) :
    ∃ scope', Body sub kind scope (scope.closers ++ y) scope.closers scope' y := by
  induction hn : scope.parens + scope.cases generalizing scope with
  | zero =>
    obtain ⟨hp, hc⟩ := Nat.add_eq_zero_iff.mp hn
    have hnil : scope.closers = [] := by simp [Scope.closers, hp, hc]
    rw [hnil]
    exact ⟨scope, .done (hy.stops hp hc fun k hk => he k hk _)⟩
  | succ n ih =>
    have hk : kind.rule.keywordsOnly = false := Bool.eq_false_iff.mpr fun h => by
      have := fits h
      omega
    have step (t : Token) (single : t.isPunctuation .openParen = false)
        (go : kind.rule.stops scope t = false)
        (hlt : (scope.after t).parens + (scope.after t).cases = n)
        (hclosers : scope.closers = t :: (scope.after t).closers) :
        ∃ scope', Body sub kind scope (scope.closers ++ y) scope.closers scope' y := by
      obtain ⟨scope', h⟩ := ih (fun h => absurd (hk.symm.trans h) Bool.false_ne_true) hlt
      rw [hclosers]
      exact ⟨scope', .step go (gives_piece.mpr (.token single)) h⟩
    by_cases hp : scope.parens = 0
    · obtain ⟨c, hc⟩ := Nat.exists_eq_succ_of_ne_zero (n := scope.cases) (by omega)
      refine step (.ofKeyword .end) rfl ?_ ?_ ?_
      · simp [ClauseRule.stops, Token.ofKeyword, hk, hc]
      · simp only [Scope.after, Token.ofKeyword]
        omega
      · simp [Scope.closers, Scope.after, Token.ofKeyword, hp, hc, List.replicate_succ]
    · obtain ⟨p, hp⟩ := Nat.exists_eq_succ_of_ne_zero hp
      refine step .closeParen rfl ?_ ?_ ?_
      · simp [ClauseRule.stops, Token.closeParen, hk, hp]
      · simp only [Scope.after, Token.closeParen]
        omega
      · simp [Scope.closers, Scope.after, Token.closeParen, hp, List.replicate_succ]

theorem Body.grow_of_ne_nil {body : List Token}
    (h : Body (Select.readNested depth room) kind scope s body scope' r) (hr : r ≠ [])
    (hroom : Token.opened s ≤ room) (x : Ahead) :
    Body (Select.readNested depth room) kind scope (s ++ x) body scope' (r ++ x) := by
  induction h with
  | @done st s stop =>
    refine .done ?_
    rwa [List.head?_append_of_ne_nil _ hr]
  | @step st st' st'' t s m r xs ys go first rest ih =>
    have hm : m ≠ [] := (gives_collect.mpr rest).ne_nil hr
    have hle := Token.opened_of_suffix (first.suffix.trans (List.suffix_cons t s))
    have hpiece : Piece (Select.readNested depth room) st t (s ++ x) xs st' (m ++ x) :=
      (gives_piece.mp first).grow (absurd · hm) hroom
    exact .step go (gives_piece.mpr hpiece) (ih hr (Nat.le_trans hle hroom))

/-- Queries in parentheses that come to the end of the tokens can be finished, each level of them
with less room. -/
def Nests (depth room : Nat) : Prop :=
  ∀ k, room = k + 1 →
    (Select.readNested depth room).Completes k [.ofKeyword .select] (Ahead.Opens [])

theorem Nests.of_open (h : Nests depth room) {t : Token} (ho : t.isPunctuation .openParen = true)
    (hroom : Token.opened (t :: m) ≤ room) :
    ∃ k, Token.opened m ≤ k ∧
      (Select.readNested depth room).Completes k [.ofKeyword .select] (Ahead.Opens []) := by
  have hcount : Token.opened (t :: m) = Token.opened m + 1 := List.countP_cons_of_pos ho
  obtain ⟨k, rfl⟩ := Nat.exists_eq_succ_of_ne_zero (n := room) (by omega)
  exact ⟨k, by omega, h k rfl⟩

/-- The rest of a clause, read from some place on. -/
abbrev remainder (depth room : Nat) (kind : ClauseKind) (scope : Scope) :
    Parse (List Token × Scope) :=
  collect kind.rule.stops (piece (Select.readNested depth room)) scope

/-- What is finished behind a piece is finished with the piece in front. -/
theorem finishes_step {t : Token} {ts : List Token} (go : kind.rule.stops scope t = false)
    (h : (remainder depth room kind scope').Finishes (Ahead.Opens ks) m x)
    (first : ∀ z, Piece (Select.readNested depth room) scope t (s ++ z) ts scope' (m ++ z)) :
    (remainder depth room kind scope).Finishes (Ahead.Opens ks) (t :: s) x := by
  intro y hy
  obtain ⟨hx, ⟨body, scope''⟩, hbody⟩ := h y hy
  refine ⟨hx, (ts ++ body, scope''), gives_collect.mpr ?_⟩
  exact .step go (gives_piece.mpr (first (x ++ y))) (gives_collect.mp hbody)

/-- A place inside parentheses and CASE blocks: closing them finishes the clause. -/
theorem finishes_closers (fits : scope.Fits kind) (he : kind.EndsAt ks) :
    (remainder depth room kind scope).Finishes (Ahead.Opens ks) [] scope.closers := by
  intro y hy
  obtain ⟨scope', hbody⟩ := body_closers (Select.readNested depth room) fits hy he
  exact ⟨scope.closers_subset, _, gives_collect.mpr hbody⟩

/-- A query in parentheses that comes to the end: it is finished first, and what is open around it
afterwards. -/
theorem finishes_of_drains {t : Token} (nests : Nests depth room) (he : kind.EndsAt ks)
    (go : kind.rule.stops scope t = false) (ho : t.isPunctuation .openParen = true)
    (hroom : Token.opened (t :: s) ≤ room)
    (select : Ahead.atKeyword [.select] (s.dropWhile Token.isTrivia) = true)
    (hd : (Select.readNested depth room).Drains (s.dropWhile Token.isTrivia)) :
    ∃ x, (remainder depth room kind scope).Finishes (Ahead.Opens ks) (t :: s) x := by
  obtain ⟨k, hk, hsub⟩ := nests.of_open ho hroom
  have hne : s.dropWhile Token.isTrivia ≠ [] := by
    intro h
    simp [h, Ahead.atKeyword] at select
  have hle := Token.opened_of_suffix (List.dropWhile_suffix Token.isTrivia (l := s))
  obtain ⟨x, hx⟩ := hsub.closes hne (Nat.le_trans hle hk) hd
  refine ⟨x ++ .closeParen :: scope.closers, fun y hy => ?_⟩
  obtain ⟨hsubset, q, hq⟩ := hx (.closeParen :: (scope.closers ++ y)) (.of_close rfl _)
  have fits : scope.Fits kind := .of_open ho go
  obtain ⟨scope', hbody⟩ := body_closers (Select.readNested depth room) fits hy he
  obtain ⟨-, hdrop⟩ := Ahead.trivia_before
    (x := x ++ .closeParen :: (scope.closers ++ y)) fun he => absurd he hne
  have hselect : Ahead.atKeyword [.select]
      ((s ++ (x ++ .closeParen :: (scope.closers ++ y))).dropWhile Token.isTrivia) = true := by
    rwa [hdrop, Ahead.atKeyword, List.head?_append_of_ne_nil _ hne]
  have hpiece : Piece (Select.readNested depth room) scope t _ _ scope _ :=
    .query ho hselect (hdrop.symm ▸ hq) rfl
  refine ⟨List.append_subset.mpr ⟨hsubset, List.cons_subset.mpr
    ⟨Token.closeParen_mem_finishing, scope.closers_subset⟩⟩, ?_⟩
  rw [List.append_assoc]
  exact ⟨_, gives_collect.mpr (.step go (gives_piece.mpr hpiece) hbody)⟩

/-- A parenthesis that only trivia follow. -/
theorem finishes_of_group {t : Token} (he : kind.EndsAt ks) (go : kind.rule.stops scope t = false)
    (ho : t.isPunctuation .openParen = true) (hs : s.dropWhile Token.isTrivia = []) :
    ∃ x, (remainder depth room kind scope).Finishes (Ahead.Opens ks) (t :: s) x := by
  refine ⟨(scope.after t).closers, fun y hy => ⟨(scope.after t).closers_subset, ?_⟩⟩
  have fits : (scope.after t).Fits kind := .of_open ho go
  obtain ⟨scope', hbody⟩ := body_closers (Select.readNested depth room) fits hy he
  have hfirst : ((scope.after t).closers ++ y).head? = some .closeParen := by
    simp [Scope.closers, Scope.parens_after_open ho, List.replicate_succ]
  have hopens : Ahead.Opens [] ((scope.after t).closers ++ y) := by
    rw [Ahead.Opens, hfirst]
    rintro u ⟨⟩
    exact .inr (.inl rfl)
  obtain ⟨-, hdrop⟩ := Ahead.trivia_before (s := s) fun _ => hopens.settled
  rw [hs, List.nil_append] at hdrop
  have hother : Ahead.atKeyword [.select]
      ((s ++ ((scope.after t).closers ++ y)).dropWhile Token.isTrivia) = false := by
    rw [hdrop, Ahead.atKeyword, hfirst]
    rfl
  have hpiece : Piece (Select.readNested depth room) scope t _ _ _ _ := .group ho hother
  rw [hdrop] at hpiece
  exact ⟨_, gives_collect.mpr (.step go (gives_piece.mpr hpiece) hbody)⟩

/-- A clause that comes to the end of the tokens can be finished, whatever it has left open. -/
theorem finishes_remainder (nests : Nests depth room) (he : kind.EndsAt ks)
    (fits : scope.Fits kind) (hroom : Token.opened s ≤ room)
    (hd : (remainder depth room kind scope).Drains s) :
    ∃ x, (remainder depth room kind scope).Finishes (Ahead.Opens ks) s x := by
  -- A query takes any number of tokens, so that the induction is on how many are left.
  induction hl : s.length using Nat.strongRecOn generalizing scope s with
  | ind l ih =>
    rcases drains_collect hd with rfl | ⟨t, s, rfl, go, hpiece⟩
    · exact ⟨scope.closers, finishes_closers fits he⟩
    · rcases hpiece with ⟨e, hfails⟩ | ⟨ts, scope', m, hgives, hd'⟩
      · obtain ⟨ho, select, hfails⟩ := fails_piece.mp hfails
        exact finishes_of_drains nests he go ho hroom select (hfails.drains_iff.mpr rfl)
      · have hsuffix := hgives.suffix.trans (List.suffix_cons t s)
        have hm := Nat.le_trans (Token.opened_of_suffix hsuffix) hroom
        have hlt : m.length < l := hl ▸ Nat.lt_succ_of_le hgives.suffix.length_le
        have step (fits : scope'.Fits kind)
            (hend : m = [] → t.isPunctuation .openParen = true → scope'.parens ≤ scope.parens) :
            ∃ x, (remainder depth room kind scope).Finishes (Ahead.Opens ks) (t :: s) x := by
          obtain ⟨x, hx⟩ := ih _ hlt fits hm hd' rfl
          exact ⟨x, finishes_step go hx fun z => (gives_piece.mp hgives).grow hend hroom⟩
        cases gives_piece.mp hgives with
        | token single =>
          exact step (fits.after go) fun _ ho => absurd (single.symm.trans ho) Bool.false_ne_true
        | query => exact step fits fun _ _ => Nat.le_refl _
        | cut opening select inner =>
          by_cases hnil : m = []
          · exact finishes_of_drains nests he go opening hroom select (inner.drains_iff.mpr hnil)
          · exact step (fits.after go) (absurd · hnil)
        | group opening other =>
          by_cases hnil : s.dropWhile Token.isTrivia = []
          · exact finishes_of_group he go opening hnil
          · exact step (fits.after go) (absurd · hnil)

theorem completes_remainder (nests : Nests depth room) (he : kind.EndsAt ks) :
    (remainder depth room kind {}).Completes room [] (Ahead.Opens ks) where
  grows _ _ _ x h hm hroom :=
    gives_collect.mpr (Body.grow_of_ne_nil (gives_collect.mp h) hm hroom x)
  closes _ _ := finishes_remainder nests he fun _ => rfl
  supplied := finishes_closers (fun _ => rfl) he

/-- The second keyword of a clause that has one. -/
def seconds (kind : ClauseKind) : List Token :=
  kind.rule.second.toList.map .ofKeyword

theorem completes_second (kind : ClauseKind) (room : Nat) :
    (second kind).Completes room (seconds kind) fun _ => True := by
  have spelled : ∀ k ∈ kind.rule.second, k ∈ Keyword.finishing := by
    cases kind <;> decide
  unfold second seconds
  cases hk : kind.rule.second with
  | none => exact .pure _ _ _
  | some k =>
    have hsecond : (expect k.spelling (·.isKeyword k)).Completes room [.ofKeyword k]
        fun _ => True :=
      .expect _ (Token.isKeyword_ofKeyword k) (Token.ofKeyword_mem_finishing (spelled k hk)) room
    refine (Completes.trivia room).bind (fun gap => hsecond.bind_rest fun t => .pure _ _ _)
      fun y _ => ?_
    exact (Ahead.Opens.of_ofKeyword k y).settled

theorem completes_following (nests : Nests depth room) (he : kind.EndsAt ks) (lead : Token) :
    (following (Select.readNested depth room) kind lead).Completes room (seconds kind)
      (Ahead.Opens ks) := by
  have hrest := completes_remainder nests he
  refine List.append_nil (seconds kind) ▸ (completes_second kind room).bind (fun ts => ?_)
    fun _ _ => trivial
  exact hrest.bind_rest fun found => .pure _ _ _

end Clause

namespace Parse
open Clause

variable {depth room : Nat}

theorem completes_clause (nests : Nests depth room) (kind : ClauseKind) (k : Keyword)
    (ks : List Keyword) (he : kind.EndsAt ks) (hk : k ∈ kind.rule.leading)
    (hf : k ∈ Keyword.finishing) :
    (clause (Select.readNested depth room) kind).Completes room (.ofKeyword k :: seconds kind)
      (Ahead.Opens ks) :=
  (Completes.expect _ (Token.isOneOf_ofKeyword hk) (Token.ofKeyword_mem_finishing hf) room).bind
    (completes_following nests he) fun _ _ => trivial

theorem completes_clause? (nests : Nests depth room) (kind : ClauseKind) (ks : List Keyword)
    (he : kind.EndsAt ks) (hd : ∀ k ∈ kind.rule.leading, k ∉ ks) :
    (clause? (Select.readNested depth room) kind).Completes room [] (Ahead.Opens ks) := by
  refine .take?_bind (seconds kind) (fun t m _ hroom => ⟨room, ?_, ?_⟩) (.pure _ _ _)
    fun y hy => ?_
  · exact Nat.le_trans (Token.opened_of_suffix (List.suffix_cons t m)) hroom
  · exact (completes_following nests he t).map some
  · exact Ahead.atKeyword_eq_false_iff.mp (hy.not_atKeyword hd)

theorem completes_clauses (nests : Nests depth room) (kind : ClauseKind) (ks : List Keyword)
    (he : kind.EndsAt ks) (hd : ∀ k ∈ kind.rule.leading, k ∉ ks) :
    (clauses (Select.readNested depth room) kind).Completes room [] (Ahead.Opens ks) :=
  .each (fun t _ => completes_following nests he t) fun _ hy => hy.not_atKeyword hd

end Parse

end SqlOutline
