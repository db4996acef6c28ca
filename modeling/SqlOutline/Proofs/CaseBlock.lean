import Mathlib.Data.List.Induction
import SqlOutline.Proofs.Closed
import SqlOutline.Proofs.Counted
import SqlOutline.Proofs.WellFormed

namespace SqlOutline
open Parse

variable {rule : ClauseRule} {scope scope' : Scope} {t u : Token}
  {ts us pre front back : List Token}

/-- The place behind the tokens when every one of them is counted. -/
def Scope.behind (ts : List Token) : Scope :=
  ts.foldl Scope.after {}

theorem Scope.behind_append (ts us : List Token) :
    behind (ts ++ us) = us.foldl Scope.after (behind ts) :=
  List.foldl_append

/-- Between the parentheses that stay open no name is a target. -/
theorem Scope.foldl_after_inside {k n p : Nat} (hl : Token.level k us = some n)
    (hp : scope.parens = p + 1 + k) :
    (us.foldl Scope.after scope).parens = p + 1 + n ∧
      (us.foldl Scope.after scope).target = scope.target := by
  induction us generalizing k scope with
  | nil =>
    cases hl
    exact ⟨hp, rfl⟩
  | cons t us ih =>
    have htarget : (scope.after t).target = scope.target := by
      simp [Scope.after_eq, hp]
    rw [List.foldl_cons, ← htarget]
    simp only [Token.level] at hl
    split at hl
    next ho => exact ih hl (by rw [Scope.parens_after_open ho, hp, Nat.add_assoc])
    next ho =>
      split at hl
      next hc =>
        cases k with
        | zero => cases hl
        | succ k => exact ih hl (by rw [Scope.parens_after_close hc, hp, ← Nat.add_assoc]; rfl)
      next hc =>
        rw [Bool.not_eq_true] at ho hc
        exact ih hl (by rw [Scope.parens_after ho hc, hp])

/-- A CASE stands inside a parenthesis where none is open before it, and from there on one always
is. -/
def Token.CaseInParens (ts : List Token) : Prop :=
  ∃ front case back, ts = front ++ case :: back ∧ case.isKeyword .case = true ∧
    (Scope.behind front).parens ≠ 0 ∧ (Scope.behind front).cases = 0 ∧
    ∀ mid, mid <+: back → 0 < (Scope.behind (front ++ case :: mid)).cases

namespace ClauseRule

/-- What is not allowed before the target is never allowed. -/
theorem permits_of_false {k : Keyword} (h : rule.permits false k = false) (target : Bool) :
    rule.permits target k = false := by
  cases target with
  | false => exact h
  | true => simp_all [permits]

/-- A clause that goes on before a keyword outside every parenthesis allows it or is inside a
CASE. -/
theorem permits_of_not_stops {k : Keyword} (go : rule.stops scope t = false)
    (hk : t.kind = .keyword k) (hp : scope.parens = 0) :
    rule.permits scope.target k = true ∨ scope.cases ≠ 0 := by
  by_cases hc : scope.cases = 0
  · simp_all [stops]
  · exact .inr hc

theorem Passes.foldl (h : rule.Passes scope ts scope') : scope' = ts.foldl Scope.after scope := by
  induction ts generalizing scope with
  | nil => exact h
  | cons t ts ih => exact ih h.2

theorem Passes.not_stops (h : rule.Passes scope (front ++ t :: back) scope') :
    rule.stops (front.foldl Scope.after scope) t = false := by
  induction front generalizing scope with
  | nil => exact h.1
  | cons u front ih => exact ih h.2

/-- Where the rule permits no CASE, one that is open was met inside a parenthesis. The induction is
on the last token, so that the CASE is the one since which there has always been one. -/
theorem caseInParens (shut : rule.permits false .case = false)
    (go : ∀ front t back, ts = front ++ t :: back → rule.stops (Scope.behind front) t = false)
    (hc : 0 < (Scope.behind ts).cases) : Token.CaseInParens ts := by
  induction ts using List.reverseRecOn with
  | nil => exact absurd hc (Nat.lt_irrefl 0)
  | append_singleton ts t ih =>
    have hlast := go ts t [] rfl
    rcases Nat.eq_zero_or_pos (Scope.behind ts).cases with hz | hopen
    · have hafter : (Scope.behind (ts ++ [t])).cases = ((Scope.behind ts).after t).cases := by
        rw [Scope.behind_append]
        rfl
      have hcase : t.isKeyword .case = true := by
        by_contra hcase
        simp [hafter, Scope.after_eq, hcase, hz] at hc
      refine ⟨ts, t, [], rfl, hcase, fun hp => ?_, hz, fun mid hmid => ?_⟩
      · have hk : t.kind = .keyword .case := by simpa [Token.isKeyword] using hcase
        rcases permits_of_not_stops hlast hk hp with hpermits | hcases
        · rw [permits_of_false shut] at hpermits
          contradiction
        · exact hcases hz
      · rw [List.prefix_nil.mp hmid]
        exact hc
    · have hbefore : ∀ front u back, ts = front ++ u :: back →
          rule.stops (Scope.behind front) u = false := by
        rintro front u back rfl
        exact go front u (back ++ [t]) (by simp)
      obtain ⟨front, case, back, rfl, hcase, hp, hz, hstays⟩ := ih hbefore hopen
      refine ⟨front, case, back ++ [t], by simp, hcase, hp, hz, fun mid hmid => ?_⟩
      rcases List.prefix_concat_iff.mp hmid with rfl | hmid
      · simpa using hc
      · exact hstays mid hmid

end ClauseRule

namespace Clause

variable {sub : Parse Select} {depth room : Nat} {kind : ClauseKind} {s r : Ahead}
  {body : List Token}

/-- Behind the tokens a keyword stands in the clause, outside every parenthesis, that the rule does
not permit there. The keywords it starts with are not counted. -/
def Strays (c : Clause) (front : List Token) : Prop :=
  ∃ opening t back k, c.kind.rule.opening c.tokens = some (opening, front ++ t :: back) ∧
    t.kind = .keyword k ∧ (Scope.behind front).parens = 0 ∧
    c.kind.rule.permits (Scope.behind front).target k = false

/-- A reader is at this place behind the tokens `pre`: it counts the parentheses and knows of the
target as if it had met every one of them. -/
structure Follows (pre : List Token) (scope : Scope) : Prop where
  parens : scope.parens = (Scope.behind pre).parens
  target : scope.target = (Scope.behind pre).target

theorem Follows.start : Follows [] {} :=
  ⟨rfl, rfl⟩

theorem Follows.after (h : Follows pre scope) (t : Token) :
    Follows (pre ++ [t]) (scope.after t) := by
  constructor
  · simp [Scope.behind_append, Scope.after_eq, h.parens]
  · simp [Scope.behind_append, Scope.after_eq, h.parens, h.target]

/-- What stands behind an opening parenthesis is inside of it, and up to there nothing but the
number of open parentheses changes. -/
theorem Follows.group {n : Nat} (h : Follows pre scope)
    (opening : t.isPunctuation .openParen = true) (hn : Token.level 0 us = some n) :
    (Scope.behind (pre ++ t :: us)).parens = scope.parens + 1 + n ∧
      (Scope.behind (pre ++ t :: us)).target = scope.target := by
  have hp : ((Scope.behind pre).after t).parens = scope.parens + 1 + 0 := by
    rw [Scope.parens_after_open opening, h.parens]
  obtain ⟨hparens, htarget⟩ := Scope.foldl_after_inside hn hp
  rw [Scope.behind_append, List.foldl_cons]
  exact ⟨hparens, htarget.trans (by rw [Scope.after_open opening, h.target])⟩

/-- A piece that goes into a parenthesis leaves the reader where counting does, or else the
statement has come to its end. -/
theorem Piece.follows (h : Piece sub scope t s ts scope' r) (hsub : sub.Segments Select.tokens)
    (hpre : Follows pre scope) : Follows (pre ++ ts) scope' ∨ r.Ended := by
  cases h with
  | token single => exact .inl (hpre.after t)
  | @query _ q close opening select inner closing =>
    obtain ⟨hp, ht⟩ := hpre.group opening (level_gap_of_close (hsub inner) closing)
    have hclose : close.kind = .punctuation .closeParen := by
      simpa [Token.isPunctuation] using closing
    rw [← List.append_assoc]
    refine .inl ⟨?_, ?_⟩
    · rw [Scope.behind_append, List.cons_append]
      simp [Scope.after, hclose, hp]
    · rw [Scope.behind_append, List.cons_append]
      simp [Scope.after, hclose, ht]
  | cut opening select inner missing =>
    obtain ⟨n, hn, hz⟩ := level_gap (hsub inner)
    refine hz.imp_left fun hz => ?_
    subst hz
    obtain ⟨hp, ht⟩ := hpre.group opening hn
    rw [Scope.after_open opening]
    exact ⟨hp.symm, ht.symm⟩
  | group opening other =>
    obtain ⟨hp, ht⟩ := hpre.group opening (Token.level_of_plain 0 (gap_plain s))
    rw [Scope.after_open opening]
    exact .inl ⟨hp.symm, ht.symm⟩

/-- Only the first token of a piece stands outside every parenthesis. -/
theorem Piece.eq_nil_of_outside (h : Piece sub scope t s (front ++ u :: back) scope' r)
    (hsub : sub.Segments Select.tokens) (hpre : Follows pre scope)
    (hout : (Scope.behind (pre ++ front)).parens = 0) : front = [] := by
  cases front with
  | nil => rfl
  | cons v front =>
    obtain ⟨opening, n, hn⟩ := h.inside hsub
    obtain rfl := h.head
    have := (hpre.group opening hn).1
    omega

/-- In front of a token that stands outside every parenthesis the reader is where counting has come
to, a query in parentheses left out. -/
theorem Body.counted (h : Body (Select.readNested depth room) kind scope s body scope' r)
    (hpre : Follows pre scope) (hbody : body = front ++ t :: back)
    (hout : (Scope.behind (pre ++ front)).parens = 0) :
    ∃ place, kind.rule.Passes scope (Clause.counted front) place ∧
      kind.rule.stops place t = false ∧ Follows (pre ++ front) place := by
  have hsub := Parse.Segments.readNested depth room
  induction h generalizing pre front with
  | done => simp at hbody
  | @step st st' st'' u s m r xs ys go first rest ih =>
    have hpiece := gives_piece.mp first
    -- What is still to come is the matter of the later pieces.
    have later : ∀ more, front = xs ++ more → ys = more ++ t :: back →
        ∃ place, kind.rule.Passes st (Clause.counted front) place ∧
          kind.rule.stops place t = false ∧ Follows (pre ++ front) place := by
      rintro more rfl hy
      rw [← List.append_assoc] at hout ⊢
      rcases hpiece.follows hsub hpre with hfollows | hend
      · obtain ⟨place, hplace, hgo, hthere⟩ := ih hfollows hy hout
        have hm : m = more ++ (t :: back ++ r) := by
          rw [(Body.part rest hsub).split, hy, List.append_assoc]
        rw [hm] at hpiece
        obtain ⟨own, hcounted, hown⟩ := hpiece.counted go
        exact ⟨place, hcounted ▸ hown.trans hplace, hgo, hthere⟩
      · have hnil := (Body.eq_nil_of_ended rest hend).1
        simp [hy] at hnil
    rcases List.append_eq_append_iff.mp hbody with ⟨more, hx, hy⟩ | ⟨more, hx, hy⟩
    · exact later more hx hy
    · cases more with
      | nil => exact later [] (by simpa using hx.symm) hy.symm
      | cons v more =>
        obtain ⟨rfl, -⟩ := List.cons.inj hy
        subst hx
        obtain rfl := hpiece.eq_nil_of_outside hsub hpre hout
        obtain rfl := hpiece.head
        rw [List.append_nil, Clause.counted]
        exact ⟨st, rfl, go, hpre⟩

/-- The keywords that a clause starts with are found in its own tokens again. -/
theorem gives_second_append {m : Ahead} (h : (second kind).Gives s ts m) (x : Ahead) :
    (second kind).Gives (ts ++ x) ts x := by
  rcases gives_second.mp h with ⟨hnone, rfl, -⟩ | ⟨k, t, hk, -, ht, rfl⟩
  · exact gives_second.mpr (.inl ⟨hnone, rfl, rfl⟩)
  · have htrivia : t.isTrivia = false :=
      @Token.isTrivia_of_isOneOf t [k] (by simpa [Token.isOneOf] using ht)
    refine gives_second.mpr (.inr ⟨k, t, hk, ?_, ht, ?_⟩)
    · rw [List.append_assoc, List.dropWhile_append_of_pos (gap_isTrivia s)]
      simp [htrivia]
    · rw [List.append_assoc, List.takeWhile_append_of_pos (gap_isTrivia s)]
      simp [htrivia]

/-- The body of a clause in a statement was read by the rule, but for what the parentheses around an
operand have brought to its end. -/
theorem ReadAs.opening {c : Clause} (h : c.ReadAs kind) :
    ∃ opening body ts depth room s scope r,
      kind.rule.opening c.tokens = some (opening, body ++ ts) ∧
        Body (Select.readNested depth room) kind {} s body scope r ∧
        ∀ t ∈ ts, t.isWrapping = true := by
  obtain ⟨depth, room, s, c', scope, r, ts, hc, rfl, hts⟩ := h
  cases hc with
  | @mk lead s m _ second body _ leading next rest =>
    refine ⟨lead :: second, body, ts, depth, room, m, scope, r, ?_, rest, hts⟩
    have := opening_eq leading (gives_second_append next (body ++ ts))
    simpa [Clause.push, Clause.tokens] using this

/-- No keyword stands in what the parentheses around an operand bring. -/
theorem mem_body_of_isWrapping {k : Keyword} (hts : ∀ t ∈ ts, t.isWrapping = true)
    (hk : t.kind = .keyword k) (h : body ++ ts = front ++ t :: back) :
    ∃ rest, body = front ++ t :: rest := by
  have hmem : t ∉ ts := fun ht => by
    have := hts t ht
    simp [Token.isWrapping, Token.isTrivia, Token.isPunctuation, hk, Kind.isTrivia,
      Kind.isComment] at this
  rcases List.append_eq_append_iff.mp h with ⟨more, -, hy⟩ | ⟨more, hx, hy⟩
  · simp [hy] at hmem
  · cases more with
    | nil => simp [← show t :: back = ts from hy] at hmem
    | cons u more =>
      obtain ⟨rfl, -⟩ := List.cons.inj hy
      exact ⟨more, hx⟩

end Clause

/-- A clause swallows no keyword that its rule does not permit, except while a CASE is open that the
clause itself counts. What a SELECT in parentheses reads is not counted. Where the rule permits no
CASE, the one that is open was met inside a parenthesis. -/
theorem strays_behind_case (depth : Nat) (s : Ahead) (st : Statement)
    (h : ((Statement.read depth).run s).answer = .ok st) :
    ∀ c ∈ st.clauses, (c.kind.rule.opening c.tokens).isSome = true ∧
      ∀ front, c.Strays front →
        (Scope.behind (Clause.counted front)).parens = 0 ∧
          0 < (Scope.behind (Clause.counted front)).cases ∧
          (c.kind.rule.permits false .case = false →
            Token.CaseInParens (Clause.counted front)) := by
  intro c hc
  have hread := Statement.readAs_of_mem_clauses (Parse.Gives.of_answer h) c hc
  obtain ⟨opening, body, ts, depth', room, m, scope, r, hopening, hbody, hts⟩ := hread.opening
  refine ⟨by simp [hopening], ?_⟩
  rintro front ⟨opening', t, back, k, hstray, hk, hout, hnot⟩
  rw [hopening] at hstray
  obtain ⟨rest, rfl⟩ := Clause.mem_body_of_isWrapping hts hk
    (Prod.mk.inj (Option.some.inj hstray)).2
  obtain ⟨place, hplace, go, hfollows⟩ := hbody.counted .start rfl hout
  obtain rfl : place = Scope.behind (Clause.counted front) := hplace.foldl
  have hp : (Scope.behind (Clause.counted front)).parens = 0 := hfollows.parens.trans hout
  have hcases : 0 < (Scope.behind (Clause.counted front)).cases := by
    rcases ClauseRule.permits_of_not_stops go hk hp with hpermits | hcases
    · rw [hfollows.target, List.nil_append, hnot] at hpermits
      contradiction
    · exact Nat.pos_of_ne_zero hcases
  refine ⟨hp, hcases, fun shut => ClauseRule.caseInParens shut (fun pre u post hpre => ?_) hcases⟩
  rw [hpre] at hplace
  exact hplace.not_stops

/-- The CASE belongs to the SELECT of the TOP, whose parentheses are passed over. So the DELETE has
no keyword astray, and the WHERE starts a clause of its own. -/
theorem strays_behind_case_query :
    let c : Clause := ⟨.delete, ⟨.keyword .delete, 0, "DELETE".toList⟩,
      [⟨.keyword .top, 7, "TOP".toList⟩, ⟨.punctuation .openParen, 11, ['(']⟩,
        ⟨.keyword .select, 12, "SELECT".toList⟩, ⟨.keyword .case, 19, "CASE".toList⟩,
        ⟨.keyword .when, 24, "WHEN".toList⟩, ⟨.number, 29, ['1']⟩, ⟨.operator, 30, ['=']⟩,
        ⟨.number, 31, ['1']⟩, ⟨.keyword .then, 33, "THEN".toList⟩, ⟨.number, 38, ['2']⟩,
        ⟨.keyword .end, 40, "END".toList⟩, ⟨.punctuation .closeParen, 43, [')']⟩,
        ⟨.keyword .from, 45, "FROM".toList⟩, ⟨.identifier, 50, ['t']⟩]⟩
    let d : Clause := ⟨.where, ⟨.keyword .where, 52, "WHERE".toList⟩,
      [⟨.identifier, 58, ['a']⟩, ⟨.operator, 60, ['=']⟩, ⟨.number, 62, ['1']⟩]⟩
    ∃ st, ((Statement.read 1).run (c.tokens ++ d.tokens)).answer = .ok st ∧
      st.clauses = [c, d] ∧ ∀ front, ¬ c.Strays front := by
  intro c d
  have hread : ((Statement.read 1).run (c.tokens ++ d.tokens)).answer.toOption.map (·.clauses) =
      some [c, d] := by
    decide +kernel
  have hnone : ∀ n : Fin 15, (Scope.behind (Clause.counted (c.body.take n))).cases = 0 := by
    decide +kernel
  cases hanswer : ((Statement.read 1).run (c.tokens ++ d.tokens)).answer with
  | error e => simp [hanswer, Except.toOption] at hread
  | ok st =>
    have hclauses : st.clauses = [c, d] := by simpa [hanswer, Except.toOption] using hread
    refine ⟨st, rfl, hclauses, fun front hfront => ?_⟩
    have hcase := ((strays_behind_case 1 _ st hanswer c (by simp [hclauses])).2 front hfront).2.1
    obtain ⟨opening, t, back, k, hbody, -⟩ := hfront
    have hsplit : c.body = front ++ t :: back := (Prod.mk.inj (Option.some.inj hbody)).2
    have hle : front.length ≤ c.body.length := List.IsPrefix.length_le ⟨_, hsplit.symm⟩
    have hzero := hnone ⟨front.length, Nat.lt_succ_of_le hle⟩
    rw [hsplit, List.take_left] at hzero
    rw [hzero] at hcase
    contradiction

/-- The CASE is never closed, and the parenthesis around it does not close it either. The WHERE goes
to the DELETE, whose rule permits neither. -/
theorem where_behind_case :
    let text := "DELETE FROM t (CASE) WHERE a = 1".toList
    ∃ st c front, ((Statement.read 64).run (tokenize {} text)).answer = .ok st ∧
      st.clauses = [c] ∧ c.kind.rule.permits false .case = false ∧ c.Strays front := by
  intro text
  let front : List Token := [⟨.keyword .from, 7, "FROM".toList⟩, ⟨.identifier, 12, ['t']⟩,
    ⟨.punctuation .openParen, 14, ['(']⟩, ⟨.keyword .case, 15, "CASE".toList⟩,
    ⟨.punctuation .closeParen, 19, [')']⟩]
  let c : Clause := ⟨.delete, ⟨.keyword .delete, 0, "DELETE".toList⟩,
    front ++ [⟨.keyword .where, 21, "WHERE".toList⟩, ⟨.identifier, 27, ['a']⟩,
      ⟨.operator, 29, ['=']⟩, ⟨.number, 31, ['1']⟩]⟩
  have htokens : tokenize {} text = c.tokens := by decide +kernel
  have hread : ((Statement.read 64).run c.tokens).answer.toOption.map (·.clauses) = some [c] := by
    decide +kernel
  have hstrays : c.Strays front := ⟨[c.lead], _, _, .where, rfl, rfl, rfl, by decide⟩
  cases hanswer : ((Statement.read 64).run c.tokens).answer with
  | error e => simp [hanswer, Except.toOption] at hread
  | ok st =>
    have hclauses : st.clauses = [c] := by simpa [hanswer, Except.toOption] using hread
    exact ⟨st, c, front, htokens ▸ hanswer, hclauses, by decide, hstrays⟩

end SqlOutline
