import Mathlib.Data.List.TakeWhile
import SqlOutline.Command.Log
import SqlOutline.Proofs.Congruence
import SqlOutline.Proofs.Delivery
import SqlOutline.Proofs.Mirror
import SqlOutline.Proofs.Significant
import SqlOutline.Proofs.StatementSegments

namespace SqlOutline
open Parse

namespace Token

theorem isPunctuation_of_ne {t : Token} {p q : Punctuation} (h : t.isPunctuation p = true)
    (hpq : p ≠ q) : t.isPunctuation q = false := by
  simp_all [isPunctuation]

/-- A SELECT is the first token but for whitespace and comments. -/
def beginQuery (ts : List Token) : Bool :=
  (significant ts).head?.any (·.isKeyword .select)

/-- How many parentheses open in front of a SELECT. -/
def queries : List Token → Nat
  | [] => 0
  | t :: ts => (if t.isPunctuation .openParen && beginQuery ts then 1 else 0) + queries ts

theorem beginQuery_eq (s : Ahead) :
    beginQuery s = Ahead.atKeyword [.select] (s.dropWhile isTrivia) := by
  have hhead : (significant s).head? = (s.dropWhile isTrivia).head? := by
    rw [significant, List.head?_filter, List.find?_not_eq_head?_dropWhile]
  simp [beginQuery, hhead, Ahead.atKeyword, isOneOf]

theorem queries_cons {t : Token} (h : t.isPunctuation .openParen = false) (ts : List Token) :
    queries (t :: ts) = queries ts := by
  simp [queries, h]

theorem queries_cons_open {t : Token} (h : t.isPunctuation .openParen = true) (ts : List Token) :
    queries (t :: ts) = queries ts + if beginQuery ts then 1 else 0 := by
  simp [queries, h, Nat.add_comm]

theorem queries_dropWhile (s : Ahead) : queries (s.dropWhile isTrivia) = queries s := by
  induction s with
  | nil => rfl
  | cons t s ih =>
    cases ht : t.isTrivia with
    | true =>
      rw [List.dropWhile_cons_of_pos ht, queries_cons (isPunctuation_of_isTrivia ht _), ih]
    | false => rw [List.dropWhile_cons_of_neg (by simp [ht])]

/-- Only where the tokens end inside a parenthesis what follows could tell whether a query begins, and
there the statement has ended. -/
theorem beginQuery_append {us : List Token} {r : Ahead} {n m : Nat}
    (h : level (n + 1) us = some m) (hr : m = 0 ∨ r.Ended) :
    beginQuery (us ++ r) = beginQuery us := by
  cases hus : significant us with
  | cons t ts => simp [beginQuery, hus]
  | nil =>
    have htrivia : ∀ t ∈ us, t.isTrivia = true := by simpa [significant] using hus
    have hlevel := level_of_plain (n + 1) fun t ht p => isPunctuation_of_isTrivia (htrivia t ht) p
    obtain rfl := Option.some.inj (hlevel.symm.trans h)
    have hended := hr.resolve_left (Nat.succ_ne_zero n)
    cases r with
    | nil => rw [List.append_nil]
    | cons t r =>
      have hsign := hended t rfl
      have hkind : t.isKeyword .select = false := by
        simp_all [isPunctuation, isKeyword]
      have hfirst : significant (t :: r) = t :: significant r :=
        List.filter_cons_of_pos (by simp [isTrivia_of_isPunctuation hsign])
      simp [beginQuery, hus, hfirst, hkind]

theorem queries_append {ts : List Token} {r : Ahead} {n m : Nat} (h : level n ts = some m)
    (hr : m = 0 ∨ r.Ended) : queries (ts ++ r) = queries ts + queries r := by
  induction ts generalizing n with
  | nil => simp [queries]
  | cons t ts ih =>
    simp only [level] at h
    cases ho : t.isPunctuation .openParen with
    | true =>
      rw [if_pos ho] at h
      rw [List.cons_append, queries_cons_open ho, queries_cons_open ho, ih h,
        beginQuery_append h hr]
      omega
    | false =>
      rw [if_neg (by simp [ho])] at h
      rw [List.cons_append, queries_cons ho, queries_cons ho]
      split at h
      · cases n with
        | zero => cases h
        | succ n => exact ih h
      · exact ih h

end Token

/-- The log tells of queries only, none of them beyond the limit, and at its end of the fault if the
parse has come to one. If it has not, then the queries and those ahead are `total`. -/
inductive Reply.Tells {α : Type} (limit total : Nat) : Reply α → Prop where
  | ok {a : α} {s : Ahead} (depths : List Nat) (range : ∀ d ∈ depths, 1 ≤ d ∧ d ≤ limit)
      (count : depths.length + Token.queries s = total) :
      Tells limit total ⟨.ok a, s, depths.map .subquery⟩
  | error {e : Fault} {s : Ahead} (depths : List Nat) (range : ∀ d ∈ depths, 1 ≤ d ∧ d ≤ limit) :
      Tells limit total ⟨.error e, s, depths.map .subquery ++ [.failed e]⟩

theorem Reply.Tells.andThen {α β : Type} {limit total : Nat} {r : Reply α} {f : α → Ahead → Reply β}
    (h : r.Tells limit total)
    (hf : ∀ a, r.answer = .ok a → (f a r.ahead).Tells limit (Token.queries r.ahead)) :
    (r.andThen f).Tells limit total := by
  cases h with
  | @ok a s depths range count =>
    have hf := hf a rfl
    simp only [Reply.andThen] at hf ⊢
    generalize f a s = q at hf ⊢
    cases hf with
    | ok depths' range' count' =>
      rw [← List.map_append]
      refine .ok _ (List.forall_mem_append.mpr ⟨range, range'⟩) ?_
      rw [List.length_append, Nat.add_assoc, count', count]
    | error depths' range' =>
      rw [← List.append_assoc, ← List.map_append]
      exact .error _ (List.forall_mem_append.mpr ⟨range, range'⟩)
  | error depths range => exact .error depths range

namespace Parse

/-- The log tells of all the queries that are read, and of nothing else but a fault. -/
def Tells {α : Type} (limit : Nat) (p : Parse α) : Prop :=
  ∀ s, (p.run s).Tells limit (Token.queries s)

/-- What is read is a query itself. -/
def TellsQuery {α : Type} (limit : Nat) (p : Parse α) : Prop :=
  ∀ s, (p.run s).Tells limit (Token.queries s + 1)

variable {α β σ : Type} {limit : Nat} {p : Parse α} {sub : Parse Select}

theorem TellsQuery.bind {f : α → Parse β} (hp : p.TellsQuery limit) (hf : ∀ a, (f a).Tells limit) :
    (p >>= f).TellsQuery limit :=
  fun s => (hp s).andThen fun a _ => hf a _

theorem TellsQuery.log {depth : Nat} (h : 1 ≤ depth ∧ depth ≤ limit) :
    (Parse.log (.subquery depth)).TellsQuery limit :=
  fun _ => .ok [depth] (List.forall_mem_singleton.mpr h) (Nat.add_comm _ _)

theorem TellsQuery.fail (fault : Ahead → Fault) : (Parse.fail fault : Parse α).TellsQuery limit :=
  fun _ => .error [] nofun

namespace Tells

theorem silent {a : α} {s r : Ahead} (h : Token.queries r = Token.queries s) :
    Reply.Tells limit (Token.queries s) ⟨.ok a, r, []⟩ :=
  .ok [] nofun ((Nat.zero_add _).trans h)

theorem pure (a : α) : (Pure.pure a : Parse α).Tells limit :=
  fun _ => silent rfl

theorem current : Parse.current.Tells limit :=
  fun _ => silent rfl

theorem atKeyword (ks : List Keyword) : (Parse.atKeyword ks).Tells limit :=
  fun _ => silent rfl

theorem trivia : Parse.trivia.Tells limit :=
  fun s => silent (Token.queries_dropWhile s)

theorem fail (fault : Ahead → Fault) : (Parse.fail fault : Parse α).Tells limit :=
  fun _ => .error [] nofun

theorem failExpecting (expected : String) : (Parse.failExpecting expected : Parse α).Tells limit :=
  fail _

theorem bind {f : α → Parse β} (hp : p.Tells limit)
    (hf : ∀ ⦃s a r⦄, p.Gives s a r → (f a).Tells limit) : (p >>= f).Tells limit :=
  fun s => (hp s).andThen fun _ ha => hf (.of_answer ha) _

/-- A token that opens no parenthesis is none to count. -/
theorem take? {wanted : Token → Bool}
    (h : ∀ t, wanted t = true → t.isPunctuation .openParen = false) :
    (Parse.take? wanted).Tells limit := by
  intro s
  cases s with
  | nil => exact silent rfl
  | cons t s =>
    cases ht : wanted t with
    | true =>
      simp only [Parse.take?, ht, if_true]
      exact silent (Token.queries_cons (h t ht) s).symm
    | false =>
      simp only [Parse.take?, ht, Bool.false_eq_true, if_false]
      exact silent rfl

theorem expect {wanted : Token → Bool}
    (h : ∀ t, wanted t = true → t.isPunctuation .openParen = false) (expected : String) :
    (Parse.expect expected wanted).Tells limit := by
  refine bind (take? h) fun s t r _ => ?_
  split
  · exact pure _
  · exact failExpecting expected

/-- Of a piece it is enough to know what it does behind the token that begins it. -/
theorem collect {stops : σ → Token → Bool} {piece : σ → Token → Parse (List α × σ)}
    (h : ∀ st t s, stops st t = false → ((piece st t).run s).Tells limit (Token.queries (t :: s)))
    (st : σ) : (Parse.collect stops piece st).Tells limit := by
  intro s
  induction st, s using collect_induction stops with
  | nil st =>
    rw [run_collect_nil]
    exact silent rfl
  | stop st t s stop =>
    rw [run_collect_of_stops stop]
    exact silent rfl
  | step st t s go ih =>
    rw [run_collect_cons go]
    refine (h st t s go).andThen fun x _ => ?_
    exact (ih x.2 _ ((piece st t).forward s)).andThen fun y _ => pure _ _

theorem each {ks : List Keyword} {item : Token → Parse α} (h : ∀ t, (item t).Tells limit) :
    (Parse.each ks item).Tells limit := by
  refine bind (collect (fun _ t s go => ?_) ()) fun _ _ _ _ => pure _
  have hlead : t.isOneOf ks = true := by simpa using go
  rw [Token.queries_cons (Token.isPunctuation_of_isOneOf hlead _)]
  exact bind (h t) (fun _ _ _ _ => pure _) s

/-- Behind an opening parenthesis it matters what follows. -/
theorem bind_openParen {f : Option Token → Parse α} (missing : (f none).Tells limit)
    (found : ∀ t s, t.isPunctuation .openParen = true →
      ((f (some t)).run s).Tells limit (Token.queries (t :: s))) :
    (Parse.take? (·.isPunctuation .openParen) >>= f).Tells limit := by
  intro s
  cases s with
  | nil => exact missing []
  | cons t s =>
    cases ht : t.isPunctuation .openParen with
    | true =>
      have hrun : (Parse.take? (·.isPunctuation .openParen) >>= f).run (t :: s) =
          (f (some t)).run s := by
        simp only [run_bind, Parse.take?, ht, if_true, Reply.andThen, List.nil_append]
      exact hrun ▸ found t s ht
    | false =>
      have hrun : (Parse.take? (·.isPunctuation .openParen) >>= f).run (t :: s) =
          (f none).run (t :: s) := by
        simp only [run_bind, Parse.take?, ht, Bool.false_eq_true, if_false, Reply.andThen,
          List.nil_append]
      exact hrun ▸ missing (t :: s)

/-- A query is counted at the parenthesis in front of it, and told of where it is read. -/
theorem paren {t : Token} (ht : t.isPunctuation .openParen = true) {found other : List Token → Parse α}
    (hfound : ∀ gap, (found gap).TellsQuery limit) (hother : ∀ gap, (other gap).Tells limit)
    (s : Ahead) :
    Reply.Tells limit (Token.queries (t :: s))
      ((Parse.trivia >>= fun gap => Parse.atKeyword [.select] >>= fun b =>
        if b = true then found gap else other gap).run s) := by
  let r := s.dropWhile Token.isTrivia
  let gap := s.takeWhile Token.isTrivia
  have hrun : (Parse.trivia >>= fun gap => Parse.atKeyword [.select] >>= fun b =>
      if b = true then found gap else other gap).run s =
        (if Ahead.atKeyword [.select] r = true then found gap else other gap).run r := rfl
  rw [hrun, Token.queries_cons_open ht, Token.beginQuery_eq, ← Token.queries_dropWhile s]
  split
  · exact hfound gap r
  · exact hother gap r

section clause

variable (hsub : sub.TellsQuery limit)
include hsub

theorem piece (scope : Scope) (t : Token) (s : Ahead) :
    ((Clause.piece sub scope t).run s).Tells limit (Token.queries (t :: s)) := by
  unfold Clause.piece
  split
  next ht =>
    refine paren ht (fun gap => hsub.bind fun query => ?_) (fun gap => pure _) s
    refine bind (take? fun t closing => ?_) fun _ close _ _ => ?_
    · exact Token.isPunctuation_of_ne closing (by decide)
    · split <;> exact pure _
  next ht =>
    rw [Token.queries_cons (by simpa using ht)]
    exact silent rfl

theorem following (kind : ClauseKind) (lead : Token) :
    (Clause.following sub kind lead).Tells limit := by
  have second : (Clause.second kind).Tells limit := by
    unfold Clause.second
    split
    · exact pure _
    · refine bind trivia fun _ gap _ _ => bind (expect (fun t ht => ?_) _) fun _ _ _ _ => pure _
      simp_all [Token.isKeyword, Token.isPunctuation]
  refine bind second fun _ _ _ _ => ?_
  exact bind (collect (fun st t s _ => piece hsub st t s) _) fun _ _ _ _ => pure _

theorem clause (kind : ClauseKind) : (Parse.clause sub kind).Tells limit := by
  refine bind (expect (fun t ht => ?_) _) fun _ lead _ _ => following hsub kind lead
  exact Token.isPunctuation_of_isOneOf ht _

theorem clause? (kind : ClauseKind) : (Parse.clause? sub kind).Tells limit := by
  refine bind (take? fun t ht => Token.isPunctuation_of_isOneOf ht _) fun _ lead _ _ => ?_
  split
  · exact bind (following hsub kind _) fun _ _ _ _ => pure _
  · exact pure _

theorem readOperand (core : (Select.readCore sub).Tells limit) (operator : Clause) :
    (Select.readOperand sub operator).Tells limit := by
  refine bind_openParen (bind core fun _ _ _ _ => pure _) fun paren s ht => ?_
  refine Tells.paren ht (fun gap => hsub.bind fun query => ?_) (fun gap => failExpecting _) s
  refine bind (expect (fun t closing => ?_) _) fun _ close _ _ => ?_
  · exact Token.isPunctuation_of_ne closing (by decide)
  · exact bind trivia fun _ _ _ _ => pure _

/-- To tell of queries is a trait. -/
def trait : Trait sub where
  Holds := Tells limit
  pure := pure
  bind := bind
  failExpecting := failExpecting
  atKeyword := atKeyword
  clause := clause hsub
  clause? := clause? hsub
  clauses kind := each (following hsub kind)
  operations core := each fun lead =>
    bind (following hsub _ lead) fun _ operator _ _ => readOperand hsub core operator

end clause

end Tells

/-- Each query in parentheses is told of with its depth, and the limit is kept. -/
theorem tellsQuery_readNested {limit depth room : Nat} (h : depth + room = limit) :
    (Select.readNested depth room).TellsQuery limit := by
  induction room generalizing depth with
  | zero => exact .fail _
  | succ room ih =>
    have inner : (Select.readNested (depth + 1) room).TellsQuery limit := ih (by omega)
    exact (TellsQuery.log ⟨by omega, by omega⟩).bind fun _ => (Tells.trait inner).readSelect none

end Parse

theorem Reply.andThen_assoc {α β γ : Type} (r : Reply α) (f : α → Ahead → Reply β)
    (g : β → Ahead → Reply γ) :
    (r.andThen f).andThen g = r.andThen fun a s => (f a s).andThen g := by
  obtain ⟨answer, s, log⟩ := r
  cases answer with
  | error e => rfl
  | ok a =>
    simp only [andThen]
    cases (f a s).answer with
    | error e => rfl
    | ok b => simp only [List.append_assoc]

namespace Statement

/-- The events of a statement: each of its queries with its depth, and then the statement. -/
def Logged (limit : Nat) (st : Statement) (events : List Event) : Prop :=
  ∃ depths : List Nat, events = depths.map .subquery ++ [.parsed st.kind st.span] ∧
    depths.length = Token.queries st.tokens ∧ ∀ d ∈ depths, 1 ≤ d ∧ d ≤ limit

/-- What is left of the log of a run that came to no statement any more: the queries as far as they
were read, and the fault. -/
def Broken (limit : Nat) (e : Fault) (events : List Event) : Prop :=
  ∃ depths : List Nat, events = depths.map .subquery ++ [.failed e] ∧
    ∀ d ∈ depths, 1 ≤ d ∧ d ≤ limit

variable {depth : Nat} {s r : Ahead} {st : Statement} {e : Fault}

/-- A statement is told of behind all that stands in it. -/
theorem run_read (depth : Nat) (s : Ahead) :
    ∃ reply : Reply Statement, reply.Tells depth (Token.queries s) ∧
      (read depth).run s =
        reply.andThen fun st r => ⟨.ok st, r, [.parsed st.kind st.span]⟩ := by
  have hsub := tellsQuery_readNested (Nat.zero_add depth)
  let body : Parse Statement := do
    let w ← clause? (Select.readNested 0 depth) .with
    readMain (Select.readNested 0 depth) w
  have hbody : body.Tells depth := Tells.bind (Tells.clause? hsub .with) fun _ w _ _ =>
    (Tells.trait hsub).readMain (fun _ => Tells.fail _) Tells.current
  refine ⟨body.run s, hbody s, ?_⟩
  rw [run_bind, Reply.andThen_assoc]
  rfl

theorem logged_of_gives (h : (read depth).Gives s st r) :
    st.Logged depth ((read depth).run s).log := by
  have hreads := Segments.readStatement depth h
  obtain ⟨n, hlevel, hend⟩ := hreads.nested
  have hqueries : Token.queries s = Token.queries st.tokens + Token.queries r := by
    rw [← Token.queries_append hlevel hend, ← hreads.split]
  obtain ⟨reply, htells, hrun⟩ := run_read depth s
  obtain ⟨ha, hr⟩ := h
  rw [hrun] at ha hr ⊢
  cases htells with
  | @ok st' m depths range count =>
    cases ha
    have hm : m = r := hr
    rw [hm, hqueries] at count
    exact ⟨depths, rfl, Nat.add_right_cancel count, range⟩
  | error => cases ha

theorem broken_of_fails (h : (read depth).Fails s e r) :
    Broken depth e ((read depth).run s).log := by
  obtain ⟨reply, htells, hrun⟩ := run_read depth s
  obtain ⟨ha, -⟩ := h
  rw [hrun] at ha ⊢
  cases htells with
  | ok => cases ha
  | error depths range =>
    cases ha
    exact ⟨depths, rfl, range⟩

theorem not_mem_logs {sts : List Statement} {logs : List (List Event)}
    (h : List.Forall₂ (Logged depth) sts logs) (e : Fault) : .failed e ∉ logs.flatten := by
  induction h with
  | nil => exact List.not_mem_nil
  | cons first _ ih =>
    obtain ⟨depths, rfl, -, -⟩ := first
    simpa using ih

theorem Broken.count {rest : List Event} (h : Broken depth e rest) (e' : Fault) :
    rest.count (.failed e') = if e' = e then 1 else 0 := by
  obtain ⟨depths, rfl, -⟩ := h
  have hnone : (depths.map Event.subquery).count (.failed e') = 0 :=
    List.count_eq_zero.mpr (by simp)
  rw [List.count_append, hnone, List.count_singleton, Nat.zero_add]
  simp only [beq_iff_eq, Event.failed.injEq, eq_comm (a := e)]

theorem Broken.getLast? {rest : List Event} (h : Broken depth e rest) :
    rest.getLast? = some (.failed e) := by
  obtain ⟨depths, rfl, -⟩ := h
  exact List.getLast?_concat

end Statement

/-- The events of one statement after the other, and at the end those of the fault if there is one. -/
theorem Outline.logged (depth : Nat) (s : Ahead) :
    ∃ (logs : List (List Event)) (rest : List Event),
      (ofAhead depth s).log = logs.flatten ++ rest ∧
      List.Forall₂ (Statement.Logged depth) (ofAhead depth s).statements logs ∧
      ((ofAhead depth s).fault = none ∧ rest = [] ∨
        ∃ e, (ofAhead depth s).fault = some e ∧ Statement.Broken depth e rest) := by
  fun_induction ofAhead depth s with
  | case1 => exact ⟨[], [], rfl, .nil, .inl ⟨rfl, rfl⟩⟩
  | case2 s _ reply e he =>
    exact ⟨[], _, rfl, .nil, .inr ⟨e, rfl, Statement.broken_of_fails ⟨he, rfl⟩⟩⟩
  | case3 s _ reply st hst _ outline ih =>
    obtain ⟨logs, rest, hlog, hlogs, hrest⟩ := ih
    refine ⟨reply.log :: logs, rest, ?_, ?_, hrest⟩
    · rw [List.flatten_cons, List.append_assoc, ← hlog]
    · exact .cons (Statement.logged_of_gives ⟨hst, rfl⟩) hlogs

/-- The log of a text tells of its statements in the order in which they are read, each with its kind
and its place behind the queries of its own, as many as open in it, none of them beyond the limit.
A fault is told of once, where the log ends. -/
theorem log_mirrors_parse (settings : Settings) (text : List Char) :
    let outline := Outline.ofText settings text
    (∀ k, (StatementReader.ofText settings text).item k =
      (outline.statements.map .ok ++ outline.fault.toList.map .error)[k]?) ∧
    ∃ (logs : List (List Event)) (rest : List Event), outline.log = logs.flatten ++ rest ∧
      List.Forall₂ (Statement.Logged settings.depth) outline.statements logs ∧
      (outline.result = .ok outline.statements ∧ rest = [] ∧ (∀ e, .failed e ∉ outline.log) ∨
        ∃ e, outline.result = .error e ∧ Statement.Broken settings.depth e rest ∧
          (∀ e', outline.log.count (.failed e') = if e' = e then 1 else 0) ∧
          (outline.log.map Log.event).getLast? =
            some ("statement parse failed error=".toList ++ e.message)) := by
  intro outline
  obtain ⟨logs, rest, hlog, hlogs, hrest⟩ := Outline.logged settings.depth (tokenize settings text)
  change outline.log = _ at hlog
  change outline.fault = _ ∧ _ ∨ ∃ e, outline.fault = _ ∧ _ at hrest
  refine ⟨(StatementReader.ofText settings text).item_eq, logs, rest, hlog, hlogs, ?_⟩
  rcases hrest with ⟨hfault, rfl⟩ | ⟨e, hfault, hbroken⟩
  · refine .inl ⟨?_, rfl, fun e => ?_⟩
    · rw [Outline.result, hfault]
    · rw [hlog, List.append_nil]
      exact Statement.not_mem_logs hlogs e
  · refine .inr ⟨e, ?_, hbroken, fun e' => ?_, ?_⟩
    · rw [Outline.result, hfault]
    · have hnone := List.count_eq_zero.mpr (Statement.not_mem_logs hlogs e')
      rw [hlog, List.count_append, hnone, Nat.zero_add, hbroken.count]
    · rw [hlog, List.getLast?_map, List.getLast?_append, hbroken.getLast?]
      rfl

/-- Three queries stand in the statement, the last of them inside the second. What follows starts no
statement. -/
example :
    (Outline.ofText {} "SELECT (SELECT 1) UNION (SELECT 2 FROM (SELECT 3)); GO".toList).log =
      [.subquery 1, .subquery 1, .subquery 2, .parsed .select ⟨0, 49⟩,
        .failed (.unrecognized "GO".toList 52)] := by
  decide +kernel

end SqlOutline
