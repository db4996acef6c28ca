import SqlOutline.Proofs.ClauseCompletion
import SqlOutline.Proofs.Splits

namespace SqlOutline
open Parse Clause

variable {depth room : Nat}

theorem Parse.completes_optional (nests : Nests depth room) (kind : ClauseKind) :
    (clause? (Select.readNested depth room) kind).Completes room [] (Ahead.Opens []) :=
  completes_clause? nests kind [] (fun _ hk => absurd hk List.not_mem_nil) fun _ _ => List.not_mem_nil

namespace Select

theorem completes_readCore (nests : Nests depth room) :
    (readCore (readNested depth room)).Completes room [.ofKeyword .select] (Ahead.Opens []) := by
  have optional := completes_optional nests
  have hselect : (clause (readNested depth room) .select).Completes room [.ofKeyword .select]
      (Ahead.Opens []) :=
    completes_clause nests .select .select [] (by decide) (by decide) (by decide)
  refine hselect.bind_rest fun select => ?_
  refine (optional .into).bind_rest fun into => ?_
  refine (optional .from).bind_rest fun fromClause => ?_
  refine (optional .where).bind_rest fun whereClause => ?_
  refine (optional .groupBy).bind_rest fun groupBy => ?_
  refine (optional .having).bind_rest fun having => ?_
  exact .pure _ _ _

/-- An operand that has opened its parenthesis needs a query and the other parenthesis. Without one
it is the core of a query. -/
theorem completes_readOperand (nests : Nests depth room) (operator : Clause) :
    (readOperand (readNested depth room) operator).Completes room [.ofKeyword .select]
      (Ahead.Opens []) := by
  refine .take?_bind [.ofKeyword .select, .closeParen] (fun paren s opening hroom => ?_) ?_
    fun y _ => ?_
  · obtain ⟨k, hk, hsub⟩ := nests.of_open opening hroom
    have hrest (found : List Token → SetOperation) :
        (do return found (← trivia) : Parse SetOperation).Completes k [] (Ahead.Opens []) :=
      (Completes.trivia k).bind (fun rest => .pure _ _ _) fun y hy => hy.settled
    have hclose : (expect "')'" (·.isPunctuation .closeParen)).Completes k [.closeParen]
        fun _ => True :=
      .expect _ rfl Token.closeParen_mem_finishing k
    have hquery (gap : List Token) := hsub.bind
      (fun query => hclose.bind
        (fun close => hrest fun rest => ⟨operator.push (paren :: gap), query.push (close :: rest)⟩)
        fun _ _ => trivial)
      fun y _ => .of_close rfl y
    refine ⟨k, hk, (Completes.trivia k).bind (fun gap => ?_) fun y _ => ?_⟩
    · exact (hquery gap).ite_atKeyword (.fail _ _ _) fun y => rfl
    · exact (Ahead.Opens.of_ofKeyword _ _).settled
  · exact (completes_readCore nests).bind_rest fun core => .pure _ _ _
  · exact (Ahead.Opens.of_ofKeyword _ y).no_openParen

theorem completes_readOperations (nests : Nests depth room) :
    (readOperations (readNested depth room)).Completes room [] (Ahead.Opens []) := by
  have ends : ClauseKind.EndsAt .setOperator [.select] := by decide
  refine .each (fun lead _ => (completes_following nests ends lead).bind
    (completes_readOperand nests) fun y _ => .of_ofKeyword _ y)
    fun y hy => hy.not_atKeyword fun _ _ => List.not_mem_nil

theorem completes_read (nests : Nests depth room) (withClause : Option Clause) :
    (read (readNested depth room) withClause).Completes room [.ofKeyword .select]
      (Ahead.Opens []) := by
  have optional := completes_optional nests
  refine (completes_readCore nests).bind_rest fun core => ?_
  refine (completes_readOperations nests).bind_rest fun operations => ?_
  refine (optional .orderBy).bind_rest fun orderBy => ?_
  refine (optional .for).bind_rest fun forClause => ?_
  refine (optional .option).bind_rest fun option => ?_
  exact .pure _ _ _

/-- The induction is on the room that is left for queries inside queries. -/
theorem nests (depth room : Nat) : Nests depth room := by
  induction room generalizing depth with
  | zero =>
    intro k hk
    cases hk
  | succ room ih =>
    rintro _ ⟨⟩
    exact .log_bind (completes_read (ih (depth + 1)) none)

end Select

namespace Statement

/-- Of the four sources VALUES is the one that needs least. -/
theorem completes_readSource (nests : Nests depth room) :
    (readSource (Select.readNested depth room)).Completes room [.ofKeyword .values]
      (Ahead.Opens []) := by
  have values := completes_clause nests .values .values [] (by decide) (by decide) (by decide)
  have select := Select.completes_read nests none
  have defaultValues :=
    completes_clause nests .defaultValues .default [] (by decide) (by decide) (by decide)
  have execute := completes_clause nests .execute .exec [] (by decide) (by decide) (by decide)
  refine (values.map _).ite_atKeyword ?_ fun y => rfl
  refine .ite_atKeyword (select.map _).toAdvances ?_
  refine .ite_atKeyword (defaultValues.map _).toAdvances ?_
  exact .ite_atKeyword (execute.map _).toAdvances (.fail _ _ _)

/-- Before OUTPUT or a source the first clause of an INSERT has to end, and a source is needed. -/
theorem completes_readInsert (nests : Nests depth room) (withClause : Option Clause) :
    (readInsert (Select.readNested depth room) withClause).Completes room
      [.ofKeyword .insert, .ofKeyword .values] (Ahead.Opens []) := by
  have opens (y : Ahead) : Ahead.Opens [.values] (.ofKeyword .values :: y) :=
    .of_ofKeyword _ y
  have hinsert :=
    completes_clause nests .insert .insert [.values] (by decide) (by decide) (by decide)
  have houtput := completes_clause? nests .output [.values] (by decide) (by decide)
  refine hinsert.bind (fun insert => houtput.bind (fun output => ?_) fun y _ => opens y)
    fun y _ => opens y
  exact (completes_readSource nests).bind_rest fun source => .pure _ _ _

theorem completes_readUpdate (nests : Nests depth room) (withClause : Option Clause) :
    (readUpdate (Select.readNested depth room) withClause).Completes room
      [.ofKeyword .update, .ofKeyword .set] (Ahead.Opens []) := by
  have optional := completes_optional nests
  have hupdate := completes_clause nests .update .update [.set] (by decide) (by decide) (by decide)
  have hset := completes_clause nests .set .set [] (by decide) (by decide) (by decide)
  refine hupdate.bind (fun update => ?_) fun y _ => .of_ofKeyword _ y
  refine hset.bind_rest fun set => ?_
  refine (optional .output).bind_rest fun output => ?_
  refine (optional .from).bind_rest fun fromClause => ?_
  refine (optional .where).bind_rest fun whereClause => ?_
  refine (optional .option).bind_rest fun option => ?_
  exact .pure _ _ _

theorem completes_readDelete (nests : Nests depth room) (withClause : Option Clause) :
    (readDelete (Select.readNested depth room) withClause).Completes room [.ofKeyword .delete]
      (Ahead.Opens []) := by
  have optional := completes_optional nests
  have hdelete := completes_clause nests .delete .delete [] (by decide) (by decide) (by decide)
  refine hdelete.bind_rest fun delete => ?_
  refine (optional .output).bind_rest fun output => ?_
  refine (optional .from).bind_rest fun fromClause => ?_
  refine (optional .where).bind_rest fun whereClause => ?_
  refine (optional .option).bind_rest fun option => ?_
  exact .pure _ _ _

theorem completes_readMerge (nests : Nests depth room) (withClause : Option Clause) :
    (readMerge (Select.readNested depth room) withClause).Completes room
      [.ofKeyword .merge, .ofKeyword .using, .ofKeyword .on, .ofKeyword .when]
      (Ahead.Opens []) := by
  have optional := completes_optional nests
  have hmerge := completes_clause nests .merge .merge [.using] (by decide) (by decide) (by decide)
  have husing := completes_clause nests .using .using [.on] (by decide) (by decide) (by decide)
  have hon := completes_clause nests .on .on [.when] (by decide) (by decide) (by decide)
  have hwhen := completes_clause nests .when .when [] (by decide) (by decide) (by decide)
  have hbranches := completes_clauses nests .when [] (by decide) (by decide)
  refine hmerge.bind (fun merge => ?_) fun y _ => .of_ofKeyword _ _
  refine husing.bind (fun usingClause => ?_) fun y _ => .of_ofKeyword _ _
  refine hon.bind (fun on => ?_) fun y _ => .of_ofKeyword _ _
  refine hwhen.bind_rest fun branch => ?_
  refine hbranches.bind_rest fun branches => ?_
  refine (optional .output).bind_rest fun output => ?_
  refine (optional .option).bind_rest fun option => ?_
  exact .pure _ _ _

/-- Where a statement has to start, a query will do. -/
theorem completes_readMain (nests : Nests depth room) (withClause : Option Clause) :
    (readMain (Select.readNested depth room) withClause).Completes room [.ofKeyword .select]
      (Ahead.Opens []) := by
  have hselect := (Select.completes_read nests withClause).map Statement.select
  refine ⟨.current_bind fun t => ?_, fun y hy => ?_⟩
  · dsimp only
    split
    · exact hselect.toAdvances
    · exact ((completes_readInsert nests withClause).map _).toAdvances
    · exact ((completes_readUpdate nests withClause).map _).toAdvances
    · exact ((completes_readDelete nests withClause).map _).toAdvances
    · exact ((completes_readMerge nests withClause).map _).toAdvances
    · split <;> exact .fail _ _ _
  · obtain ⟨hx, st, hst⟩ := hselect.supplied y hy
    exact ⟨hx, st, Gives.bind (gives_current.mpr ⟨rfl, rfl⟩) hst⟩

theorem completes_read (depth : Nat) :
    (read depth).Completes depth [.ofKeyword .select] (Ahead.Opens []) := by
  have nests := Select.nests 0 depth
  have hwith := completes_clause? nests .with [.select] (by decide) (by decide)
  refine hwith.bind (fun withClause => ?_) fun y _ => .of_ofKeyword _ y
  exact (completes_readMain nests withClause).bind_rest fun statement => .log_bind (.pure _ _ _)

end Statement

namespace Outline

/-- Statements that come to a fault at the end of the tokens can be finished. -/
theorem Fails.finish {s r : Ahead} {e : Fault} (h : Fails depth s e r) (hr : r = [])
    (hroom : Token.opened s ≤ depth) :
    ∃ x ⊆ Token.finishing, ∃ sts, (ofAhead depth (s ++ x)).result = .ok sts := by
  have hread := Statement.completes_read depth
  induction h with
  | @here s r e start first =>
    have hs := Nat.le_trans (Token.opened_of_suffix s.dropNoise_suffix) hroom
    obtain ⟨x, hx⟩ := hread.closes start hs (first.drains_iff.mpr hr)
    obtain ⟨hsub, st, hst⟩ := hx [] (.of_ended .nil)
    rw [List.append_nil, ← Ahead.dropNoise_append start] at hst
    refine ⟨x, hsub, [st], ?_⟩
    rw [result_step hst, result_done rfl, Except.map]
  | @later s m r st e first rest ih =>
    have hs := Nat.le_trans (Token.opened_of_suffix s.dropNoise_suffix) hroom
    obtain ⟨x, hsub, sts, hsts⟩ := ih hr (Nat.le_trans (Token.opened_of_suffix first.suffix) hs)
    have hm : m ≠ [] := by
      rintro rfl
      cases (result_done rfl).symm.trans rest.result
    have start := first.ne_nil hm
    have hst := hread.grows x first hm hs
    rw [← Ahead.dropNoise_append start] at hst
    refine ⟨x, hsub, st :: sts, ?_⟩
    rw [result_step hst, hsts, Except.map]

end Outline

end SqlOutline
