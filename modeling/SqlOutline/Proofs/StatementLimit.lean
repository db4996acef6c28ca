import SqlOutline.Proofs.Limit

namespace SqlOutline
open Parse

variable {limit n : Nat} {sub sub' : Parse Select}

namespace Parse.LimitsQueries

variable (hsub : LimitsQueries limit n sub sub')
include hsub

theorem clause_bind {α : Type} {kind : ClauseKind} {f g : Clause → Parse α}
    (hf : ∀ c, Limits limit (n + 1) (f c) (g c)) :
    Limits limit (n + 1) (Parse.clause sub kind >>= f) (Parse.clause sub' kind >>= g) :=
  (hsub.clause kind).bind hf

theorem clause?_bind {α : Type} {kind : ClauseKind} {f g : Option Clause → Parse α}
    (hf : ∀ c, Limits limit (n + 1) (f c) (g c)) :
    Limits limit (n + 1) (Parse.clause? sub kind >>= f) (Parse.clause? sub' kind >>= g) :=
  (hsub.clause? kind).bind hf

theorem readCore : Limits limit (n + 1) (Select.readCore sub) (Select.readCore sub') := by
  refine hsub.clause_bind fun select => ?_
  refine hsub.clause?_bind fun into => ?_
  refine hsub.clause?_bind fun fromClause => ?_
  refine hsub.clause?_bind fun whereClause => ?_
  refine hsub.clause?_bind fun groupBy => ?_
  exact hsub.clause?_bind fun having => .pure _

/-- A bare operand is on the level of the operator, one in parentheses is a level below it. -/
theorem readOperand (operator : Clause) :
    Limits limit (n + 1) (Select.readOperand sub operator) (Select.readOperand sub' operator) := by
  refine .take?_bind (fun paren opening => ⟨n, ?_, ?_⟩) (hsub.readCore.bind fun core => .pure _)
  · simp [Token.opened, opening]
  · refine .bind .trivia fun gap => .ite_atKeyword (fun s hs => ?_) (.failExpecting _)
    refine (hsub s hs).bind fun query => .bind (.expect _ _) fun close => ?_
    exact .bind .trivia fun rest => .pure _

theorem readOperations :
    Limits limit (n + 1) (Select.readOperations sub) (Select.readOperations sub') :=
  .each fun lead _ => (hsub.following .setOperator lead).bind hsub.readOperand

theorem read (w : Option Clause) :
    Limits limit (n + 1) (Select.read sub w) (Select.read sub' w) := by
  refine hsub.readCore.bind fun core => ?_
  refine hsub.readOperations.bind fun operations => ?_
  refine hsub.clause?_bind fun orderBy => ?_
  refine hsub.clause?_bind fun forClause => ?_
  exact hsub.clause?_bind fun option => .pure _

theorem readSource :
    Limits limit (n + 1) (Statement.readSource sub) (Statement.readSource sub') := by
  refine .ite_atKeyword (fun s _ => (hsub.clause _).map _ s) ?_
  refine .ite_atKeyword (fun s _ => (hsub.read _).map _ s) ?_
  refine .ite_atKeyword (fun s _ => (hsub.clause _).map _ s) ?_
  exact .ite_atKeyword (fun s _ => (hsub.clause _).map _ s) (.failExpecting _)

theorem readInsert (w : Option Clause) :
    Limits limit (n + 1) (Statement.readInsert sub w) (Statement.readInsert sub' w) := by
  refine hsub.clause_bind fun insert => ?_
  refine hsub.clause?_bind fun output => ?_
  exact hsub.readSource.bind fun source => .pure _

theorem readUpdate (w : Option Clause) :
    Limits limit (n + 1) (Statement.readUpdate sub w) (Statement.readUpdate sub' w) := by
  refine hsub.clause_bind fun update => ?_
  refine hsub.clause_bind fun set => ?_
  refine hsub.clause?_bind fun output => ?_
  refine hsub.clause?_bind fun fromClause => ?_
  refine hsub.clause?_bind fun whereClause => ?_
  exact hsub.clause?_bind fun option => .pure _

theorem readDelete (w : Option Clause) :
    Limits limit (n + 1) (Statement.readDelete sub w) (Statement.readDelete sub' w) := by
  refine hsub.clause_bind fun delete => ?_
  refine hsub.clause?_bind fun output => ?_
  refine hsub.clause?_bind fun fromClause => ?_
  refine hsub.clause?_bind fun whereClause => ?_
  exact hsub.clause?_bind fun option => .pure _

theorem readMerge (w : Option Clause) :
    Limits limit (n + 1) (Statement.readMerge sub w) (Statement.readMerge sub' w) := by
  refine hsub.clause_bind fun merge => ?_
  refine hsub.clause_bind fun usingClause => ?_
  refine hsub.clause_bind fun on => ?_
  refine hsub.clause_bind fun branch => ?_
  refine (hsub.clauses .when).bind fun branches => ?_
  refine hsub.clause?_bind fun output => ?_
  exact hsub.clause?_bind fun option => .pure _

theorem readMain (w : Option Clause) :
    Limits limit (n + 1) (Statement.readMain sub w) (Statement.readMain sub' w) := by
  refine .bind .current fun t => ?_
  split
  · exact .failExpecting _
  split
  · exact (hsub.read w).map _
  · exact (hsub.readInsert w).map _
  · exact (hsub.readUpdate w).map _
  · exact (hsub.readDelete w).map _
  · exact (hsub.readMerge w).map _
  split
  · exact .failExpecting _
  · refine .of_never fun s l position r h => ?_
    cases (fails_fail.mp h).1

end Parse.LimitsQueries

/-- The induction is on the room of the first. Where it has none, it stops at the query itself. -/
theorem Select.limits_readNested (depth : Nat) {room room' : Nat} (h : room ≤ room') :
    LimitsQueries (depth + room) room (readNested depth room) (readNested depth room') := by
  induction room generalizing depth room' with
  | zero =>
    intro s hs
    cases s with
    | nil => cases hs
    | cons t r =>
      refine .stopped (fails_fail.mpr ⟨rfl, rfl⟩) (by simpa [Ahead.atKeyword, Token.isOneOf] using hs)
        ?_ ((readNested depth room').forward _)
      exact Nat.le_of_eq (Nat.zero_add _)
  | succ room ih =>
    obtain ⟨room', rfl⟩ := Nat.exists_eq_succ_of_ne_zero (Nat.ne_zero_of_lt h)
    rw [← Nat.add_assoc, Nat.add_right_comm]
    have hsub := ih (depth + 1) (Nat.le_of_succ_le_succ h)
    exact fun s _ => Limits.bind (.log _) (fun _ => hsub.read none) s

/-- A statement that is read with room for fewer levels of queries comes to the same as with room for
more, or stops at the query for which there is no room. -/
theorem Statement.limits_read {depth depth' : Nat} (h : depth ≤ depth') :
    Limits depth (depth + 1) (read depth) (read depth') := by
  have hsub := Select.limits_readNested 0 h
  rw [Nat.zero_add] at hsub
  refine hsub.clause?_bind fun w => (hsub.readMain w).bind fun statement => ?_
  exact .bind (.log _) fun _ => .pure _

end SqlOutline
