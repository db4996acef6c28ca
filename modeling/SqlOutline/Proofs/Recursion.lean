import SqlOutline.Proofs.Locality

namespace SqlOutline
open Parse

namespace Parse

variable {α : Type}

theorem eq_of_run {p q : Parse α} (h : ∀ s, p.run s = q.run s) : p = q := by
  obtain ⟨run, forward⟩ := p
  obtain ⟨run', forward'⟩ := q
  obtain rfl : run = run' := funext h
  rfl

/-- Reads with `p` what passes the test, and with `q` all else. -/
def choose (test : Ahead → Prop) [DecidablePred test] (p q : Parse α) : Parse α where
  run s := if test s then p.run s else q.run s
  forward s := by
    split
    · exact p.forward s
    · exact q.forward s

end Parse

namespace Select

/-- One level of queries in parentheses: a query behind `depth` open ones, which reads those inside
it with `inner`. -/
def readLevel (depth : Nat) (inner : Parse Select) : Parse Select := do
  log (.subquery (depth + 1))
  read inner none

theorem readNested_succ (depth room : Nat) :
    readNested depth (room + 1) = readLevel depth (readNested (depth + 1) room) := rfl

theorem readLevel_agree {n : Nat} {inner inner' : Parse Select} (h : inner.AgreeBelow n inner')
    (depth : Nat) : (readLevel depth inner).AgreeBelow (n + 1) (readLevel depth inner') :=
  .bind (.refl _ _) fun _ => .readSelect h none

/-- Room for more queries than parentheses are opened makes no difference. -/
theorem readNested_agree {n room room' : Nat} (h : n ≤ room) (h' : n ≤ room') (depth : Nat) :
    (readNested depth room).AgreeBelow n (readNested depth room') := by
  induction n generalizing depth room room' with
  | zero =>
    intro s hs
    exact absurd hs (Nat.not_lt_zero _)
  | succ n ih =>
    obtain ⟨room, rfl⟩ := Nat.exists_eq_add_one_of_ne_zero (Nat.ne_zero_of_lt h)
    obtain ⟨room', rfl⟩ := Nat.exists_eq_add_one_of_ne_zero (Nat.ne_zero_of_lt h')
    rw [readNested_succ, readNested_succ]
    have inner := ih (Nat.le_of_succ_le_succ h) (Nat.le_of_succ_le_succ h') (depth + 1)
    exact readLevel_agree inner depth

/-- Readers of the queries at each depth, every one of which reads those inside it with the next.
Nothing limits how deep they go. -/
def Unlimited (sub : Nat → Parse Select) : Prop :=
  ∀ depth, sub depth = readLevel depth (sub (depth + 1))

namespace Unlimited

variable {sub sub' : Nat → Parse Select}

theorem agree (h : Unlimited sub) (depth room : Nat) :
    (readNested depth room).AgreeBelow room (sub depth) := by
  induction room generalizing depth with
  | zero =>
    intro s hs
    exact absurd hs (Nat.not_lt_zero _)
  | succ room ih =>
    rw [h depth]
    exact readLevel_agree (ih (depth + 1)) depth

theorem unique (h : Unlimited sub) (h' : Unlimited sub') : sub = sub' := by
  funext depth
  refine eq_of_run fun s => ?_
  have hs := Nat.lt_succ_self (Token.opened s)
  rw [← h.agree depth _ s hs, ← h'.agree depth _ s hs]

end Unlimited

/-- As much room as there are parentheses ahead. -/
def readUnlimited (depth : Nat) : Parse Select where
  run s := (readNested depth (Token.opened s + 1)).run s
  forward s := (readNested depth (Token.opened s + 1)).forward s

theorem unlimited_readUnlimited : Unlimited readUnlimited := by
  intro depth
  refine eq_of_run fun s => ?_
  have inner : (readNested (depth + 1) (Token.opened s)).AgreeBelow (Token.opened s)
      (readUnlimited (depth + 1)) := fun m hm =>
    readNested_agree (Nat.succ_le_of_lt hm) (Nat.le_refl _) _ m (Nat.lt_succ_self _)
  exact readLevel_agree inner depth s (Nat.lt_succ_self _)

/-- Reads as before while no more queries in parentheses stand around than parentheses were opened,
of `total` in all. Where a query is begun with too few of them behind it, `other` takes over. -/
def readWithin (total : Nat) (other : Nat → Parse Select) : (depth room : Nat) → Parse Select
  | depth, 0 =>
    choose (fun s => depth + 1 + Token.opened s ≤ total) (readNested depth 0) (other depth)
  | depth, room + 1 =>
    choose (fun s => depth + 1 + Token.opened s ≤ total)
      (readLevel depth (readWithin total other (depth + 1) room)) (other depth)

/-- The induction is on the room. Every level has one parenthesis more behind it. -/
theorem readWithin_run (total : Nat) (other : Nat → Parse Select) {depth room : Nat} {s : Ahead}
    (h : depth + 1 + Token.opened s ≤ total) :
    (readWithin total other depth room).run s = (readNested depth room).run s := by
  induction room generalizing depth s with
  | zero => exact if_pos h
  | succ room ih =>
    refine (if_pos h).trans (readLevel_agree (n := Token.opened s) (fun m hm => ?_) depth s
      (Nat.lt_succ_self _))
    exact ih (by omega)

end Select

/-- A statement whose subqueries are read with `sub`. -/
def Statement.readBy (sub : Parse Select) : Parse Statement := do
  let withClause ← clause? sub .with
  let statement ← readMain sub withClause
  log (.parsed statement.kind statement.span)
  pure statement

namespace Statement

theorem read_eq_readBy (limit : Nat) : read limit = readBy (Select.readNested 0 limit) := rfl

theorem readBy_agree {n : Nat} {sub sub' : Parse Select} (h : sub.AgreeBelow n sub') :
    (readBy sub).AgreeBelow (n + 1) (readBy sub') :=
  .bind (.clause? h _) fun _ => .bind (.readMain h _) fun _ => .refl _ _

/-- A query in parentheses is never begun with fewer parentheses opened than there are queries, that
one among them. -/
theorem read_within (limit : Nat) (s : Ahead) (other : Nat → Parse Select) :
    (readBy (Select.readWithin (Token.opened s) other 0 limit)).run s = (read limit).run s := by
  rw [read_eq_readBy]
  refine readBy_agree (n := Token.opened s) (fun m hm => ?_) s (Nat.lt_succ_self _)
  exact Select.readWithin_run _ other (by omega)

/-- A limit that no text of so many parentheses exceeds is no limit. -/
theorem read_unlimited {sub : Nat → Parse Select} (h : Select.Unlimited sub) {limit : Nat}
    {s : Ahead} (hs : Token.opened s ≤ limit) : (read limit).run s = (readBy (sub 0)).run s := by
  rw [read_eq_readBy]
  exact readBy_agree (h.agree 0 limit) s (Nat.lt_succ_of_le hs)

end Statement

end SqlOutline
