import Mathlib.Data.List.Infix
import SqlOutline.Statement

namespace SqlOutline

variable {ts : List Token}

namespace Clause

/-- Of slots that may be empty, those that are not. -/
def filled (slots : List (ClauseKind × Option Clause)) : List (ClauseKind × Clause) :=
  slots.filterMap fun slot => slot.2.map (slot.1, ·)

/-- More tokens at the end of the last clause. -/
def pushLast (ts : List Token) (slots : List (ClauseKind × Clause)) : List (ClauseKind × Clause) :=
  slots.dropLast ++ slots.getLast?.toList.map fun slot => (slot.1, slot.2.push ts)

theorem map_snd_filled (slots : List (ClauseKind × Option Clause)) :
    (filled slots).map Prod.snd = (slots.map Prod.snd).filterMap id := by
  rw [filled, List.map_filterMap, List.filterMap_map]
  congr 1
  funext slot
  simp [Option.map_map, Function.comp_def]

theorem forall_filled {P : ClauseKind → Clause → Prop}
    {slots : List (ClauseKind × Option Clause)} :
    (∀ slot ∈ filled slots, P slot.1 slot.2) ↔ ∀ slot ∈ slots, ∀ c ∈ slot.2, P slot.1 c := by
  simp only [filled, List.mem_filterMap, Option.map_eq_some_iff]
  constructor
  · intro h slot hslot c hc
    exact h (slot.1, c) ⟨slot, hslot, c, hc, rfl⟩
  · rintro h _ ⟨slot, hslot, c, hc, rfl⟩
    exact h slot hslot c hc

variable {slots : List (ClauseKind × Clause)}

theorem pushLast_append (front : List (ClauseKind × Clause)) (h : slots ≠ []) :
    pushLast ts (front ++ slots) = front ++ pushLast ts slots := by
  rw [pushLast, pushLast, List.dropLast_append_of_ne_nil h, List.getLast?_append_of_ne_nil _ h,
    List.append_assoc]

/-- What is pushed to the last of some slots does not show in their kinds, nor in any other slot. -/
theorem pushLast_concat (front : List (ClauseKind × Clause)) (slot : ClauseKind × Clause) :
    pushLast ts (front ++ [slot]) = front ++ [(slot.1, slot.2.push ts)] := by
  rw [pushLast_append front (List.cons_ne_nil _ _)]
  rfl

theorem getLast?_pushLast :
    (pushLast ts slots).getLast? = slots.getLast?.map fun slot => (slot.1, slot.2.push ts) := by
  cases h : slots.getLast? with
  | none => simp [List.getLast?_eq_none_iff.mp h, pushLast]
  | some slot => simp [pushLast, h]

theorem mem_pushLast {slot : ClauseKind × Clause} (h : slot ∈ pushLast ts slots) :
    slot ∈ slots ∨ ∃ c, (slot.1, c) ∈ slots ∧ slot.2 = c.push ts := by
  rcases List.mem_append.mp h with h | h
  · exact .inl (List.mem_of_mem_dropLast h)
  · obtain ⟨last, hlast, rfl⟩ := List.mem_map.mp h
    exact .inr ⟨last.2, List.mem_of_getLast? (Option.mem_toList.mp hlast), rfl⟩

end Clause

/-! The clauses of a statement, each with the kind that its slot is for. -/

def Core.slots (c : Core) : List (ClauseKind × Clause) :=
  (.select, c.select) :: Clause.filled [(.into, c.into), (.from, c.fromClause),
    (.where, c.whereClause), (.groupBy, c.groupBy), (.having, c.having)]

def Ending.slots (e : Ending) : List (ClauseKind × Clause) :=
  Clause.filled [(.orderBy, e.orderBy), (.for, e.forClause), (.option, e.option)]

mutual

def Select.slots : Select → List (ClauseKind × Clause)
  | ⟨w, core, operations, ending⟩ =>
    Clause.filled [(.with, w)] ++ core.slots ++ SetOperation.slots operations ++ ending.slots

def SetOperation.slots : List SetOperation → List (ClauseKind × Clause)
  | [] => []
  | ⟨operator, query⟩ :: rest =>
    (.setOperator, operator) :: query.slots ++ SetOperation.slots rest

end

def Source.slots : Source → List (ClauseKind × Clause)
  | .values c => [(.values, c)]
  | .select q => q.slots
  | .defaultValues c => [(.defaultValues, c)]
  | .execute c => [(.execute, c)]

def Insert.slots (i : Insert) : List (ClauseKind × Clause) :=
  Clause.filled [(.with, i.withClause), (.insert, i.insert), (.output, i.output)] ++ i.source.slots

def Update.slots (u : Update) : List (ClauseKind × Clause) :=
  Clause.filled [(.with, u.withClause), (.update, u.update), (.set, u.set), (.output, u.output),
    (.from, u.fromClause), (.where, u.whereClause), (.option, u.option)]

def Delete.slots (d : Delete) : List (ClauseKind × Clause) :=
  Clause.filled [(.with, d.withClause), (.delete, d.delete), (.output, d.output),
    (.from, d.fromClause), (.where, d.whereClause), (.option, d.option)]

def Merge.slots (m : Merge) : List (ClauseKind × Clause) :=
  Clause.filled [(.with, m.withClause), (.merge, m.merge), (.using, m.usingClause), (.on, m.on)] ++
    (m.branch :: m.branches).map (.when, ·) ++
    Clause.filled [(.output, m.output), (.option, m.option)]

def Statement.slots : Statement → List (ClauseKind × Clause)
  | .select q => q.slots
  | .insert i => i.slots
  | .update u => u.slots
  | .delete d => d.slots
  | .merge m => m.slots

theorem Core.map_snd_slots (c : Core) : c.slots.map Prod.snd = c.clauses := by
  rw [slots, List.map_cons, Clause.map_snd_filled]
  rfl

theorem Ending.map_snd_slots (e : Ending) : e.slots.map Prod.snd = e.clauses :=
  Clause.map_snd_filled _

mutual

theorem Select.map_snd_slots (q : Select) : q.slots.map Prod.snd = q.clauses := by
  obtain ⟨w, core, os, ending⟩ := q
  simp only [Select.slots, Select.clauses, List.map_append, Clause.map_snd_filled,
    core.map_snd_slots, SetOperation.map_snd_slots os, ending.map_snd_slots]
  cases w <;> rfl

theorem SetOperation.map_snd_slots (os : List SetOperation) :
    (SetOperation.slots os).map Prod.snd = SetOperation.clauses os := by
  match os with
  | [] => simp [SetOperation.slots, SetOperation.clauses]
  | ⟨operator, query⟩ :: rest =>
    simp [SetOperation.slots, SetOperation.clauses, query.map_snd_slots,
      SetOperation.map_snd_slots rest]

end

theorem Source.map_snd_slots (source : Source) : source.slots.map Prod.snd = source.clauses := by
  cases source with
  | select q => exact q.map_snd_slots
  | values | defaultValues | execute => rfl

/-- Every clause of a statement has its slot, in the order of the text. -/
theorem Statement.map_snd_slots (st : Statement) : st.slots.map Prod.snd = st.clauses := by
  cases st with
  | select q => exact q.map_snd_slots
  | insert i =>
    obtain ⟨w, insert, output, source⟩ := i
    simp only [Statement.slots, Statement.clauses, Insert.slots, Insert.clauses, List.map_append,
      Clause.map_snd_filled, source.map_snd_slots]
    cases w <;> cases output <;> rfl
  | update u =>
    obtain ⟨w, update, set, output, fromClause, whereClause, option⟩ := u
    simp only [Statement.slots, Statement.clauses, Update.slots, Update.clauses,
      Clause.map_snd_filled]
    cases w <;> rfl
  | delete d =>
    obtain ⟨w, delete, output, fromClause, whereClause, option⟩ := d
    simp only [Statement.slots, Statement.clauses, Delete.slots, Delete.clauses,
      Clause.map_snd_filled]
    cases w <;> rfl
  | merge m =>
    obtain ⟨w, merge, usingClause, on, branch, branches, output, option⟩ := m
    simp only [Statement.slots, Statement.clauses, Merge.slots, Merge.clauses, List.map_append,
      Clause.map_snd_filled, List.map_map, List.map_cons, List.map_nil]
    cases w <;> simp [Function.comp_def]

theorem Core.slots_push (ts : List Token) (c : Core) :
    (c.push ts).slots = Clause.pushLast ts c.slots := by
  obtain ⟨select, into, fromClause, whereClause, groupBy, having⟩ := c
  cases having <;> cases groupBy <;> cases whereClause <;> cases fromClause <;> cases into <;> rfl

theorem Ending.slots_push? {e e' : Ending} (h : e.push? ts = some e') :
    e.slots ≠ [] ∧ e'.slots = Clause.pushLast ts e.slots := by
  obtain ⟨orderBy, forClause, option⟩ := e
  cases option <;> cases forClause <;> cases orderBy <;> cases h <;>
    exact ⟨List.cons_ne_nil _ _, rfl⟩

theorem Ending.eq_of_push? {e : Ending} (h : e.push? ts = none) : e = {} := by
  obtain ⟨orderBy, forClause, option⟩ := e
  cases option <;> cases forClause <;> cases orderBy <;> cases h
  rfl

theorem SetOperation.eq_nil_of_push? (ts : List Token) (os : List SetOperation)
    (h : SetOperation.push? ts os = none) : os = [] := by
  cases os with
  | nil => rfl
  | cons o os =>
    obtain ⟨operator, query⟩ := o
    rw [SetOperation.push?] at h
    split at h <;> cases h

theorem Select.slots_ne_nil (q : Select) : q.slots ≠ [] := by
  obtain ⟨w, core, os, ending⟩ := q
  simp [Select.slots, Core.slots]

/-! What more tokens at the end of a query do to its clauses and its operands. -/

mutual

theorem Select.slots_push (ts : List Token) (q : Select) :
    (q.push ts).slots = Clause.pushLast ts q.slots := by
  obtain ⟨w, core, os, ending⟩ := q
  rw [Select.push]
  split
  next e he =>
    obtain ⟨hne, he⟩ := Ending.slots_push? he
    rw [Select.slots, Select.slots, he, Clause.pushLast_append _ hne]
  next os' he ho =>
    obtain ⟨hne, ho⟩ := SetOperation.slots_push? ts os os' ho
    obtain rfl := Ending.eq_of_push? he
    simp only [Select.slots, Ending.slots, Clause.filled, List.filterMap_cons, Option.map_none,
      List.filterMap_nil, List.append_nil, ho, Clause.pushLast_append _ hne]
  next he ho =>
    obtain rfl := SetOperation.eq_nil_of_push? ts os ho
    obtain rfl := Ending.eq_of_push? he
    have hne : core.slots ≠ [] := List.cons_ne_nil _ _
    simp only [Select.slots, SetOperation.slots, Ending.slots, Clause.filled, List.filterMap_cons,
      Option.map_none, List.filterMap_nil, List.append_nil, core.slots_push,
      Clause.pushLast_append _ hne]

theorem SetOperation.slots_push? (ts : List Token) (os os' : List SetOperation)
    (h : SetOperation.push? ts os = some os') :
    SetOperation.slots os ≠ [] ∧
      SetOperation.slots os' = Clause.pushLast ts (SetOperation.slots os) := by
  match os with
  | [] => simp [SetOperation.push?] at h
  | ⟨operator, query⟩ :: rest =>
    refine ⟨by simp [SetOperation.slots], ?_⟩
    rw [SetOperation.push?] at h
    split at h
    next rest' hr =>
      cases h
      obtain ⟨hne, hr⟩ := SetOperation.slots_push? ts rest rest' hr
      rw [SetOperation.slots, SetOperation.slots, hr, Clause.pushLast_append _ hne]
    next hr =>
      cases h
      obtain rfl := SetOperation.eq_nil_of_push? ts rest hr
      simp only [SetOperation.slots, Select.slots_push, List.append_nil]
      exact (Clause.pushLast_append [(.setOperator, operator)] query.slots_ne_nil).symm

end

/-- The clauses of a query end with one that takes in whatever is pushed to the query. -/
theorem Select.clauses_push (ts : List Token) (q : Select) :
    ∃ front last, q.clauses = front ++ [last] ∧ (q.push ts).clauses = front ++ [last.push ts] := by
  obtain ⟨front, slot, hslots⟩ : ∃ front slot, q.slots = front ++ [slot] :=
    ⟨_, _, (List.dropLast_concat_getLast q.slots_ne_nil).symm⟩
  refine ⟨front.map Prod.snd, slot.2, ?_, ?_⟩
  · rw [← q.map_snd_slots, hslots, List.map_append]
    rfl
  · rw [← (q.push ts).map_snd_slots, q.slots_push, hslots, Clause.pushLast_concat, List.map_append]
    rfl

theorem Select.tokens_push (ts : List Token) (q : Select) :
    (q.push ts).tokens = q.tokens ++ ts := by
  obtain ⟨front, last, hold, hnew⟩ := q.clauses_push ts
  rw [Select.tokens, Select.tokens, hold, hnew]
  simp [Clause.tokens_push]

/-- Tokens pushed to the end of a query go to the clause that stands last in it, however deep in its
operands that clause was read: the query reads as before with the tokens behind it, and no other
clause changes. -/
theorem push_ends_query (q : Select) (ts : List Token) :
    (q.push ts).tokens = q.tokens ++ ts ∧
      (q.push ts).clauses.length = q.clauses.length ∧
      (q.push ts).clauses.map Clause.kind = q.clauses.map Clause.kind ∧
      (q.push ts).clauses.dropLast = q.clauses.dropLast ∧
      (q.push ts).clauses.getLast? = q.clauses.getLast?.map (Clause.push ts) := by
  obtain ⟨front, last, hold, hnew⟩ := q.clauses_push ts
  refine ⟨q.tokens_push ts, ?_⟩
  rw [hold, hnew]
  refine ⟨?_, ?_, ?_, ?_⟩
  · simp
  · simp [Clause.push]
  · rw [List.dropLast_concat, List.dropLast_concat]
  · simp

mutual

/-- The operands of a query, those of its operands included. -/
def Select.operands : Select → List SetOperation
  | ⟨_, _, operations, _⟩ => SetOperation.operands operations

def SetOperation.operands : List SetOperation → List SetOperation
  | [] => []
  | ⟨operator, query⟩ :: rest =>
    ⟨operator, query⟩ :: query.operands ++ SetOperation.operands rest

end

def Source.operands : Source → List SetOperation
  | .select q => q.operands
  | _ => []

def Statement.operands : Statement → List SetOperation
  | .select q => q.operands
  | .insert i => i.source.operands
  | _ => []

/-- More tokens at the end of the query. -/
def SetOperation.push (ts : List Token) (o : SetOperation) : SetOperation :=
  ⟨o.operator, o.query.push ts⟩

mutual

theorem Select.operand_clauses (q : Select) :
    ∀ o ∈ q.operands, o.operator :: o.query.clauses <:+: q.clauses := by
  obtain ⟨w, core, os, ending⟩ := q
  intro o ho
  rw [Select.operands] at ho
  obtain ⟨front, back, h⟩ := SetOperation.operand_clauses os o ho
  refine ⟨w.toList ++ core.clauses ++ front, back ++ ending.clauses, ?_⟩
  rw [Select.clauses, ← h]
  simp

theorem SetOperation.operand_clauses (os : List SetOperation) :
    ∀ o ∈ SetOperation.operands os,
      o.operator :: o.query.clauses <:+: SetOperation.clauses os := by
  match os with
  | [] => simp [SetOperation.operands]
  | ⟨operator, query⟩ :: rest =>
    intro o ho
    simp only [SetOperation.operands, List.cons_append, List.mem_cons, List.mem_append] at ho
    rcases ho with rfl | ho | ho
    · exact ⟨[], SetOperation.clauses rest, by simp [SetOperation.clauses]⟩
    · obtain ⟨front, back, h⟩ := query.operand_clauses o ho
      refine ⟨operator :: front, back ++ SetOperation.clauses rest, ?_⟩
      rw [SetOperation.clauses, ← h]
      simp
    · obtain ⟨front, back, h⟩ := SetOperation.operand_clauses rest o ho
      refine ⟨operator :: query.clauses ++ front, back, ?_⟩
      rw [SetOperation.clauses, ← h]
      simp

end

/-- An operator and its query stand next to one another in the statement. -/
theorem Statement.operand_clauses (st : Statement) :
    ∀ o ∈ st.operands, o.operator :: o.query.clauses <:+: st.clauses := by
  intro o ho
  cases st with
  | select q => exact q.operand_clauses o ho
  | insert i =>
    obtain ⟨w, insert, output, source⟩ := i
    cases source with
    | select q =>
      obtain ⟨front, back, h⟩ := q.operand_clauses o ho
      refine ⟨w.toList ++ insert :: output.toList ++ front, back, ?_⟩
      simp only [Statement.clauses, Insert.clauses, Source.clauses, ← h]
      simp
    | values | defaultValues | execute => cases ho
  | update | delete | merge => cases ho

mutual

theorem Select.mem_operands_push (ts : List Token) (q : Select) :
    ∀ o ∈ (q.push ts).operands, o ∈ q.operands ∨ ∃ o' ∈ q.operands, o = o'.push ts := by
  obtain ⟨w, core, os, ending⟩ := q
  intro o ho
  rw [Select.push] at ho
  split at ho
  next => exact .inl ho
  next os' _ hos =>
    rw [Select.operands] at ho ⊢
    exact SetOperation.mem_operands_push? ts os os' hos o ho
  next => exact .inl ho

theorem SetOperation.mem_operands_push? (ts : List Token) (os os' : List SetOperation)
    (h : SetOperation.push? ts os = some os') :
    ∀ o ∈ SetOperation.operands os',
      o ∈ SetOperation.operands os ∨ ∃ o' ∈ SetOperation.operands os, o = o'.push ts := by
  match os with
  | [] => simp [SetOperation.push?] at h
  | ⟨operator, query⟩ :: rest =>
    intro o ho
    simp only [SetOperation.operands, List.cons_append, List.mem_cons, List.mem_append]
    rw [SetOperation.push?] at h
    split at h
    next rest' hr =>
      cases h
      simp only [SetOperation.operands, List.cons_append, List.mem_cons, List.mem_append] at ho
      rcases ho with rfl | ho | ho
      · exact .inl (.inl rfl)
      · exact .inl (.inr (.inl ho))
      · rcases SetOperation.mem_operands_push? ts rest rest' hr o ho with ho | ⟨o', ho', rfl⟩
        · exact .inl (.inr (.inr ho))
        · exact .inr ⟨o', .inr (.inr ho'), rfl⟩
    next =>
      cases h
      simp only [SetOperation.operands, List.append_nil, List.mem_cons] at ho
      rcases ho with rfl | ho
      · exact .inr ⟨⟨operator, query⟩, .inl rfl, rfl⟩
      · rcases query.mem_operands_push ts o ho with ho | ⟨o', ho', rfl⟩
        · exact .inl (.inr (.inl ho))
        · exact .inr ⟨o', .inr (.inl ho'), rfl⟩

end

end SqlOutline
