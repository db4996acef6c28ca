import Mathlib.Data.List.Forall2
import SqlOutline.Statement

namespace SqlOutline

variable {R : Clause → Clause → Prop} {g : Clause → Clause} {ts us : List Token}

namespace Core

/-- The same clauses are there, and each is related to the one in its place. -/
structure Alike (R : Clause → Clause → Prop) (c d : Core) : Prop where
  select : R c.select d.select
  into : Option.Rel R c.into d.into
  fromClause : Option.Rel R c.fromClause d.fromClause
  whereClause : Option.Rel R c.whereClause d.whereClause
  groupBy : Option.Rel R c.groupBy d.groupBy
  having : Option.Rel R c.having d.having

/-- The same with each clause put through `g`. -/
def map (g : Clause → Clause) (c : Core) : Core :=
  ⟨g c.select, c.into.map g, c.fromClause.map g, c.whereClause.map g, c.groupBy.map g,
    c.having.map g⟩

end Core

namespace Ending

structure Alike (R : Clause → Clause → Prop) (d e : Ending) : Prop where
  orderBy : Option.Rel R d.orderBy e.orderBy
  forClause : Option.Rel R d.forClause e.forClause
  option : Option.Rel R d.option e.option

def map (g : Clause → Clause) (e : Ending) : Ending :=
  ⟨e.orderBy.map g, e.forClause.map g, e.option.map g⟩

end Ending

mutual

inductive Select.Alike (R : Clause → Clause → Prop) : Select → Select → Prop where
  | mk {w w' : Option Clause} {c c' : Core} {os os' : List SetOperation} {e e' : Ending}
      (withClause : Option.Rel R w w') (core : c.Alike R c') (operations : SetOperation.Alike R os os')
      (ending : e.Alike R e') : Select.Alike R ⟨w, c, os, e⟩ ⟨w', c', os', e'⟩

inductive SetOperation.Alike (R : Clause → Clause → Prop) :
    List SetOperation → List SetOperation → Prop where
  | nil : SetOperation.Alike R [] []
  | cons {o o' : Clause} {q q' : Select} {os os' : List SetOperation} (operator : R o o')
      (query : q.Alike R q') (rest : SetOperation.Alike R os os') :
      SetOperation.Alike R (⟨o, q⟩ :: os) (⟨o', q'⟩ :: os')

end

mutual

def Select.map (g : Clause → Clause) : Select → Select
  | ⟨w, core, operations, ending⟩ =>
    ⟨w.map g, core.map g, SetOperation.map g operations, ending.map g⟩

def SetOperation.map (g : Clause → Clause) : List SetOperation → List SetOperation
  | [] => []
  | ⟨operator, query⟩ :: rest => ⟨g operator, query.map g⟩ :: SetOperation.map g rest

end

namespace Source

inductive Alike (R : Clause → Clause → Prop) : Source → Source → Prop where
  | values {c d : Clause} (h : R c d) : Alike R (.values c) (.values d)
  | select {q q' : Select} (h : q.Alike R q') : Alike R (.select q) (.select q')
  | defaultValues {c d : Clause} (h : R c d) : Alike R (.defaultValues c) (.defaultValues d)
  | execute {c d : Clause} (h : R c d) : Alike R (.execute c) (.execute d)

def map (g : Clause → Clause) : Source → Source
  | .values c => .values (g c)
  | .select q => .select (q.map g)
  | .defaultValues c => .defaultValues (g c)
  | .execute c => .execute (g c)

end Source

structure Insert.Alike (R : Clause → Clause → Prop) (i j : Insert) : Prop where
  withClause : Option.Rel R i.withClause j.withClause
  insert : R i.insert j.insert
  output : Option.Rel R i.output j.output
  source : i.source.Alike R j.source

structure Update.Alike (R : Clause → Clause → Prop) (u v : Update) : Prop where
  withClause : Option.Rel R u.withClause v.withClause
  update : R u.update v.update
  set : R u.set v.set
  output : Option.Rel R u.output v.output
  fromClause : Option.Rel R u.fromClause v.fromClause
  whereClause : Option.Rel R u.whereClause v.whereClause
  option : Option.Rel R u.option v.option

structure Delete.Alike (R : Clause → Clause → Prop) (d e : Delete) : Prop where
  withClause : Option.Rel R d.withClause e.withClause
  delete : R d.delete e.delete
  output : Option.Rel R d.output e.output
  fromClause : Option.Rel R d.fromClause e.fromClause
  whereClause : Option.Rel R d.whereClause e.whereClause
  option : Option.Rel R d.option e.option

structure Merge.Alike (R : Clause → Clause → Prop) (m n : Merge) : Prop where
  withClause : Option.Rel R m.withClause n.withClause
  merge : R m.merge n.merge
  usingClause : R m.usingClause n.usingClause
  on : R m.on n.on
  branch : R m.branch n.branch
  branches : List.Forall₂ R m.branches n.branches
  output : Option.Rel R m.output n.output
  option : Option.Rel R m.option n.option

def Insert.map (g : Clause → Clause) (i : Insert) : Insert :=
  ⟨i.withClause.map g, g i.insert, i.output.map g, i.source.map g⟩

def Update.map (g : Clause → Clause) (u : Update) : Update :=
  ⟨u.withClause.map g, g u.update, g u.set, u.output.map g, u.fromClause.map g,
    u.whereClause.map g, u.option.map g⟩

def Delete.map (g : Clause → Clause) (d : Delete) : Delete :=
  ⟨d.withClause.map g, g d.delete, d.output.map g, d.fromClause.map g, d.whereClause.map g,
    d.option.map g⟩

def Merge.map (g : Clause → Clause) (m : Merge) : Merge :=
  ⟨m.withClause.map g, g m.merge, g m.usingClause, g m.on, g m.branch, m.branches.map g,
    m.output.map g, m.option.map g⟩

namespace Statement

/-- Two statements of one kind with the same clauses in the same places, each related to the other
of its place. -/
inductive Alike (R : Clause → Clause → Prop) : Statement → Statement → Prop where
  | select {q q' : Select} (h : q.Alike R q') : Alike R (.select q) (.select q')
  | insert {i j : Insert} (h : i.Alike R j) : Alike R (.insert i) (.insert j)
  | update {u v : Update} (h : u.Alike R v) : Alike R (.update u) (.update v)
  | delete {d e : Delete} (h : d.Alike R e) : Alike R (.delete d) (.delete e)
  | merge {m n : Merge} (h : m.Alike R n) : Alike R (.merge m) (.merge n)

/-- The statement with each clause put through `g`. -/
def map (g : Clause → Clause) : Statement → Statement
  | .select q => .select (q.map g)
  | .insert i => .insert (i.map g)
  | .update u => .update (u.map g)
  | .delete d => .delete (d.map g)
  | .merge m => .merge (m.map g)

end Statement

@[simp] theorem Core.map_id (c : Core) : c.map id = c := by
  simp [map]

@[simp] theorem Ending.map_id (e : Ending) : e.map id = e := by
  simp [map]

mutual

@[simp] theorem Select.map_id (q : Select) : q.map id = q := by
  obtain ⟨w, core, os, ending⟩ := q
  simp [Select.map, SetOperation.map_id os]

@[simp] theorem SetOperation.map_id (os : List SetOperation) : SetOperation.map id os = os := by
  match os with
  | [] => rw [SetOperation.map]
  | ⟨operator, query⟩ :: os => simp [SetOperation.map, Select.map_id query, SetOperation.map_id os]

end

@[simp] theorem Source.map_id (c : Source) : c.map id = c := by
  cases c <;> simp [map]

theorem Statement.map_id (st : Statement) : st.map id = st := by
  cases st <;> simp [map, Insert.map, Update.map, Delete.map, Merge.map]

section refl

variable (hR : ∀ c, R c c)
include hR

theorem Clause.rel_option_self (c : Option Clause) : Option.Rel R c c := by
  cases c with
  | none => exact .none
  | some c => exact .some (hR c)

theorem Core.alike_self (c : Core) : c.Alike R c :=
  have h := Clause.rel_option_self hR
  ⟨hR _, h _, h _, h _, h _, h _⟩

theorem Ending.alike_self (e : Ending) : e.Alike R e :=
  have h := Clause.rel_option_self hR
  ⟨h _, h _, h _⟩

mutual

theorem Select.alike_self (q : Select) : q.Alike R q := by
  obtain ⟨w, core, os, ending⟩ := q
  exact .mk (Clause.rel_option_self hR w) (core.alike_self hR) (SetOperation.alike_self os)
    (ending.alike_self hR)

theorem SetOperation.alike_self (os : List SetOperation) : SetOperation.Alike R os os := by
  match os with
  | [] => exact .nil
  | ⟨operator, query⟩ :: os =>
    exact .cons (hR operator) (Select.alike_self query) (SetOperation.alike_self os)

end

end refl

theorem Clause.eq_map_of_option (hR : ∀ ⦃c d⦄, R c d → d = g c) {c d : Option Clause}
    (h : Option.Rel R c d) : d = c.map g := by
  cases h with
  | none => rfl
  | some h => rw [hR h, Option.map_some]

theorem eq_map_of_forall₂ {α β : Type} {R : α → β → Prop} {g : α → β}
    (hR : ∀ ⦃a b⦄, R a b → b = g a) {as : List α} {bs : List β} (h : List.Forall₂ R as bs) :
    bs = as.map g := by
  induction h with
  | nil => rfl
  | cons h _ ih => rw [hR h, ih, List.map_cons]

theorem map_eq_map_iff_forall₂ {α β γ : Type} {f : α → γ} {g : β → γ} {as : List α}
    {bs : List β} : bs.map g = as.map f ↔ List.Forall₂ (fun a b => g b = f a) as bs := by
  have heq : as.map f = bs.map g ↔ List.Forall₂ (· = ·) (as.map f) (bs.map g) := by
    rw [List.forall₂_eq_eq_eq]
  rw [eq_comm, heq, List.forall₂_map_left_iff, List.forall₂_map_right_iff]
  simp only [eq_comm]

theorem Core.Alike.eq_map (hR : ∀ ⦃c d⦄, R c d → d = g c) {c d : Core} (h : c.Alike R d) :
    d = c.map g := by
  cases d
  obtain ⟨hs, hi, hf, hw, hg, hh⟩ := h
  obtain rfl := hR hs
  obtain rfl := Clause.eq_map_of_option hR hi
  obtain rfl := Clause.eq_map_of_option hR hf
  obtain rfl := Clause.eq_map_of_option hR hw
  obtain rfl := Clause.eq_map_of_option hR hg
  obtain rfl := Clause.eq_map_of_option hR hh
  rfl

theorem Ending.Alike.eq_map (hR : ∀ ⦃c d⦄, R c d → d = g c) {d e : Ending} (h : d.Alike R e) :
    e = d.map g := by
  cases e
  obtain ⟨ho, hf, hp⟩ := h
  obtain rfl := Clause.eq_map_of_option hR ho
  obtain rfl := Clause.eq_map_of_option hR hf
  obtain rfl := Clause.eq_map_of_option hR hp
  rfl

mutual

theorem Select.Alike.eq_map (hR : ∀ ⦃c d⦄, R c d → d = g c) {q q' : Select} (h : q.Alike R q') :
    q' = q.map g := by
  cases h with
  | mk withClause core operations ending =>
    rw [Select.map, Clause.eq_map_of_option hR withClause, core.eq_map hR, operations.eq_map hR,
      ending.eq_map hR]

theorem SetOperation.Alike.eq_map (hR : ∀ ⦃c d⦄, R c d → d = g c) {os os' : List SetOperation}
    (h : SetOperation.Alike R os os') : os' = SetOperation.map g os := by
  cases h with
  | nil => rw [SetOperation.map]
  | cons operator query rest =>
    rw [SetOperation.map, hR operator, query.eq_map hR, rest.eq_map hR]

end

theorem Source.Alike.eq_map (hR : ∀ ⦃c d⦄, R c d → d = g c) {c d : Source} (h : c.Alike R d) :
    d = c.map g := by
  cases h with
  | values h | defaultValues h | execute h => rw [hR h, Source.map]
  | select h => rw [h.eq_map hR, Source.map]

theorem Insert.Alike.eq_map (hR : ∀ ⦃c d⦄, R c d → d = g c) {i j : Insert} (h : i.Alike R j) :
    j = i.map g := by
  cases j
  obtain ⟨hw, hi, ho, hs⟩ := h
  obtain rfl := hR hi
  obtain rfl := Clause.eq_map_of_option hR hw
  obtain rfl := Clause.eq_map_of_option hR ho
  obtain rfl := hs.eq_map hR
  rfl

theorem Update.Alike.eq_map (hR : ∀ ⦃c d⦄, R c d → d = g c) {u v : Update} (h : u.Alike R v) :
    v = u.map g := by
  cases v
  obtain ⟨hw, hu, hs, ho, hf, hc, hp⟩ := h
  obtain rfl := hR hu
  obtain rfl := hR hs
  obtain rfl := Clause.eq_map_of_option hR hw
  obtain rfl := Clause.eq_map_of_option hR ho
  obtain rfl := Clause.eq_map_of_option hR hf
  obtain rfl := Clause.eq_map_of_option hR hc
  obtain rfl := Clause.eq_map_of_option hR hp
  rfl

theorem Delete.Alike.eq_map (hR : ∀ ⦃c d⦄, R c d → d = g c) {d e : Delete} (h : d.Alike R e) :
    e = d.map g := by
  cases e
  obtain ⟨hw, hd, ho, hf, hc, hp⟩ := h
  obtain rfl := hR hd
  obtain rfl := Clause.eq_map_of_option hR hw
  obtain rfl := Clause.eq_map_of_option hR ho
  obtain rfl := Clause.eq_map_of_option hR hf
  obtain rfl := Clause.eq_map_of_option hR hc
  obtain rfl := Clause.eq_map_of_option hR hp
  rfl

theorem Merge.Alike.eq_map (hR : ∀ ⦃c d⦄, R c d → d = g c) {m n : Merge} (h : m.Alike R n) :
    n = m.map g := by
  cases n
  obtain ⟨hw, hm, hu, hn, hb, hbs, ho, hp⟩ := h
  obtain rfl := hR hm
  obtain rfl := hR hu
  obtain rfl := hR hn
  obtain rfl := hR hb
  obtain rfl := Clause.eq_map_of_option hR hw
  obtain rfl := Clause.eq_map_of_option hR ho
  obtain rfl := Clause.eq_map_of_option hR hp
  obtain rfl := eq_map_of_forall₂ hR hbs
  rfl

theorem Statement.Alike.eq_map (hR : ∀ ⦃c d⦄, R c d → d = g c) {s s' : Statement}
    (h : s.Alike R s') : s' = s.map g := by
  cases h with
  | select h | insert h | update h | delete h | merge h => rw [h.eq_map hR, Statement.map]

theorem Core.Alike.push (hR : ∀ ⦃c d : Clause⦄, R c d → R (c.push ts) (d.push us)) {c d : Core}
    (h : c.Alike R d) : (c.push ts).Alike R (d.push us) := by
  obtain ⟨select, into, fromClause, whereClause, groupBy, having⟩ := c
  obtain ⟨select', into', fromClause', whereClause', groupBy', having'⟩ := d
  obtain ⟨hs, hi, hf, hw, hg, hh⟩ := h
  cases hh with
  | some h => exact ⟨hs, hi, hf, hw, hg, .some (hR h)⟩
  | none =>
  cases hg with
  | some h => exact ⟨hs, hi, hf, hw, .some (hR h), .none⟩
  | none =>
  cases hw with
  | some h => exact ⟨hs, hi, hf, .some (hR h), .none, .none⟩
  | none =>
  cases hf with
  | some h => exact ⟨hs, hi, .some (hR h), .none, .none, .none⟩
  | none =>
  cases hi with
  | some h => exact ⟨hs, .some (hR h), .none, .none, .none, .none⟩
  | none => exact ⟨hR hs, .none, .none, .none, .none, .none⟩

theorem Ending.Alike.push? (hR : ∀ ⦃c d : Clause⦄, R c d → R (c.push ts) (d.push us))
    {d e : Ending} (h : d.Alike R e) :
    Option.Rel (Ending.Alike R) (d.push? ts) (e.push? us) := by
  obtain ⟨orderBy, forClause, option⟩ := d
  obtain ⟨orderBy', forClause', option'⟩ := e
  obtain ⟨ho, hf, hp⟩ := h
  cases hp with
  | some h => exact .some ⟨ho, hf, .some (hR h)⟩
  | none =>
  cases hf with
  | some h => exact .some ⟨ho, .some (hR h), .none⟩
  | none =>
  cases ho with
  | some h => exact .some ⟨.some (hR h), .none, .none⟩
  | none => exact .none

mutual

/-- Tokens pushed to the ends of two queries come to stand in the same place. -/
theorem Select.Alike.push (hR : ∀ ⦃c d : Clause⦄, R c d → R (c.push ts) (d.push us))
    {q q' : Select} (h : q.Alike R q') : (q.push ts).Alike R (q'.push us) := by
  cases h with
  | mk withClause core operations ending =>
    have he := ending.push? hR
    have ho := operations.push? hR
    rw [Select.push, Select.push]
    generalize Ending.push? ts _ = pushed, Ending.push? us _ = pushed' at he ⊢
    cases he with
    | some ending => exact .mk withClause core operations ending
    | none =>
      generalize SetOperation.push? ts _ = pushed, SetOperation.push? us _ = pushed' at ho ⊢
      cases ho with
      | some operations => exact .mk withClause core operations ending
      | none => exact .mk withClause (core.push hR) operations ending

theorem SetOperation.Alike.push? (hR : ∀ ⦃c d : Clause⦄, R c d → R (c.push ts) (d.push us))
    {os os' : List SetOperation} (h : SetOperation.Alike R os os') :
    Option.Rel (SetOperation.Alike R) (SetOperation.push? ts os) (SetOperation.push? us os') := by
  cases h with
  | nil => exact .none
  | cons operator query rest =>
    have hr := rest.push? hR
    rw [SetOperation.push?, SetOperation.push?]
    generalize SetOperation.push? ts _ = pushed, SetOperation.push? us _ = pushed' at hr ⊢
    cases hr with
    | some rest => exact .some (.cons operator query rest)
    | none => exact .some (.cons operator (query.push hR) .nil)

end

theorem Clause.forall₂_filterMap {cs ds : List (Option Clause)}
    (h : List.Forall₂ (Option.Rel R) cs ds) :
    List.Forall₂ R (cs.filterMap id) (ds.filterMap id) := by
  induction h with
  | nil => exact .nil
  | cons h _ ih =>
    cases h with
    | none => exact ih
    | some h => exact .cons h ih

theorem Clause.forall₂_toList {c d : Option Clause} (h : Option.Rel R c d) :
    List.Forall₂ R c.toList d.toList := by
  cases h with
  | none => exact .nil
  | some h => exact .cons h .nil

theorem Core.Alike.clauses {c d : Core} (h : c.Alike R d) :
    List.Forall₂ R c.clauses d.clauses := by
  refine .cons h.select (Clause.forall₂_filterMap ?_)
  exact .cons h.into (.cons h.fromClause (.cons h.whereClause
    (.cons h.groupBy (.cons h.having .nil))))

theorem Ending.Alike.clauses {d e : Ending} (h : d.Alike R e) :
    List.Forall₂ R d.clauses e.clauses :=
  Clause.forall₂_filterMap (.cons h.orderBy (.cons h.forClause (.cons h.option .nil)))

mutual

theorem Select.Alike.clauses {q q' : Select} (h : q.Alike R q') :
    List.Forall₂ R q.clauses q'.clauses := by
  cases h with
  | mk withClause core operations ending =>
    rw [Select.clauses, Select.clauses]
    exact List.rel_append (List.rel_append (List.rel_append (Clause.forall₂_toList withClause)
      core.clauses) operations.clauses) ending.clauses

theorem SetOperation.Alike.clauses {os os' : List SetOperation}
    (h : SetOperation.Alike R os os') :
    List.Forall₂ R (SetOperation.clauses os) (SetOperation.clauses os') := by
  cases h with
  | nil => exact .nil
  | cons operator query rest =>
    rw [SetOperation.clauses, SetOperation.clauses]
    exact .cons operator (List.rel_append query.clauses rest.clauses)

end

theorem Source.Alike.clauses {c d : Source} (h : c.Alike R d) :
    List.Forall₂ R c.clauses d.clauses := by
  cases h with
  | values h | defaultValues h | execute h => exact .cons h .nil
  | select h => exact h.clauses

theorem Insert.Alike.clauses {i j : Insert} (h : i.Alike R j) :
    List.Forall₂ R i.clauses j.clauses :=
  List.rel_append (List.rel_append (Clause.forall₂_toList h.withClause)
    (.cons h.insert (Clause.forall₂_toList h.output))) h.source.clauses

theorem Update.Alike.clauses {u v : Update} (h : u.Alike R v) :
    List.Forall₂ R u.clauses v.clauses := by
  refine List.rel_append (Clause.forall₂_toList h.withClause) (.cons h.update (.cons h.set ?_))
  exact Clause.forall₂_filterMap (.cons h.output (.cons h.fromClause (.cons h.whereClause
    (.cons h.option .nil))))

theorem Delete.Alike.clauses {d e : Delete} (h : d.Alike R e) :
    List.Forall₂ R d.clauses e.clauses := by
  refine List.rel_append (Clause.forall₂_toList h.withClause) (.cons h.delete ?_)
  exact Clause.forall₂_filterMap (.cons h.output (.cons h.fromClause (.cons h.whereClause
    (.cons h.option .nil))))

theorem Merge.Alike.clauses {m n : Merge} (h : m.Alike R n) :
    List.Forall₂ R m.clauses n.clauses := by
  refine List.rel_append (List.rel_append (Clause.forall₂_toList h.withClause) ?_) ?_
  · exact .cons h.merge (.cons h.usingClause (.cons h.on (.cons h.branch h.branches)))
  · exact Clause.forall₂_filterMap (.cons h.output (.cons h.option .nil))

theorem Statement.Alike.clauses {s s' : Statement} (h : s.Alike R s') :
    List.Forall₂ R s.clauses s'.clauses := by
  cases h with
  | select h | insert h | update h | delete h | merge h => exact h.clauses

end SqlOutline
