import Mathlib.Data.List.Induction
import SqlOutline.Proofs.Delivery
import SqlOutline.Proofs.Reading

namespace SqlOutline

/-- What a reader can be asked. -/
inductive Ask where
  /-- Whether there is one more item. If so, the reader moves to it. -/
  | move
  /-- The next item itself. -/
  | next
  /-- The item where the reader stands. -/
  | current
  deriving DecidableEq

namespace Ask

def moves : Ask → Bool
  | .move | .next => true
  | .current => false

/-- What was asked when the reader was moved last. -/
def lastMove (asked : List Ask) : Option Ask :=
  (asked.filter moves).getLast?

theorem lastMove_eq_none_iff {asked : List Ask} :
    lastMove asked = none ↔ asked.countP moves = 0 := by
  rw [lastMove, List.getLast?_eq_none_iff, List.countP_eq_length_filter, List.length_eq_zero_iff]

variable {σ α β : Type} {after : σ → Ask → σ} {Holds : σ → List α → Prop} {current : σ → Option β}
  {shown : Ask → Option α → Option β}

/-- Readers that deliver what they hold, the first item with the first move. Behind a move they show
what it leaves of its item. -/
structure Delivers (after : σ → Ask → σ) (Holds : σ → List α → Prop) (current : σ → Option β)
    (shown : Ask → Option α → Option β) : Prop where
  stays (r : σ) : after r .current = r
  moved {r : σ} {items : List α} {ask : Ask} (hask : ask.moves = true) (h : Holds r items) :
    Holds (after r ask) items.tail ∧ current (after r ask) = shown ask items.head?

namespace Delivers

variable {r : σ} {items : List α} (d : Delivers after Holds current shown)
include d

/-- However a reader was asked, it has lost as many items as it was moved. -/
theorem holds_foldl (h : Holds r items) (asked : List Ask) :
    Holds (asked.foldl after r) (items.drop (asked.countP moves)) := by
  induction asked generalizing r items with
  | nil => exact h
  | cons ask asked ih =>
    rw [List.foldl_cons]
    cases hask : ask.moves with
    | true =>
      have hrest := ih (d.moved hask h).1
      rwa [List.drop_tail, ← List.countP_cons_of_pos hask] at hrest
    | false =>
      obtain rfl : ask = .current := by cases ask <;> simp_all [moves]
      rw [d.stays]
      exact ih h

theorem current_foldl (h : Holds r items) (asked : List Ask) :
    current (asked.foldl after r) =
      match lastMove asked with
      | none => current r
      | some ask => shown ask items[asked.countP moves - 1]? := by
  induction asked using List.reverseRecOn with
  | nil => rfl
  | append_singleton asked ask ih =>
    rw [List.foldl_append, List.foldl_cons, List.foldl_nil]
    cases hask : ask.moves with
    | true =>
      have hlast : lastMove (asked ++ [ask]) = some ask := by simp [lastMove, hask]
      have hcount : (asked ++ [ask]).countP moves - 1 = asked.countP moves := by simp [hask]
      rw [hlast, hcount, (d.moved hask (d.holds_foldl h asked)).2, List.head?_drop]
    | false =>
      have hlast : lastMove (asked ++ [ask]) = lastMove asked := by simp [lastMove, hask]
      have hcount : (asked ++ [ask]).countP moves = asked.countP moves := by simp [hask]
      obtain rfl : ask = .current := by cases ask <;> simp_all [moves]
      rw [d.stays, hlast, hcount, ih]

end Delivers

end Ask

namespace TokenSource

/-- The source after it was asked something. -/
def after (src : TokenSource) : Ask → TokenSource
  | .move => src.move.2
  | .next => src.next.2
  | .current => src

theorem ended_advance (src : TokenSource) : src.advance.ended = src.advance.current.isNone := by
  unfold advance
  split
  · assumption
  next he =>
    generalize (if src.settings.blanks = true then src.reader.read else src.reader.readPastBlanks) =
      read
    dsimp only
    split
    · simpa using he
    · rfl

theorem next_snd (src : TokenSource) : src.next.2 = src.advance := by
  unfold next move
  cases src.advance.ended <;> rfl

/-- Either way of moving finds the first of the tokens. -/
theorem Holds.found {src : TokenSource} {ts : List Token} (h : src.Holds ts) :
    src.move.1 = ts.head?.isSome ∧ src.move.2.current = ts.head? ∧ src.next.1 = ts.head? := by
  have hcurrent := h.advance.1
  have hended : src.advance.ended = !ts.head?.isSome := by
    rw [ended_advance, hcurrent, Option.not_isSome]
  refine ⟨by simp [move, hended], hcurrent, ?_⟩
  unfold next move
  rw [hended]
  cases hts : ts.head? with
  | none => rfl
  | some t => exact hcurrent.trans hts

theorem delivers : Ask.Delivers after Holds current fun _ t => t where
  stays _ := rfl
  moved {src ts ask} hask h := by
    have hafter : src.after ask = src.advance := by
      cases ask with
      | move => rfl
      | next => exact src.next_snd
      | current => cases hask
    rw [hafter]
    exact ⟨h.advance.2, h.advance.1⟩

/-- The current token is the one that was moved to last. -/
theorem Holds.current_foldl {src : TokenSource} {ts : List Token} (h : src.Holds ts)
    (hstart : src.current = none) (asked : List Ask) :
    (asked.foldl after src).current =
      if asked.countP Ask.moves = 0 then none else ts[asked.countP Ask.moves - 1]? := by
  have hshown := delivers.current_foldl h asked
  cases hlast : Ask.lastMove asked with
  | none =>
    rw [hlast, hstart] at hshown
    rw [if_pos (Ask.lastMove_eq_none_iff.mp hlast)]
    exact hshown
  | some ask =>
    rw [hlast] at hshown
    rw [if_neg fun hk => by simp [Ask.lastMove_eq_none_iff.mpr hk] at hlast]
    exact hshown

end TokenSource

namespace StatementReader

/-- The reader after it was asked something. -/
def after (r : StatementReader) : Ask → StatementReader
  | .move => r.advance.2
  | .next => r.next.2
  | .current => r

/-- What a reader tells that moves to an item, or finds none. -/
def told : Option (Except Fault Statement) → Except Fault Bool
  | none => .ok false
  | some (.ok _) => .ok true
  | some (.error e) => .error e

/-- The statement that a reader shows behind an item. One that was taken out is not shown. -/
def shown : Ask → Option (Except Fault Statement) → Option Statement
  | .move, item => item.bind Except.toOption
  | _, _ => none

theorem advance_items (r : StatementReader) :
    r.advance.1 = told r.items.head? ∧ r.advance.2.current = shown .move r.items.head? ∧
      r.advance.2.items = r.items.tail := by
  by_cases hf : r.failed = true
  · simp [advance, items, hf, told, shown]
  by_cases hs : r.ahead.dropNoise = []
  · have hend : (Outline.ofAhead r.depth []).items = [] := Outline.items_done rfl
    simp [advance, items, hf, hs, Outline.items_done hs, hend, told, shown]
  have hstart : ¬ r.ahead.dropNoise.isEmpty = true := by simpa using hs
  rcases Parse.gives_or_fails (Statement.read r.depth) r.ahead.dropNoise with ⟨st, h⟩ | ⟨e, h⟩
  · simp [advance, items, hf, hstart, h.1, Outline.items_step h, told, shown, Except.toOption]
  · simp [advance, items, hf, hstart, h.1, Outline.items_fault hs h, told, shown, Except.toOption]

theorem shown_of_told {item : Option (Except Fault Statement)} (h : told item ≠ .ok true) :
    shown .move item = none := by
  match item with
  | none | some (.error _) => rfl
  | some (.ok _) => exact absurd rfl h

/-- What the reader delivers it does not keep. -/
theorem next_current (r : StatementReader) : r.next.2.current = none := by
  obtain ⟨htold, hcurrent, -⟩ := r.advance_items
  unfold next
  split
  · rfl
  next h =>
    rw [h] at htold hcurrent
    rw [hcurrent]
    exact shown_of_told (by simp [← htold])
  next h =>
    rw [h] at htold hcurrent
    rw [hcurrent]
    exact shown_of_told (by simp [← htold])

theorem delivers : Ask.Delivers after (fun r items => r.items = items) current shown where
  stays _ := rfl
  moved {r items ask} hask h := by
    subst h
    cases ask with
    | move => exact ⟨r.advance_items.2.2, r.advance_items.2.1⟩
    | next => exact ⟨r.next_items.2, r.next_current⟩
    | current => cases hask

/-- The current statement is the one that was moved to last, if nothing was taken out since. -/
theorem current_foldl {r : StatementReader} (hstart : r.current = none) (asked : List Ask) :
    (asked.foldl after r).current =
      if Ask.lastMove asked = some .move then
        r.items[asked.countP Ask.moves - 1]?.bind Except.toOption
      else none := by
  have hshown := delivers.current_foldl (r := r) rfl asked
  cases hlast : Ask.lastMove asked with
  | none =>
    rw [hlast, hstart] at hshown
    exact hshown
  | some ask =>
    rw [hlast] at hshown
    cases ask with
    | move | next | current => exact hshown

end StatementReader

/-- The statements up to the first fault, or that fault. -/
theorem Outline.mapM_items (o : Outline) : o.items.mapM id = o.result := by
  obtain ⟨sts, fault, log⟩ := o
  have hok : (sts.map .ok : List (Except Fault Statement)).mapM id = .ok sts := by
    induction sts with
    | nil => rfl
    | cons st sts ih =>
      rw [List.map_cons, List.mapM_cons, ih]
      rfl
  rw [items, List.mapM_append, hok]
  cases fault with
  | none => exact congrArg Except.ok (List.append_nil sts)
  | some e => rfl

/-- Whoever reads step by step reads what is read at once. However often and in whatever order a
source or a reader was asked before, the next move goes to the item that as many stand before as
moves were made: a token of the text, or a statement, or behind the statements the one fault. When
there are no more, there never are again. What is shown is the item of the last move, unless that
took it out. -/
theorem stepwise_reading (settings : Settings) (text : List Char) (asked : List Ask) :
    let k := asked.countP Ask.moves
    let tokens := tokenize settings text
    let source := asked.foldl TokenSource.after (.ofText settings text)
    let outline := Outline.ofText settings text
    let items := outline.statements.map .ok ++ outline.fault.toList.map .error
    let reader := asked.foldl StatementReader.after (.ofText settings text)
    (source.move.1 = tokens[k]?.isSome ∧ source.move.2.current = tokens[k]? ∧
      source.next.1 = tokens[k]? ∧ source.current = if k = 0 then none else tokens[k - 1]?) ∧
    (reader.advance.1 = StatementReader.told items[k]? ∧
      reader.advance.2.current = items[k]?.bind Except.toOption ∧
      reader.next.1 = items[k]? ∧
      reader.current =
        if Ask.lastMove asked = some .move then items[k - 1]?.bind Except.toOption else none) ∧
    outline.result = items.mapM id := by
  intro k tokens source outline items reader
  refine ⟨?_, ?_, outline.mapM_items.symm⟩
  · have htext := TokenSource.holds_ofText settings text
    have hsource : source.Holds (tokens.drop k) := TokenSource.delivers.holds_foldl htext asked
    obtain ⟨hmove, hcurrent, hnext⟩ := hsource.found
    rw [List.head?_drop] at hmove hcurrent hnext
    exact ⟨hmove, hcurrent, hnext, htext.current_foldl rfl asked⟩
  · have htext : (StatementReader.ofText settings text).items = items := rfl
    have hreader : reader.items = items.drop k := StatementReader.delivers.holds_foldl htext asked
    obtain ⟨hmove, hcurrent, -⟩ := reader.advance_items
    have hnext := reader.next_items.1
    rw [hreader, List.head?_drop] at hmove hcurrent hnext
    exact ⟨hmove, hcurrent, hnext, StatementReader.current_foldl rfl asked⟩

end SqlOutline
