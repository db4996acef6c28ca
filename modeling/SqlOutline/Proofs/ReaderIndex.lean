import Mathlib.Data.List.Induction
import Mathlib.Data.List.TakeWhile
import SqlOutline.Proofs.Reading

namespace SqlOutline

namespace Reader

/-- What a reader can be asked. -/
inductive Use where
  | read
  | readPastBlanks
  | putBack
  deriving DecidableEq

/-- Whether a character is found, and the reader after the use. -/
def use (r : Reader) : Use → Bool × Reader
  | .read => r.read
  | .readPastBlanks => r.readPastBlanks
  | .putBack => (false, r.putBack)

/-- Whether the last of the uses found a character, and the reader after them all. -/
def after (r : Reader) (uses : List Use) : Bool × Reader :=
  uses.foldl (fun s u => s.2.use u) (false, r)

/-- Every putting back directly follows a use that found a character. -/
def Legal (r : Reader) (uses : List Use) : Prop :=
  ∀ before, before ++ [.putBack] <+: uses → (r.after before).1 = true

/-- How many characters of the text are delivered and not put back, when `i` of them were before.
Past the end there are none to deliver. -/
def Use.index (text : List Char) (i : Nat) : Use → Nat
  | .read => min (i + 1) text.length
  | .readPastBlanks => min (i + ((text.drop i).takeWhile Text.isBlank).length + 1) text.length
  | .putBack => i - 1

/-- The same after several uses, when none were before. -/
def index (text : List Char) (uses : List Use) : Nat :=
  uses.foldl (Use.index text) 0

variable {r : Reader} {u : Use} {uses more : List Use} {text : List Char} {i : Nat}

theorem after_append (r : Reader) (uses : List Use) (u : Use) :
    r.after (uses ++ [u]) = (r.after uses).2.use u := by
  rw [after, List.foldl_append]
  rfl

theorem index_append (text : List Char) (uses : List Use) (u : Use) :
    index text (uses ++ [u]) = u.index text (index text uses) := by
  rw [index, List.foldl_append]
  rfl

theorem legal_nil (r : Reader) : r.Legal [] := by
  intro before h
  simp at h

theorem legal_append : r.Legal (uses ++ [u]) ↔
    r.Legal uses ∧ (u = .putBack → (r.after uses).1 = true) := by
  constructor
  · intro h
    refine ⟨fun before hb => h before (hb.trans (List.prefix_append _ _)), ?_⟩
    rintro rfl
    exact h uses (List.prefix_refl _)
  · rintro ⟨h, hlast⟩ before hb
    rcases List.prefix_concat_iff.mp hb with heq | hb
    · obtain ⟨rfl, hu⟩ := List.append_inj' heq rfl
      exact hlast (List.cons.inj hu).1.symm
    · exact h before hb

theorem returned_of_read (h : r.read.1 = true) : r.read.2.returned = none := by
  unfold read at h ⊢
  cases he : r.ended <;> cases hr : r.returned <;> cases ha : r.ahead <;> simp_all

/-- A reader that stands behind the first `i` characters of the text. Where it has just found one,
that is the last of them, and may be put back. -/
structure Behind (text : List Char) (i : Nat) (s : Bool × Reader) : Prop where
  le : i ≤ text.length
  rest : s.2.At i (text.drop i)
  found : s.1 = true → s.2.returned = none ∧ 0 < i ∧ s.2.putBack.At (i - 1) (text.drop (i - 1))

theorem At.behind_read (h : r.At i (text.drop i)) (hi : i ≤ text.length) :
    Behind text (min (i + 1) text.length) r.read := by
  rcases Nat.lt_or_eq_of_le hi with hlt | rfl
  · rw [List.drop_eq_getElem_cons hlt] at h
    obtain ⟨hread, -, -, hrest, hback⟩ := h.read_cons
    have hmin : min (i + 1) text.length = i + 1 := Nat.min_eq_left hlt
    rw [hmin]
    refine ⟨hlt, hrest, fun _ => ⟨returned_of_read hread, Nat.succ_pos i, ?_⟩⟩
    rw [Nat.add_sub_cancel, List.drop_eq_getElem_cons hlt]
    exact hback
  · rw [List.drop_length] at h
    obtain ⟨hread, hrest⟩ := h.read_nil
    rw [Nat.min_eq_right (Nat.le_succ _)]
    refine ⟨Nat.le_refl _, ?_, by simp [hread]⟩
    rw [List.drop_length]
    exact hrest _

theorem At.read_iff (h : r.At i (text.drop i)) : r.read.1 = true ↔ i < text.length := by
  constructor
  · intro hread
    by_contra hge
    rw [List.drop_eq_nil_of_le (Nat.not_lt.mp hge)] at h
    simp [h.read_nil.1] at hread
  · intro hlt
    rw [List.drop_eq_getElem_cons hlt] at h
    exact h.read_cons.1

theorem At.read_getElem (h : r.At i (text.drop i)) (hi : i < text.length) :
    r.read.2.current = text[i] ∧ r.read.2.position = i := by
  rw [List.drop_eq_getElem_cons hi] at h
  exact ⟨h.read_cons.2.1, h.read_cons.2.2.1⟩

/-- Reading past blanks is reading behind them. -/
theorem At.readPastBlanks_drop (h : r.At i (text.drop i)) :
    let gap := (text.drop i).takeWhile Text.isBlank
    ∃ r' : Reader, r.readPastBlanks = r'.read ∧
      r'.At (i + gap.length) (text.drop (i + gap.length)) := by
  intro gap
  obtain ⟨r', hr, hat⟩ := h.readPastBlanks
  refine ⟨r', hr, ?_⟩
  have hdrop : (text.drop i).drop gap.length = (text.drop i).dropWhile Text.isBlank := by
    conv_lhs => rw [← List.takeWhile_append_dropWhile (p := Text.isBlank) (l := text.drop i)]
    exact List.drop_left
  rw [← List.drop_drop, hdrop]
  exact hat

theorem At.readPastBlanks_iff (h : r.At i (text.drop i)) : r.readPastBlanks.1 = true ↔
    i + ((text.drop i).takeWhile Text.isBlank).length < text.length := by
  obtain ⟨r', hr, hat⟩ := h.readPastBlanks_drop
  rw [hr]
  exact hat.read_iff

namespace Behind

variable {s : Bool × Reader}

theorem start (text : List Char) : Behind text 0 (false, { ahead := text }) :=
  ⟨Nat.zero_le _, .start text, by simp⟩

theorem use (h : Behind text i s) (hu : u = .putBack → s.1 = true) :
    Behind text (u.index text i) (s.2.use u) := by
  cases u with
  | read => exact h.rest.behind_read h.le
  | readPastBlanks =>
    obtain ⟨r', hr, hat⟩ := h.rest.readPastBlanks_drop
    have hle := (List.takeWhile_prefix (l := text.drop i) Text.isBlank).length_le
    rw [List.length_drop] at hle
    have hbehind := hat.behind_read (by have := h.le; omega)
    rwa [← hr] at hbehind
  | putBack =>
    obtain ⟨-, -, hback⟩ := h.found (hu rfl)
    exact ⟨Nat.le_trans (Nat.sub_le i 1) h.le, hback, fun hf => by cases hf⟩

theorem after (h : Legal { ahead := text } uses) :
    Behind text (index text uses) (Reader.after { ahead := text } uses) := by
  induction uses using List.reverseRecOn with
  | nil => exact start text
  | append_singleton uses u ih =>
    obtain ⟨hlegal, hu⟩ := legal_append.mp h
    rw [after_append, index_append]
    exact (ih hlegal).use hu

/-- A use that finds nothing leaves nothing to be read. -/
theorem index_of_use_false (h : Behind text i s) (hu : u ≠ .putBack) (hf : (s.2.use u).1 = false) :
    u.index text i = text.length := by
  have hle := h.le
  cases u with
  | read =>
    have hend : ¬ i < text.length := by
      rw [← h.rest.read_iff]
      exact Bool.not_eq_true _ ▸ hf
    simp only [Use.index]
    omega
  | readPastBlanks =>
    have hend : ¬ i + ((text.drop i).takeWhile Text.isBlank).length < text.length := by
      rw [← h.rest.readPastBlanks_iff]
      exact Bool.not_eq_true _ ▸ hf
    simp only [Use.index]
    omega
  | putBack => exact absurd rfl hu

theorem use_false_of_end (h : Behind text text.length s) (u : Use) : (s.2.use u).1 = false := by
  cases u with
  | read => exact Bool.eq_false_iff.mpr fun hread => Nat.lt_irrefl _ (h.rest.read_iff.mp hread)
  | readPastBlanks =>
    refine Bool.eq_false_iff.mpr fun hread => ?_
    have hlt := h.rest.readPastBlanks_iff.mp hread
    omega
  | putBack => rfl

end Behind

/-- The blanks at place `i` end in front of the first character there that is none. -/
theorem takeWhile_drop {j : Nat} (hj : j < text.length) (hij : i ≤ j)
    (hgap : ∀ c ∈ (text.take j).drop i, Text.isBlank c = true) (hc : Text.isBlank text[j] = false) :
    ((text.drop i).takeWhile Text.isBlank).length = j - i := by
  have hsplit : text.drop i = (text.take j).drop i ++ text[j] :: text.drop (j + 1) := by
    rw [← List.drop_eq_getElem_cons hj, ← List.drop_append_of_le_length, List.take_append_drop]
    rw [List.length_take]
    omega
  rw [hsplit, List.takeWhile_append_of_pos hgap, List.takeWhile_cons_of_neg (by simp [hc]),
    List.append_nil, List.length_drop, List.length_take]
  omega

theorem At.readPastBlanks_getElem {j : Nat} (h : r.At i (text.drop i)) (hj : j < text.length)
    (hij : i ≤ j) (hgap : ∀ c ∈ (text.take j).drop i, Text.isBlank c = true)
    (hc : Text.isBlank text[j] = false) :
    r.readPastBlanks.1 = true ∧ r.readPastBlanks.2.current = text[j] ∧
      r.readPastBlanks.2.position = j ∧ Use.readPastBlanks.index text i = j + 1 := by
  have hlength := takeWhile_drop hj hij hgap hc
  obtain ⟨r', hr, hat⟩ := h.readPastBlanks_drop
  rw [hlength, Nat.add_sub_cancel' hij] at hat
  rw [hr, Use.index, hlength]
  exact ⟨hat.read_iff.mpr hj, (hat.read_getElem hj).1, (hat.read_getElem hj).2, by omega⟩

theorem At.readPastBlanks_none (h : r.At i (text.drop i)) (hi : i ≤ text.length)
    (hgap : ∀ c ∈ text.drop i, Text.isBlank c = true) :
    r.readPastBlanks.1 = false ∧ Use.readPastBlanks.index text i = text.length := by
  have hall : (text.drop i).takeWhile Text.isBlank = text.drop i :=
    List.takeWhile_eq_self_iff.mpr hgap
  have hlength : ((text.drop i).takeWhile Text.isBlank).length = text.length - i := by
    rw [hall, List.length_drop]
  refine ⟨Bool.eq_false_iff.mpr fun hread => ?_, ?_⟩
  · have hlt := h.readPastBlanks_iff.mp hread
    omega
  · rw [Use.index, hlength]
    omega

/-- The place of what is put back is free. -/
theorem Legal.returned {before : List Use} (h : Legal { ahead := text } uses)
    (hback : before ++ [.putBack] <+: uses) :
    (Reader.after { ahead := text } before).2.returned = none := by
  have hbefore : Legal { ahead := text } before := fun start hstart =>
    h start (hstart.trans ((List.prefix_append _ _).trans hback))
  exact ((Behind.after hbefore).found (h before hback)).1

/-- After a use that finds nothing no use finds anything. -/
theorem after_false (h : Legal { ahead := text } (uses ++ u :: more)) (hu : u ≠ .putBack)
    (hf : ((Reader.after { ahead := text } uses).2.use u).1 = false) :
    (Reader.after { ahead := text } (uses ++ u :: more)).1 = false ∧
      index text (uses ++ u :: more) = text.length := by
  induction more using List.reverseRecOn with
  | nil =>
    have hbehind := Behind.after (legal_append.mp h).1
    rw [after_append, index_append]
    exact ⟨hf, hbehind.index_of_use_false hu hf⟩
  | append_singleton more v ih =>
    rw [← List.cons_append, ← List.append_assoc] at h ⊢
    obtain ⟨hlegal, hback⟩ := legal_append.mp h
    obtain ⟨hfound, hend⟩ := ih hlegal
    have hbehind := Behind.after hlegal
    rw [hend] at hbehind
    -- Nothing was found, so nothing may be put back.
    have hv : v ≠ .putBack := fun hv => by simp [hback hv] at hfound
    have hnone := hbehind.use_false_of_end v
    rw [after_append, index_append, hend]
    exact ⟨hnone, hbehind.index_of_use_false hv hnone⟩

end Reader

end SqlOutline
