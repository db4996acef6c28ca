import SqlOutline.Text.Escape

namespace SqlOutline.Text

/-- The value of a lower-case hexadecimal digit. -/
def hexValue (d : Char) : Nat :=
  if d.isDigit then d.toNat - '0'.toNat else d.toNat - 'a'.toNat + 10

def ofHex (ds : List Char) : Nat :=
  ds.foldl (fun n d => 16 * n + hexValue d) 0

theorem hexValue_digitChar : ∀ n < 16, hexValue n.digitChar = n := by
  decide

theorem ofHex_toDigits (n : Nat) : ofHex (Nat.toDigits 16 n) = n := by
  induction n using Nat.strongRecOn with
  | ind n ih =>
    rw [Nat.toDigits_eq_if (by decide)]
    split
    next h => simp [ofHex, hexValue_digitChar n h]
    next h =>
      have hrest := ih (n / 16) (Nat.div_lt_self (by omega) (by decide))
      rw [ofHex] at hrest ⊢
      rw [List.foldl_append, hrest, List.foldl_cons, List.foldl_nil,
        hexValue_digitChar _ (Nat.mod_lt n (by decide))]
      exact Nat.div_add_mod n 16

theorem ofHex_zeros (k : Nat) (ds : List Char) : ofHex (List.replicate k '0' ++ ds) = ofHex ds := by
  induction k with
  | zero => rfl
  | succ k ih => exact ih

theorem exists_digitChar {b n : Nat} {d : Char} (hb : 1 < b) (h : d ∈ Nat.toDigits b n) :
    ∃ k < b, d = k.digitChar := by
  induction n using Nat.strongRecOn with
  | ind n ih =>
    rw [Nat.toDigits_eq_if hb] at h
    split at h
    next hn => exact ⟨n, hn, List.mem_singleton.mp h⟩
    next hn =>
      rcases List.mem_append.mp h with h | h
      · exact ih _ (Nat.div_lt_self (by omega) hb) h
      · exact ⟨n % b, Nat.mod_lt n (by omega), List.mem_singleton.mp h⟩

/-- The character that a letter stands for behind a backslash. -/
def letterValue : Char → Char
  | '0' => '\x00'
  | 't' => '\t'
  | 'n' => '\n'
  | 'r' => '\r'
  | l => l

theorem letterValue_of_escapeLetter {c l : Char} (h : escapeLetter c = some l) :
    letterValue l = c ∧ l ≠ 'u' := by
  unfold escapeLetter at h
  split at h <;> cases h <;> decide

/-- How a character may stand in an escaped text: as itself if it has no letter, and always by its
code point. -/
inductive Code (c : Char) : List Char → Prop where
  | letter {l : Char} (h : escapeLetter c = some l) : Code c ['\\', l]
  | self (h : escapeLetter c = none) : Code c [c]
  | point (width : Nat) : Code c (escapeCode width c)

theorem code_escapeStrict (c : Char) : Code c (escapeStrict c) := by
  unfold escapeStrict
  split
  next h => exact .letter h
  next h =>
    split
    · exact .self h
    · exact .point 4

theorem code_escapePrintable (first : Bool) (c : Char) : Code c (escapePrintable first c) := by
  unfold escapePrintable
  split
  next h => exact .letter h
  next h =>
    split
    · exact .self h
    · exact .point 1

/-- Reads the character that is written first. A quote that is not escaped is none. -/
def readCode : List Char → Option (Char × List Char)
  | '\\' :: 'u' :: s =>
    some (.ofNat (ofHex ((s.takeWhile (· ≠ '}')).drop 1)), (s.dropWhile (· ≠ '}')).drop 1)
  | '\\' :: l :: s => some (letterValue l, s)
  | ['\\'] | '"' :: _ | [] => none
  | c :: s => some (c, s)

theorem readCode_length {s r : List Char} {c : Char} (h : readCode s = some (c, r)) :
    r.length < s.length := by
  unfold readCode at h
  split at h <;> cases h
  case h_1 s =>
    have := (List.dropWhile_suffix (l := s) (· ≠ '}')).length_le
    simp only [List.length_drop, List.length_cons]
    omega
  all_goals
    simp only [List.length_cons]
    omega

/-- No code holds the brace that closes it before its end. -/
theorem readCode_point (width : Nat) (c : Char) (r : List Char) :
    readCode (escapeCode width c ++ r) = some (c, r) := by
  have hdigit : ∀ k < 16, k.digitChar ≠ '}' := by decide
  obtain ⟨k, hk⟩ : ∃ k, k = width - (Nat.toDigits 16 c.toNat).length := ⟨_, rfl⟩
  have hopen : ∀ d ∈ '{' :: (List.replicate k '0' ++ Nat.toDigits 16 c.toNat),
      decide (d ≠ '}') = true := by
    intro d hd
    rw [decide_eq_true_iff]
    rcases List.mem_cons.mp hd with rfl | hd
    · decide
    rcases List.mem_append.mp hd with hd | hd
    · rw [List.eq_of_mem_replicate hd]
      decide
    · obtain ⟨n, hn, rfl⟩ := exists_digitChar (by decide) hd
      exact hdigit n hn
  have hcode : escapeCode width c ++ r =
      '\\' :: 'u' :: ('{' :: (List.replicate k '0' ++ Nat.toDigits 16 c.toNat) ++ '}' :: r) := by
    simp [escapeCode, hk]
  rw [hcode, readCode, List.takeWhile_append_of_pos hopen, List.dropWhile_append_of_pos hopen]
  simp [ofHex_zeros, ofHex_toDigits]

theorem Code.read {c : Char} {e : List Char} (h : Code c e) (r : List Char) :
    readCode (e ++ r) = some (c, r) := by
  cases h with
  | @letter l h =>
    obtain ⟨hl, hu⟩ := letterValue_of_escapeLetter h
    simp [readCode, hl]
  | self h =>
    have hslash : c ≠ '\\' := by
      rintro rfl
      cases h
    have hquote : c ≠ '"' := by
      rintro rfl
      cases h
    simp [readCode, hslash]
  | point width => exact readCode_point width c r

/-- Reads an escaped text up to the quote that closes it, or to the end. -/
def unescape (s : List Char) : List Char × List Char :=
  match _h : readCode s with
  | none => ([], s)
  | some (c, r) => (c :: (unescape r).1, (unescape r).2)
termination_by s.length
decreasing_by all_goals exact readCode_length _h

/-- The second text stands for the first, character by character. -/
inductive Escapes : List Char → List Char → Prop where
  | nil : Escapes [] []
  | cons {c : Char} {t e u : List Char} (first : Code c e) (rest : Escapes t u) :
      Escapes (c :: t) (e ++ u)

namespace Escapes

variable {t u r : List Char}

theorem read (h : Escapes t u) (hr : ∀ c ∈ r.head?, c = '"') : unescape (u ++ r) = (t, r) := by
  induction h with
  | nil =>
    have hnone : readCode r = none := by
      cases r with
      | nil => rfl
      | cons c r =>
        obtain rfl := hr c rfl
        rfl
    rw [List.nil_append, unescape]
    split
    · rfl
    next h => cases hnone.symm.trans h
  | @cons c t e u first _ ih =>
    have hsome := first.read (u ++ r)
    rw [List.append_assoc, unescape]
    split
    next h => cases hsome.symm.trans h
    next h =>
      cases hsome.symm.trans h
      rw [ih]

theorem flatMap {f : Char → List Char} (h : ∀ c, Code c (f c)) (t : List Char) :
    Escapes t (t.flatMap f) := by
  induction t with
  | nil => exact .nil
  | cons c t ih => exact .cons (h c) ih

theorem asciiLine (t : List Char) : Escapes t (asciiLine t) :=
  flatMap code_escapeStrict t

theorem printableLine (t : List Char) : Escapes t (printableLine t) := by
  cases t with
  | nil => exact .nil
  | cons c t => exact .cons (code_escapePrintable true c) (flatMap (code_escapePrintable false) t)

end Escapes

/-- A quote that is not escaped closes the text, so what follows it may be anything. -/
theorem unescape_asciiLine (t r : List Char) : unescape (asciiLine t ++ '"' :: r) = (t, '"' :: r) :=
  (Escapes.asciiLine t).read (by simp)

theorem unescape_printableLine (t : List Char) : unescape (printableLine t) = (t, []) := by
  have h := (Escapes.printableLine t).read (r := []) (by simp)
  rwa [List.append_nil] at h

/-- Only the characters from space to `~`. -/
def Visible (t : List Char) : Prop :=
  ∀ c ∈ t, ' ' ≤ c ∧ c ≤ '~'

/-- No line break. -/
def Unbroken (t : List Char) : Prop :=
  ∀ c ∈ t, c ≠ '\n' ∧ c ≠ '\r'

-- The text is gone through, and not all characters that there are.
instance (t : List Char) : Decidable (Visible t) :=
  List.decidableBAll (fun c => ' ' ≤ c ∧ c ≤ '~') t

variable {t u : List Char} {c : Char}

@[simp] theorem visible_append : Visible (t ++ u) ↔ Visible t ∧ Visible u :=
  List.forall_mem_append

@[simp] theorem visible_cons : Visible (c :: t) ↔ (' ' ≤ c ∧ c ≤ '~') ∧ Visible t :=
  List.forall_mem_cons

@[simp] theorem unbroken_append : Unbroken (t ++ u) ↔ Unbroken t ∧ Unbroken u :=
  List.forall_mem_append

@[simp] theorem unbroken_cons : Unbroken (c :: t) ↔ (c ≠ '\n' ∧ c ≠ '\r') ∧ Unbroken t :=
  List.forall_mem_cons

theorem Visible.unbroken (h : Visible t) : Unbroken t := by
  intro c hc
  obtain ⟨hc, -⟩ := h c hc
  constructor <;> rintro rfl <;> exact absurd hc (by decide)

theorem visible_letter {l : Char} (h : escapeLetter c = some l) : Visible ['\\', l] := by
  unfold escapeLetter at h
  split at h <;> cases h <;> decide

theorem visible_escapeCode (width : Nat) (c : Char) : Visible (escapeCode width c) := by
  have hdigit : ∀ k < 16, ' ' ≤ k.digitChar ∧ k.digitChar ≤ '~' := by decide
  have zeros (k : Nat) : Visible (List.replicate k '0') := by
    intro d hd
    rw [List.eq_of_mem_replicate hd]
    decide
  have digits : Visible (Nat.toDigits 16 c.toNat) := by
    intro d hd
    obtain ⟨k, hk, rfl⟩ := exists_digitChar (by decide) hd
    exact hdigit k hk
  unfold escapeCode
  exact visible_append.mpr ⟨visible_append.mpr
    ⟨visible_append.mpr ⟨by decide, zeros _⟩, digits⟩, by decide⟩

theorem visible_asciiLine (t : List Char) : Visible (asciiLine t) := by
  intro d hd
  obtain ⟨c, -, hd⟩ := List.mem_flatMap.mp hd
  unfold escapeStrict at hd
  split at hd
  next h => exact visible_letter h d hd
  next =>
    split at hd
    next hc =>
      rw [List.mem_singleton.mp hd]
      exact hc
    next => exact visible_escapeCode 4 c d hd

/-- A line break has a letter, so it never stands for itself. -/
theorem Code.unbroken {e : List Char} (h : Code c e) : Unbroken e := by
  cases h with
  | letter h => exact (visible_letter h).unbroken
  | self h =>
    intro d hd
    obtain rfl := List.mem_singleton.mp hd
    constructor <;> rintro rfl <;> cases h
  | point width => exact (visible_escapeCode width c).unbroken

theorem Escapes.unbroken (h : Escapes t u) : Unbroken u := by
  induction h with
  | nil => exact fun _ hc => nomatch hc
  | cons first _ ih => exact unbroken_append.mpr ⟨first.unbroken, ih⟩

end SqlOutline.Text
