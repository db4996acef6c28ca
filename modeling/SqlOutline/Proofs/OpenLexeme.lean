import SqlOutline.Lexeme.Kind
import SqlOutline.Lexeme.Munch

namespace SqlOutline.Lexeme
open Text

/-- The text starts as one that the closer ends. -/
def Opens (closer : Char) (s : List Char) : Prop :=
  closer = '\'' ∧ (['\''] <+: s ∨ ['N', '\''] <+: s) ∨ closer = '"' ∧ ['"'] <+: s ∨
    closer = ']' ∧ ['['] <+: s

/-- The text starts as a binary literal. -/
def OpensBinary (s : List Char) : Prop :=
  ['0', 'x'] <+: s ∨ ['0', 'X'] <+: s

theorem Opens.append {closer : Char} {s : List Char} (h : Opens closer s) (t : List Char) :
    Opens closer (s ++ t) := by
  have grow {u : List Char} (hu : u <+: s) : u <+: s ++ t := hu.trans (List.prefix_append s t)
  rcases h with ⟨rfl, h⟩ | ⟨rfl, h⟩ | ⟨rfl, h⟩
  · exact .inl ⟨rfl, h.imp grow grow⟩
  · exact .inr (.inl ⟨rfl, grow h⟩)
  · exact .inr (.inr ⟨rfl, grow h⟩)

theorem OpensBinary.append {s : List Char} (h : OpensBinary s) (t : List Char) :
    OpensBinary (s ++ t) :=
  h.imp (·.trans (List.prefix_append s t)) (·.trans (List.prefix_append s t))

/-- Two characters that are no mark of a comment tell nothing together. -/
theorem closesComment_skip {a b : Char} (ho : ¬ (a = '/' ∧ b = '*')) (hc : ¬ (a = '*' ∧ b = '/'))
    (depth : Nat) (t : List Char) :
    closesComment depth (a :: b :: t) = closesComment depth (b :: t) := by
  rw [closesComment]
  · intro u ha hu
    exact ho ⟨ha, (List.cons.inj hu).1⟩
  · intro u ha hu
    exact hc ⟨ha, (List.cons.inj hu).1⟩

/-- How often the closer stands in the text. The bracket that opens counts as one that closes. -/
def marks (closer : Char) (s : List Char) : Nat :=
  s.count closer + if closer = ']' then 1 else 0

theorem marks_append (closer : Char) (s : List Char) (c : Char) :
    marks closer (s ++ [c]) = marks closer s + if c = closer then 1 else 0 := by
  simp only [marks, List.count_append, List.count_singleton, beq_iff_eq]
  omega

namespace Munch

/-- What the state tells about the lexeme read so far. Only those states tell something that may go on
over a line break, and those that lead to them. -/
def Shape : Munch → List Char → Prop
  | .slash, s => s = ['/']
  | .letterN, s => s = ['N']
  | .zero, s => s = ['0']
  | .oneOf signs, _ => '\n' ∉ signs
  | .blank, s => ∃ c t, s = c :: t ∧ isBlank c = true
  | .blockComment depth last, s =>
    ∃ body, s = '/' :: '*' :: body ∧
      ∀ rest, closesComment 1 (body ++ rest) = closesComment depth (last.toList ++ rest)
  | .quoted closer, s => Opens closer s ∧ marks closer s % 2 = 1
  | .quoteEnd closer, s => Opens closer s ∧ marks closer s % 2 = 0
  | .binary, s => OpensBinary s
  | .binaryBackslash, s => OpensBinary s ∧ ['\\'] <:+ s
  | .binaryReturn, s => OpensBinary s ∧ ['\\', '\r'] <:+ s
  | _, _ => True

theorem shape_start (c : Char) : Shape (start c) [c] := by
  unfold start
  split
  · exact ⟨c, [], rfl, ‹_›⟩
  split
  · split
    next hc => exact congrArg ([·]) hc
    next => trivial
  split
  case h_25 => split <;> trivial
  all_goals
    unfold Shape
    simp [Opens, marks]

section next

variable {m m' : Munch} {s : List Char} {c : Char}

theorem shape_of_afterWord (h : afterWord c = some m') (s : List Char) : m'.Shape s := by
  unfold afterWord at h
  split at h <;> cases h
  trivial

theorem shape_of_afterDigits {point : Bool} (h : afterDigits point c = some m') (s : List Char) :
    m'.Shape s := by
  unfold afterDigits at h
  split at h
  · cases h
    trivial
  split at h
  · cases h
    trivial
  split at h <;> cases h
  trivial

theorem shape_of_afterAmount {point : Bool} (h : afterAmount point c = some m') (s : List Char) :
    m'.Shape s := by
  unfold afterAmount at h
  split at h
  · cases h
    trivial
  split at h <;> cases h
  trivial

theorem shape_of_afterBinary (hs : OpensBinary s) (h : afterBinary c = some m') :
    m'.Shape (s ++ [c]) := by
  unfold afterBinary at h
  split at h
  · cases h
    exact hs.append _
  split at h <;> cases h
  subst c
  exact ⟨hs.append _, List.suffix_append _ _⟩

theorem shape_of_blockComment {depth : Nat} {last : Option Char}
    (hs : Shape (.blockComment depth last) s) (h : (blockComment depth last).next c = some m') :
    m'.Shape (s ++ [c]) := by
  obtain ⟨body, rfl, hbody⟩ := hs
  have step (rest : List Char) :
      closesComment 1 (body ++ [c] ++ rest) = closesComment depth (last.toList ++ c :: rest) := by
    rw [List.append_assoc]
    exact hbody (c :: rest)
  simp only [next] at h
  split at h
  · rename_i hopen
    obtain ⟨rfl, rfl⟩ := hopen
    cases h
    refine ⟨body ++ ['*'], rfl, fun rest => (step rest).trans ?_⟩
    simp [closesComment]
  split at h
  · rename_i hclose
    obtain ⟨rfl, rfl⟩ := hclose
    split at h
    · cases h
      trivial
    · rename_i hdepth
      cases h
      refine ⟨body ++ ['/'], rfl, fun rest => (step rest).trans ?_⟩
      simp [closesComment, hdepth]
  · rename_i hopen hclose
    cases h
    refine ⟨body ++ [c], rfl, fun rest => (step rest).trans ?_⟩
    cases last with
    | none => rfl
    | some d => exact closesComment_skip (by simpa using hopen) (by simpa using hclose) depth rest

theorem shape_of_quoted {closer : Char} (hs : Shape (.quoted closer) s)
    (h : (quoted closer).next c = some m') : m'.Shape (s ++ [c]) := by
  obtain ⟨hopens, hmarks⟩ := hs
  cases h
  have hmarks' := marks_append closer s c
  split
  · rw [if_pos ‹_›] at hmarks'
    exact ⟨hopens.append _, by omega⟩
  · rw [if_neg ‹_›] at hmarks'
    exact ⟨hopens.append _, by omega⟩

theorem shape_of_quoteEnd {closer : Char} (hs : Shape (.quoteEnd closer) s)
    (h : (quoteEnd closer).next c = some m') : m'.Shape (s ++ [c]) := by
  obtain ⟨hopens, hmarks⟩ := hs
  have hmarks' := marks_append closer s c
  simp only [next] at h
  split at h <;> cases h
  rw [if_pos ‹_›] at hmarks'
  exact ⟨hopens.append _, by omega⟩

/-- What a state tells is passed on with each character that the lexeme takes. -/
theorem Shape.next (hs : m.Shape s) (h : m.next c = some m') : m'.Shape (s ++ [c]) := by
  cases m with
  | full => cases h
  | blank =>
    simp only [Munch.next] at h
    split at h <;> cases h
    obtain ⟨d, t, rfl, hd⟩ := hs
    exact ⟨d, t ++ [c], rfl, hd⟩
  | slash =>
    obtain rfl := hs
    simp only [Munch.next] at h
    split at h
    · cases h
      subst c
      exact ⟨[], rfl, fun _ => rfl⟩
    split at h <;> cases h
    trivial
  | letterN =>
    obtain rfl := hs
    simp only [Munch.next] at h
    split at h
    · cases h
      subst c
      exact ⟨.inl ⟨rfl, .inr List.prefix_rfl⟩, rfl⟩
    · exact shape_of_afterWord h _
  | zero =>
    obtain rfl := hs
    simp only [Munch.next] at h
    split at h
    next hx =>
      cases h
      rcases (by simpa using hx : c = 'x' ∨ c = 'X') with rfl | rfl
      · exact .inl List.prefix_rfl
      · exact .inr List.prefix_rfl
    next => exact shape_of_afterDigits h _
  | blockComment => exact shape_of_blockComment hs h
  | quoted => exact shape_of_quoted hs h
  | quoteEnd => exact shape_of_quoteEnd hs h
  | binary => exact shape_of_afterBinary hs h
  | binaryBackslash =>
    obtain ⟨hs, t, rfl⟩ := hs
    simp only [Munch.next] at h
    split at h
    · cases h
      subst c
      exact ⟨hs.append _, t, by simp⟩
    split at h
    · cases h
      exact hs.append _
    · exact shape_of_afterBinary hs h
  | binaryReturn =>
    simp only [Munch.next] at h
    split at h
    · cases h
      exact hs.1.append _
    · exact shape_of_afterBinary hs.1 h
  | word => exact shape_of_afterWord h _
  | digits => exact shape_of_afterDigits h _
  | amount => exact shape_of_afterAmount h _
  | money =>
    simp only [Munch.next] at h
    split at h
    · cases h
      trivial
    · exact shape_of_afterAmount h _
  | dollar =>
    simp only [Munch.next] at h
    split at h
    · cases h
      trivial
    split at h
    · exact shape_of_afterAmount h _
    · exact shape_of_afterWord h _
  | dash =>
    simp only [Munch.next] at h
    split at h
    · cases h
      trivial
    split at h <;> cases h
    trivial
  | oneOf | dot | lineComment | exponent | exponentDigits =>
    simp only [Munch.next] at h
    split at h <;> cases h
    trivial

end next

/-- The state after all of the characters, if they all belong. -/
def after : Munch → List Char → Option Munch
  | m, [] => some m
  | m, c :: t => (m.next c).bind (after · t)

variable {m m' : Munch} {s t u : List Char}

theorem Shape.after (hs : m.Shape s) (h : m.after t = some m') : m'.Shape (s ++ t) := by
  induction t generalizing m s with
  | nil =>
    cases h
    simpa using hs
  | cons c t ih =>
    obtain ⟨m₁, hc, ht⟩ := Option.bind_eq_some_iff.mp h
    rw [List.append_cons]
    exact ih (hs.next hc) ht

theorem run_append_of_after (h : m.after t = some m') (u : List Char) :
    m.run (t ++ u) = (t ++ (m'.run u).1, (m'.run u).2) := by
  induction t generalizing m with
  | nil =>
    cases h
    rfl
  | cons c t ih =>
    obtain ⟨m₁, hc, ht⟩ := Option.bind_eq_some_iff.mp h
    simp only [List.cons_append, run, hc, ih ht]

theorem run_of_after (h : m.after t = some m') : m.run t = (t, []) := by
  simpa [run] using run_append_of_after h []

theorem after_append (m : Munch) (t u : List Char) :
    m.after (t ++ u) = (m.after t).bind fun m' => m'.after u := by
  induction t generalizing m with
  | nil => rfl
  | cons c t ih =>
    simp only [List.cons_append, after, Option.bind_assoc]
    exact Option.bind_congr fun m₁ _ => ih m₁

/-- The state in which a run ends. -/
def exit : Munch → List Char → Munch
  | m, [] => m
  | m, c :: t => (m.next c).elim m (exit · t)

theorem after_run (m : Munch) (t : List Char) : m.after (m.run t).1 = some (m.exit t) := by
  induction t generalizing m with
  | nil => rfl
  | cons c t ih =>
    cases hc : m.next c with
    | none => simp [run, hc, after, exit]
    | some m₁ => simp [run, hc, after, exit, ih m₁]

/-- What is behind a run does not belong to it. -/
theorem next_exit (m : Munch) (t : List Char) : ∀ c ∈ (m.run t).2.head?, (m.exit t).next c = none := by
  induction t generalizing m with
  | nil => simp [run]
  | cons c t ih =>
    cases hc : m.next c with
    | none => simp [run, hc, exit]
    | some m₁ => simpa [run, hc, exit] using ih m₁

theorem exit_append_of_after (h : m.after t = some m') (u : List Char) :
    m.exit (t ++ u) = m'.exit u := by
  induction t generalizing m with
  | nil =>
    cases h
    rfl
  | cons c t ih =>
    obtain ⟨m₁, hc, ht⟩ := Option.bind_eq_some_iff.mp h
    simp only [List.cons_append, exit, hc, Option.elim_some, ih ht]

/-- Either all of the characters belong, or one that does not ends the run, whatever is behind it. -/
theorem after_or_run (m : Munch) (t : List Char) :
    (∃ m', m.after t = some m') ∨
      (m.run t).2 ≠ [] ∧ ∀ u, m.run (t ++ u) = ((m.run t).1, (m.run t).2 ++ u) := by
  induction t generalizing m with
  | nil => exact .inl ⟨m, rfl⟩
  | cons c t ih =>
    cases hc : m.next c with
    | none => exact .inr (by simp [run, hc])
    | some m₁ =>
      refine (ih m₁).imp (fun h => ?_) (fun h => ?_)
      · simpa [after, hc] using h
      · simp only [List.cons_append, run, hc]
        exact ⟨h.1, fun u => by rw [h.2 u]⟩

end Munch

section lineBreak

variable {quoted : Bool} {s : List Char}

/-- A lexeme that the mark of a comment opens is a comment, and the check of it tells which. -/
theorem kind_of_comment (quoted : Bool) (s : List Char) : kind quoted ('/' :: '*' :: s) =
    if closesComment 1 s then .blockComment else .incompleteComment := by
  simp [kind, show isBlank '/' = false from rfl]

theorem closesComment_of_shape {depth : Nat} {last : Option Char}
    (hs : (Munch.blockComment depth last).Shape ('/' :: '*' :: s)) : closesComment 1 s = false := by
  obtain ⟨body, hbody, hrest⟩ := hs
  obtain rfl : s = body := (List.cons.inj (List.cons.inj hbody).2).2
  have h := hrest []
  rw [List.append_nil] at h
  rw [h]
  cases last <;> simp [closesComment]

theorem kind_of_blockComment {depth : Nat} {last : Option Char}
    (hs : (Munch.blockComment depth last).Shape s) : kind quoted s = .incompleteComment := by
  obtain ⟨body, rfl, -⟩ := id hs
  rw [kind_of_comment, closesComment_of_shape hs]
  rfl

theorem kind_of_opensBinary (hs : OpensBinary s) : kind quoted s = .binary := by
  have hb : isBlank '0' = false := rfl
  have hc : isCurrencySign '0' = false := rfl
  rcases hs with ⟨t, rfl⟩ | ⟨t, rfl⟩ <;> simp [kind, hb, hc]

/-- The word starts with a letter, as every word does that a lexeme can be. -/
def startsLetter (w : String) : Bool :=
  w.toList.head?.any Char.isUpper

theorem startsLetter_of_mem_keywords : ∀ k ∈ keywords, startsLetter k.spelling = true := by
  decide +kernel

theorem startsLetter_of_mem_systemIdentifiers : ∀ w ∈ systemIdentifiers, startsLetter w = true := by
  decide +kernel

theorem ne_upper_of_startsLetter {w : String} {c : Char} {t : List Char}
    (hw : startsLetter w = true) (hc : c.toUpper.isUpper = false) : w.toList ≠ upper (c :: t) := by
  intro h
  simp [startsLetter, h, upper, hc] at hw

section delimited

variable {c : Char} (hc : c = '[' ∨ c = '"') (t : List Char)
include hc

theorem not_upper_of_delimited : c.toUpper.isUpper = false := by
  rcases hc with rfl | rfl <;> rfl

/-- A text in brackets or double quotes is no word, and no sign either. -/
theorem wordKind_of_delimited :
    wordKind quoted (c :: t) =
      if c = '[' ∧ (c :: t).count ']' % 2 = 0 then .incompleteIdentifier
      else if quoted ∧ c = '"' ∧ (c :: t).count '"' % 2 = 1 then .incompleteIdentifier
      else .identifier := by
  have hletter := not_upper_of_delimited hc
  have hp : Punctuation.ofText? (c :: t) = none := by
    rcases hc with rfl | rfl <;> simp [Punctuation.ofText?]
  have hand : upper (c :: t) ≠ "AND".toList := (ne_upper_of_startsLetter rfl hletter).symm
  have hor : upper (c :: t) ≠ "OR".toList := (ne_upper_of_startsLetter rfl hletter).symm
  have hk : Keyword.ofText? (c :: t) = none := by
    refine List.find?_eq_none.mpr fun k hk => ?_
    simpa using ne_upper_of_startsLetter (startsLetter_of_mem_keywords k hk) hletter
  have hs : isSystemIdentifier (c :: t) = false := by
    refine Bool.eq_false_iff.mpr fun h => ?_
    obtain ⟨w, hw, he⟩ := isSystemIdentifier_iff.mp h
    exact ne_upper_of_startsLetter (startsLetter_of_mem_systemIdentifiers w hw) hletter he.symm
  simp only [wordKind, hp, if_neg hand, if_neg hor, hk, hs, List.head?_cons, Option.some.injEq,
    Bool.false_eq_true, if_false]

/-- Of these only a text in double quotes can be a string. -/
theorem kind_of_delimited (hq : c = '"' → quoted = true) :
    kind quoted (c :: t) = wordKind quoted (c :: t) := by
  have hw : operatorWords.any (·.toList == upper (c :: t)) = false := by
    refine List.any_eq_false.mpr fun w hw => ?_
    have hw : startsLetter w = true := by
      revert w
      decide +kernel
    simpa using ne_upper_of_startsLetter hw (not_upper_of_delimited hc)
  have hblank : isBlank c = false := by rcases hc with rfl | rfl <;> rfl
  have hcurrency : isCurrencySign c = false := by rcases hc with rfl | rfl <;> rfl
  have hsign : operatorSigns.contains c = false := by rcases hc with rfl | rfl <;> rfl
  have hdigit : c.isDigit = false := by rcases hc with rfl | rfl <;> rfl
  have hstart : '-' ≠ c ∧ '/' ≠ c ∧ 'N' ≠ c := by rcases hc with rfl | rfl <;> decide
  have hother : c ≠ '@' ∧ c ≠ '\'' ∧ c ≠ '$' ∧ c ≠ '0' ∧ c ≠ '.' := by
    rcases hc with rfl | rfl <;> decide
  simp only [kind, hblank, hcurrency, hsign, hdigit, hw]
  simp_all

end delimited

/-- The kind of a text between delimiters, whether it is closed or runs to the end. -/
def delimitedKind (quoted : Bool) (closer : Char) (closed : Bool) : Kind :=
  if closer = ']' ∨ closer = '"' ∧ quoted = true then
    if closed then .identifier else .incompleteIdentifier
  else if closed then .string else .incompleteString

/-- Such a text is closed if the closer has its double everywhere but at the end. -/
theorem kind_of_opens {closer : Char} (h : Opens closer s) :
    kind quoted s = delimitedKind quoted closer (marks closer s % 2 = 0) := by
  rcases h with ⟨rfl, h⟩ | ⟨rfl, t, rfl⟩ | ⟨rfl, t, rfl⟩
  · have hk : kind quoted s = quotedKind '\'' s := by
      rcases h with ⟨t, rfl⟩ | ⟨t, rfl⟩
      · simp [kind, show isBlank '\'' = false from rfl]
      · simp [kind, show isBlank 'N' = false from rfl]
    rw [hk]
    simp [quotedKind, delimitedKind, marks]
  · cases quoted with
    | false =>
      have hk : kind false (['"'] ++ t) = quotedKind '"' (['"'] ++ t) := by
        simp [kind, show isBlank '"' = false from rfl]
      rw [hk]
      simp [quotedKind, delimitedKind, marks]
    | true =>
      rw [List.singleton_append, kind_of_delimited (.inr rfl) t fun _ => rfl,
        wordKind_of_delimited (.inr rfl), if_neg (by simp), marks]
      generalize ('"' :: t).count '"' = n
      rcases Nat.mod_two_eq_zero_or_one n with hn | hn <;> simp [delimitedKind, hn]
  · rw [List.singleton_append, kind_of_delimited (.inl rfl) t (by simp),
      wordKind_of_delimited (.inl rfl), marks]
    -- The bracket that opens is no closer, so that the closers of a closed text are odd in number.
    generalize ('[' :: t).count ']' = n
    rcases Nat.mod_two_eq_zero_or_one n with hn | hn
    · have hmarks : (n + 1) % 2 = 1 := by omega
      simp [delimitedKind, hn, hmarks]
    · have hmarks : (n + 1) % 2 = 0 := by omega
      simp [delimitedKind, hn, hmarks]

theorem isIncomplete_of_quoted {closer : Char} (hs : (Munch.quoted closer).Shape s) :
    (kind quoted s).isIncomplete = true := by
  obtain ⟨hopens, hmarks⟩ := hs
  rw [kind_of_opens hopens, delimitedKind]
  simp only [hmarks]
  split <;> rfl

/-- A line break ends every lexeme that is neither incomplete nor a binary literal that it goes on
with. Only blanks take it in. -/
theorem Munch.Shape.lineBreak {m : Munch} (hs : m.Shape s)
    (complete : (kind quoted s).isIncomplete = false)
    (ends : kind quoted s = .binary → ¬ ['\\'] <:+ s ∧ ¬ ['\\', '\r'] <:+ s) :
    m = .blank ∨ m.next '\n' = none := by
  cases m with
  | blank => exact .inl rfl
  | blockComment =>
    rw [kind_of_blockComment hs] at complete
    cases complete
  | quoted =>
    rw [isIncomplete_of_quoted hs] at complete
    cases complete
  | binaryBackslash => exact absurd hs.2 (ends (kind_of_opensBinary hs.1)).1
  | binaryReturn => exact absurd hs.2 (ends (kind_of_opensBinary hs.1)).2
  | oneOf signs =>
    have hs : '\n' ∉ signs := hs
    exact .inr (if_neg (by simpa using hs))
  | quoteEnd closer =>
    refine .inr (if_neg ?_)
    rintro rfl
    simpa [Opens] using hs.1
  | _ => exact .inr rfl

end lineBreak

end SqlOutline.Lexeme
