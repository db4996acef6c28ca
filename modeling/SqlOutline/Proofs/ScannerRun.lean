import SqlOutline.Proofs.Scanner

namespace SqlOutline
open Lexeme

/-- What belongs to a lexeme whose next character `next` decides on. -/
def Lexeme.Munch.runFrom (next : Char → Option Munch) : List Char → List Char × List Char
  | [] => ([], [])
  | c :: t =>
    match next c with
    | none => ([], c :: t)
    | some m => (c :: (m.run t).1, (m.run t).2)

theorem Lexeme.Munch.runFrom_next (m : Munch) (t : List Char) : runFrom m.next t = m.run t := by
  cases t with
  | nil => rfl
  | cons c t => cases h : m.next c <;> simp only [runFrom, run, h]

theorem Lexeme.Munch.runFrom_congr {next next' : Char → Option Munch} {c : Char}
    (h : next c = next' c) (t : List Char) : runFrom next (c :: t) = runFrom next' (c :: t) := by
  rw [runFrom, runFrom, h]

namespace Scanner

variable {text t u : List Char} {c : Char} {p n : Nat} {s : Scanner} {q : Char → Bool} {m : Munch}
  {f g : Scanner → Scanner} {next next' : Char → Option Munch}

/-- The uses that a scanner remembers are legal, and made its reader what it is. -/
structure Traced (text : List Char) (s : Scanner) : Prop where
  legal : Reader.Legal { ahead := text } s.uses
  told : (Reader.after { ahead := text } s.uses).2 = s.reader

theorem Traced.ask (h : s.Traced text) (a : Reader.Use)
    (hback : a = .putBack → (Reader.after { ahead := text } s.uses).1 = true) :
    (s.ask a).2.Traced text ∧
      (Reader.after { ahead := text } (s.ask a).2.uses).1 = (s.ask a).1 := by
  have hafter : Reader.after { ahead := text } (s.ask a).2.uses = s.reader.use a := by
    rw [← h.told]
    exact Reader.after_append _ _ _
  exact ⟨⟨Reader.legal_append.mpr ⟨h.legal, hback⟩, congrArg Prod.snd hafter⟩,
    congrArg Prod.fst hafter⟩

/-- The scanner has kept `t` of a lexeme that starts at place `p`, and `u` is still to be read. -/
structure Stands (text : List Char) (p : Nat) (t u : List Char) (s : Scanner) : Prop
    extends Traced text s where
  lexeme : s.lexeme = t
  rest : s.reader.At (p + t.length) u

namespace Stands

theorem read_nil (h : s.Stands text p t []) :
    (s.ask .read).1 = false ∧ (s.ask .read).2.Stands text p t [] := by
  obtain ⟨htraced, -⟩ := h.toTraced.ask .read (by simp)
  exact ⟨h.rest.read_nil.1, htraced, h.lexeme, h.rest.read_nil.2 _⟩

theorem read_cons (h : s.Stands text p t (c :: u)) :
    (s.ask .read).1 = true ∧ (s.ask .read).2.reader.current = c ∧
      (s.ask .read).2.keep.Stands text p (t ++ [c]) u ∧
      ((s.ask .read).2.ask .putBack).2.Stands text p t (c :: u) := by
  obtain ⟨hread, hc, -, hrest, hback⟩ := h.rest.read_cons
  obtain ⟨htraced, hfound⟩ := h.toTraced.ask .read (by simp)
  obtain ⟨htraced', -⟩ := htraced.ask .putBack fun _ => hfound.trans hread
  refine ⟨hread, hc, ⟨⟨htraced.legal, htraced.told⟩, ?_, ?_⟩, ⟨htraced', h.lexeme, hback⟩⟩
  · rw [keep, show (s.ask .read).2.reader.current = c from hc]
    exact congrArg (· ++ [c]) h.lexeme
  · rw [List.length_append]
    exact hrest

theorem accept_nil (h : s.Stands text p t []) :
    (s.accept q).1 = false ∧ (s.accept q).2.Stands text p t [] := by
  obtain ⟨hread, hs⟩ := h.read_nil
  simp only [accept, hread, Bool.false_eq_true, if_false]
  exact ⟨trivial, hs⟩

theorem accept_pos (h : s.Stands text p t (c :: u)) (hc : q c = true) :
    (s.accept q).1 = true ∧ (s.accept q).2.Stands text p (t ++ [c]) u := by
  obtain ⟨hread, hcurrent, hkeep, -⟩ := h.read_cons
  simp only [accept, hread, hcurrent, hc, if_true]
  exact ⟨trivial, hkeep⟩

theorem accept_neg (h : s.Stands text p t (c :: u)) (hc : q c = false) :
    (s.accept q).1 = false ∧ (s.accept q).2.Stands text p t (c :: u) := by
  obtain ⟨hread, hcurrent, -, hback⟩ := h.read_cons
  simp only [accept, hread, hcurrent, hc, if_true, Bool.false_eq_true, if_false]
  exact ⟨trivial, hback⟩

/-- What is kept behind a character that belongs is what belongs from that character on. -/
theorem of_some (hnext : next c = some m)
    (h : s.Stands text p (t ++ [c] ++ (Munch.runFrom m.next u).1) (Munch.runFrom m.next u).2) :
    s.Stands text p (t ++ (Munch.runFrom next (c :: u)).1) (Munch.runFrom next (c :: u)).2 := by
  rw [List.append_assoc, Munch.runFrom_next] at h
  rw [Munch.runFrom, hnext]
  exact h

end Stands

/-- Goes on with `f` behind the closer, if there is one. -/
def behindCloser (closer : Char) (f : Scanner → Scanner) (s : Scanner) : Scanner :=
  if (s.throughCloser closer).1 then f (s.throughCloser closer).2 else (s.throughCloser closer).2

/-- Less than `n` characters before the end, `f` keeps what belongs to the lexeme and leaves the
rest, whatever it puts back on the way. -/
def ReadsBelow (n : Nat) (f : Scanner → Scanner) (next : Char → Option Munch) : Prop :=
  ∀ ⦃text p t u s⦄, u.length < n → Stands text p t u s →
    (f s).Stands text p (t ++ (Munch.runFrom next u).1) (Munch.runFrom next u).2

namespace ReadsBelow

theorem zero : ReadsBelow 0 f next :=
  fun _ _ _ _ _ hu => absurd hu (Nat.not_lt_zero _)

theorem mono {k : Nat} (h : ReadsBelow n f next) (hk : k ≤ n) : ReadsBelow k f next :=
  fun _ _ _ _ _ hu hs => h (Nat.lt_of_lt_of_le hu hk) hs

theorem stop : ReadsBelow n (fun s => s) fun _ => none := by
  intro text p t u s _ hs
  have hnone : Munch.runFrom (fun _ => none) u = ([], u) := by cases u <;> rfl
  rw [hnone, List.append_nil]
  exact hs

theorem accept (hf : ReadsBelow n f m.next) (hg : ReadsBelow (n + 1) g next')
    (hnext : ∀ c, next c = if q c then some m else next' c) :
    ReadsBelow (n + 1) (fun s => if (s.accept q).1 then f (s.accept q).2 else g (s.accept q).2)
      next := by
  intro text p t u s hu hs
  cases u with
  | nil =>
    obtain ⟨hno, hs'⟩ := hs.accept_nil (q := q)
    simp only [hno, Bool.false_eq_true, if_false]
    exact hg hu hs'
  | cons c u =>
    cases hc : q c with
    | true =>
      obtain ⟨hyes, hs'⟩ := hs.accept_pos hc
      simp only [hyes, if_true]
      exact .of_some (by rw [hnext, hc, if_pos rfl]) (hf (Nat.lt_of_succ_lt_succ hu) hs')
    | false =>
      obtain ⟨hno, hs'⟩ := hs.accept_neg hc
      simp only [hno, Bool.false_eq_true, if_false]
      have hsame : next c = next' c := by simp [hnext, hc]
      rw [Munch.runFrom_congr hsame]
      exact hg hu hs'

/-- A character that may be there but need not. -/
theorem optional (hf : ReadsBelow n f m.next)
    (hnext : ∀ c, next c = if q c then some m else m.next c) :
    ReadsBelow n (fun s => f (s.accept q).2) next := by
  cases n with
  | zero => exact zero
  | succ n =>
    have hboth := accept (hf.mono (Nat.le_succ n)) hf hnext
    simp only [ite_self] at hboth
    exact hboth

theorem peek (hf : ReadsBelow n f m.next) (hg : ReadsBelow n g next')
    (hnext : ∀ c, next c = if q c then m.next c else next' c) :
    ReadsBelow n (fun s => if (s.peek q).1 then f (s.peek q).2 else g (s.peek q).2) next := by
  intro text p t u s hu hs
  cases u with
  | nil =>
    obtain ⟨hread, hs'⟩ := hs.read_nil
    simp only [Scanner.peek, hread, Bool.false_eq_true, if_false]
    exact hg hu hs'
  | cons c u =>
    obtain ⟨hread, hcurrent, -, hback⟩ := hs.read_cons
    simp only [Scanner.peek, hread, hcurrent, if_true]
    cases hc : q c with
    | true =>
      have hsame : next c = m.next c := by simp [hnext, hc]
      rw [Munch.runFrom_congr hsame]
      exact hf hu hback
    | false =>
      have hsame : next c = next' c := by simp [hnext, hc]
      rw [Munch.runFrom_congr hsame]
      exact hg hu hback

/-- A character that belongs in any case. -/
theorem read {f : Char → Scanner → Scanner} {m : Char → Munch}
    (hf : ∀ c, ReadsBelow n (f c) (m c).next) (hnext : ∀ c, next c = some (m c)) :
    ReadsBelow (n + 1) (fun s =>
      if (s.ask .read).1 then f (s.ask .read).2.reader.current (s.ask .read).2.keep
      else (s.ask .read).2) next := by
  intro text p t u s hu hs
  cases u with
  | nil =>
    obtain ⟨hread, hs'⟩ := hs.read_nil
    simp only [hread, Bool.false_eq_true, if_false, Munch.runFrom, List.append_nil]
    exact hs'
  | cons c u =>
    obtain ⟨hread, hcurrent, hkeep, -⟩ := hs.read_cons
    simp only [hread, hcurrent, if_true]
    exact .of_some (hnext c) (hf c (Nat.lt_of_succ_lt_succ hu) hkeep)

theorem acceptAll (hnext : ∀ c, m.next c = if q c then some m else none) :
    ReadsBelow n (acceptAll q) m.next := by
  induction n with
  | zero => exact zero
  | succ n ih =>
    rw [funext (Scanner.acceptAll.eq_1 q)]
    exact .accept ih .stop hnext

theorem blockComment (depth : Nat) (last : Option Char) :
    ReadsBelow n (blockComment depth last) (Munch.blockComment depth last).next := by
  induction n generalizing depth last with
  | zero => exact zero
  | succ n ih =>
    rw [funext (Scanner.blockComment.eq_1 depth last)]
    refine .read (f := fun c s => if last = some '/' ∧ c = '*' then s.blockComment (depth + 1) none
        else if last = some '*' ∧ c = '/' then
          if depth - 1 = 0 then s else s.blockComment (depth - 1) none
        else s.blockComment depth (some c))
      (m := fun c => if last = some '/' ∧ c = '*' then .blockComment (depth + 1) none
        else if last = some '*' ∧ c = '/' then
          if depth - 1 = 0 then .full else .blockComment (depth - 1) none
        else .blockComment depth (some c)) (fun c => ?_) fun c => ?_
    · split_ifs
      · exact ih _ _
      · exact .stop
      · exact ih _ _
      · exact ih _ _
    · simp only [Munch.next, Nat.sub_eq_zero_iff_le]
      split_ifs <;> rfl

theorem behindCloser {closer : Char} (hf : ReadsBelow n f (Munch.quoteEnd closer).next) :
    ReadsBelow (n + 1) (behindCloser closer f) (Munch.quoted closer).next := by
  have hunfold : Scanner.behindCloser closer f = fun s =>
      if (s.ask .read).1 then
        if (s.ask .read).2.reader.current = closer then f (s.ask .read).2.keep
        else (s.ask .read).2.keep.behindCloser closer f
      else (s.ask .read).2 := by
    funext s
    rw [Scanner.behindCloser, Scanner.throughCloser]
    split_ifs <;> simp_all [Scanner.behindCloser]
  -- The text between the closers is read one character at a time, so `n` bounds that too.
  have hall (k : Nat) (hk : k ≤ n + 1) :
      ReadsBelow k (Scanner.behindCloser closer f) (Munch.quoted closer).next := by
    induction k with
    | zero => exact zero
    | succ k ih =>
      rw [hunfold]
      refine .read (f := fun c s => if c = closer then f s else s.behindCloser closer f)
        (m := fun c => if c = closer then .quoteEnd closer else .quoted closer)
        (fun c => ?_) fun _ => rfl
      split_ifs
      · exact hf.mono (Nat.le_of_succ_le_succ hk)
      · exact ih (Nat.le_of_succ_le hk)
  exact hall _ (Nat.le_refl _)

theorem quoted (closer : Char) : ReadsBelow n (quoted closer) (Munch.quoted closer).next := by
  induction n with
  | zero => exact zero
  | succ n ih =>
    have hdoubled : ReadsBelow (n + 1) (fun s =>
        if (s.accept (· = closer)).1 then (s.accept (· = closer)).2.quoted closer
        else (s.accept (· = closer)).2) (Munch.quoteEnd closer).next :=
      .accept ih .stop fun c => by simp [Munch.next]
    rw [funext (Scanner.quoted.eq_1 closer)]
    exact behindCloser (hdoubled.mono (Nat.le_succ n))

theorem binary : ReadsBelow n binary Munch.binary.next := by
  induction n with
  | zero => exact zero
  | succ n ih =>
    have hfeed : ReadsBelow n (fun s => (s.accept (· = '\n')).2.binary) Munch.binaryReturn.next :=
      ih.optional fun c => by simp [Munch.next]
    have hreturn : ReadsBelow n (fun s =>
        ((s.accept (· = '\r')).2.accept (· = '\n')).2.binary) Munch.binaryBackslash.next :=
      hfeed.optional fun c => by simp [Munch.next]
    have hbackslash : ReadsBelow (n + 1) (fun s =>
        if (s.accept (· = '\\')).1 then
          (((s.accept (· = '\\')).2.accept (· = '\r')).2.accept (· = '\n')).2.binary
        else (s.accept (· = '\\')).2) fun c => if c = '\\' then some .binaryBackslash else none :=
      .accept hreturn .stop fun c => by simp
    rw [funext Scanner.binary.eq_1]
    exact .accept ih hbackslash fun c => by simp [Munch.next, Munch.afterBinary]

/-- Digits, and what `f` reads behind them. The state tells whether there was a period. -/
theorem decimals {state : Bool → Munch} (hf : ∀ n, ReadsBelow n f next')
    (hnext : ∀ point c, (state point).next c = if c.isDigit then some (state point)
      else if c = '.' && !point then some (state true) else next' c) (point : Bool) :
    ReadsBelow n (fun s => f (s.decimals point)) (state point).next := by
  induction n generalizing point with
  | zero => exact zero
  | succ n ih =>
    have hunfold : (fun s : Scanner => f (s.decimals point)) = fun s =>
        if (s.accept Char.isDigit).1 then f ((s.accept Char.isDigit).2.decimals point)
        else if point then f (s.accept Char.isDigit).2
        else if ((s.accept Char.isDigit).2.accept (· = '.')).1 then
          f (((s.accept Char.isDigit).2.accept (· = '.')).2.decimals true)
        else f ((s.accept Char.isDigit).2.accept (· = '.')).2 := by
      funext s
      rw [Scanner.decimals]
      simp only [apply_ite f]
    rw [hunfold]
    cases point with
    | true => exact .accept (ih true) (hf _) fun c => by simp [hnext]
    | false =>
      have hperiod : ReadsBelow (n + 1) (fun s =>
          if (s.accept (· = '.')).1 then f ((s.accept (· = '.')).2.decimals true)
          else f (s.accept (· = '.')).2) fun c => if c = '.' then some (state true) else next' c :=
        .accept (ih true) (hf _) fun c => by simp
      exact .accept (ih false) hperiod fun c => by simp [hnext]

theorem exponent : ReadsBelow n exponent Munch.exponent.next := by
  have hdigits : ReadsBelow n (Scanner.acceptAll Char.isDigit) Munch.exponentDigits.next :=
    acceptAll fun _ => rfl
  refine hdigits.optional fun c => ?_
  simp only [Munch.next, isSign]
  grind

theorem number (point : Bool) : ReadsBelow n (number point) (Munch.digits point).next := by
  have hmark (n : Nat) : ReadsBelow n (fun s =>
      if (s.accept fun c => c = 'e' || c = 'E').1 then
        (s.accept fun c => c = 'e' || c = 'E').2.exponent
      else (s.accept fun c => c = 'e' || c = 'E').2)
      fun c => if c = 'e' || c = 'E' then some .exponent else none := by
    cases n with
    | zero => exact zero
    | succ n => exact .accept exponent .stop fun _ => rfl
  exact decimals hmark (fun _ _ => rfl) point

theorem money : ReadsBelow n money Munch.money.next := by
  have hamount (n : Nat) : ReadsBelow n (Scanner.decimals false) (Munch.amount false).next :=
    decimals (f := fun s => s) (fun _ => .stop) (fun _ _ => rfl) false
  exact (hamount n).optional fun _ => rfl

theorem word : ReadsBelow n word Munch.word.next :=
  acceptAll fun c => by cases h : endsWord c <;> simp [Munch.next, Munch.afterWord, h]

theorem lineComment : ReadsBelow n lineComment Munch.lineComment.next :=
  acceptAll fun c => by
    simp only [Munch.next]
    grind

/-- One of the signs, or nothing. -/
theorem sign (signs : List Char) (hq : ∀ c, q c = signs.contains c) :
    ReadsBelow n (fun s => (s.accept q).2) (Munch.oneOf signs).next :=
  optional (f := fun s => s) (m := .full) .stop fun c => by simp [Munch.next, hq]

theorem dispatch (hblank : Text.isBlank c = false) :
    ReadsBelow n (dispatch c) (Munch.start c).next := by
  cases n with
  | zero => exact zero
  | succ n =>
    -- One case for each first character that has a rule. Those left to the end are signs behind
    -- which one of a few others may stand.
    unfold Scanner.dispatch
    split
    case h_1 | h_2 | h_3 | h_4 | h_5 => exact .stop
    case h_6 =>
      change ReadsBelow _ _ Munch.dot.next
      exact .accept (number true) .stop fun c => by simp [Munch.next]
    case h_7 =>
      change ReadsBelow _ _ Munch.dash.next
      exact .accept lineComment (sign ['='] (by simp)) fun c => by simp [Munch.next]
    case h_8 =>
      change ReadsBelow _ _ Munch.slash.next
      exact .accept (blockComment 1 none) (sign ['='] (by simp)) fun c => by
        simp [Munch.next]
    case h_20 =>
      change ReadsBelow _ _ Munch.letterN.next
      exact .accept (quoted '\'') word fun c => by simp [Munch.next]
    case h_21 | h_22 | h_23 => exact quoted _
    case h_24 =>
      change ReadsBelow _ _ Munch.zero.next
      exact .accept binary (number false) fun c => by simp [Munch.next]
    case h_25 =>
      change ReadsBelow _ _ Munch.dollar.next
      refine .peek money word fun c => ?_
      simp only [Munch.next]
      grind
    case h_26 =>
      -- No sign at all, so a digit, a currency sign or a word.
      have hstart : Munch.start c =
          if c.isDigit then .digits false else if isCurrencySign c then .money else .word := by
        simp_all [Munch.start]
      rw [hstart]
      split_ifs
      · exact number false
      · exact money
      · exact word
    all_goals exact sign _ (by simp)

theorem munch (m : Munch) : ReadsBelow n (munch m) m.next := by
  induction n generalizing m with
  | zero => exact zero
  | succ n ih =>
    intro text p t u s hu hs
    rw [Scanner.munch]
    cases u with
    | nil =>
      obtain ⟨hread, hs'⟩ := hs.read_nil
      simp only [hread, Bool.false_eq_true, if_false, Munch.runFrom, List.append_nil]
      exact hs'
    | cons c u =>
      obtain ⟨hread, hcurrent, hkeep, hback⟩ := hs.read_cons
      simp only [hread, hcurrent, if_true]
      cases hm : m.next c with
      | none =>
        simp only [Munch.runFrom, hm, List.append_nil]
        exact hback
      | some m' => exact .of_some hm (ih m' (Nat.lt_of_succ_lt_succ hu) hkeep)

end ReadsBelow

/-- `lex` reads the rest of a lexeme that starts with the current character. -/
def Lexes (blanks : Bool) (lex : Scanner → Scanner) : Prop :=
  ∀ ⦃text p c u s⦄, s.reader.current = c → (Text.isBlank c && !blanks) = false →
    Stands text p [c] u s →
    (lex s).Stands text p (c :: ((Munch.start c).run u).1) ((Munch.start c).run u).2

theorem ReadsBelow.lexes {blanks : Bool} {f : Char → Scanner → Scanner}
    (h : ∀ c, (Text.isBlank c && !blanks) = false → ∀ n, ReadsBelow n (f c) (Munch.start c).next) :
    Lexes blanks fun s => f s.reader.current s := by
  rintro text p _ u s rfl hc hs
  have hrest := h _ hc _ (Nat.lt_succ_self u.length) hs
  rw [Munch.runFrom_next] at hrest
  exact hrest

theorem lexes_munch (blanks : Bool) : Lexes blanks fun s => s.munch (.start s.reader.current) :=
  ReadsBelow.lexes fun _ _ _ => .munch _

theorem lexes_scan (blanks : Bool) : Lexes blanks (scan blanks) := by
  refine ReadsBelow.lexes (f := fun c s =>
    if blanks && Text.isBlank c then s.acceptAll Text.isBlank else s.dispatch c) fun c hc n => ?_
  cases hblank : Text.isBlank c with
  | true =>
    have hstart : Munch.start c = .blank := by simp [Munch.start, hblank]
    obtain rfl : blanks = true := by simpa [hblank] using hc
    rw [hstart]
    exact .acceptAll fun _ => rfl
  | false =>
    simp only [Bool.and_false, Bool.false_eq_true, if_false]
    exact .dispatch hblank

/-- A reader that is asked through a scanner gives the same lexeme. -/
theorem munch_eq (m : Munch) (s : Scanner) :
    (s.munch m).lexeme = s.lexeme ++ (s.reader.munch m).1 ∧
      (s.munch m).reader = (s.reader.munch m).2 := by
  fun_induction munch m s with
  | case1 m s read hread hm =>
    change s.reader.read.1 = true at hread
    change m.next s.reader.read.2.current = none at hm
    rw [Reader.munch, if_pos hread, hm]
    exact ⟨(List.append_nil _).symm, rfl⟩
  | case2 m s read hread m' hm ih =>
    change s.reader.read.1 = true at hread
    change m.next s.reader.read.2.current = some m' at hm
    rw [Reader.munch, if_pos hread, hm]
    exact ⟨ih.1.trans (List.append_assoc _ _ _), ih.2⟩
  | case3 m s read hread =>
    change ¬ s.reader.read.1 = true at hread
    rw [Reader.munch, if_neg hread]
    exact ⟨(List.append_nil _).symm, rfl⟩

end Scanner

end SqlOutline
