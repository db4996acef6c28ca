import SqlOutline.Proofs.OpenLexeme
import SqlOutline.Token.Tokenize

namespace SqlOutline

namespace Text

/-- No letter of either case. -/
def Signs (w : List Char) : Prop :=
  ∀ i < 26, Char.ofNat (65 + i) ∉ w ∧ Char.ofNat (97 + i) ∉ w

instance (w : List Char) : Decidable (Signs w) :=
  inferInstanceAs (Decidable (∀ _ < _, _))

theorem isLower_iff {c : Char} : c.isLower = true ↔ 'a'.val ≤ c.val ∧ c.val ≤ 'z'.val := by
  change (decide ('a'.val ≤ c.val) && decide (c.val ≤ 'z'.val)) = true ↔ _
  rw [Bool.and_eq_true, decide_eq_true_eq, decide_eq_true_eq]

theorem isUpper_iff {c : Char} : c.isUpper = true ↔ 'A'.val ≤ c.val ∧ c.val ≤ 'Z'.val :=
  decide_eq_true_iff

theorem exists_of_isLower {c : Char} (h : c.isLower = true) : ∃ i < 26, c = .ofNat (97 + i) := by
  obtain ⟨hle, hge⟩ : 97 ≤ c.toNat ∧ c.toNat ≤ 122 := isLower_iff.mp h
  obtain ⟨i, hi⟩ := Nat.exists_eq_add_of_le hle
  exact ⟨i, by omega, by rw [← hi, Char.ofNat_toNat]⟩

theorem exists_of_isUpper {c : Char} (h : c.isUpper = true) : ∃ i < 26, c = .ofNat (65 + i) := by
  obtain ⟨hle, hge⟩ : 65 ≤ c.toNat ∧ c.toNat ≤ 90 := isUpper_iff.mp h
  obtain ⟨i, hi⟩ := Nat.exists_eq_add_of_le hle
  exact ⟨i, by omega, by rw [← hi, Char.ofNat_toNat]⟩

theorem toUpper_of_not_isLower {c : Char} (h : ¬ c.isLower = true) : c.toUpper = c :=
  dif_neg fun hc => h (isLower_iff.mpr hc)

theorem toLower_of_not_isUpper {c : Char} (h : ¬ c.isUpper = true) : c.toLower = c :=
  dif_neg fun hc => h (isUpper_iff.mpr hc)

/-- Whatever does not tell a small letter from its capital does not see upper case. -/
theorem apply_toUpper {α : Type} (v : Char → α)
    (h : ∀ i < 26, v (.ofNat (65 + i)) = v (.ofNat (97 + i))) (c : Char) : v c.toUpper = v c := by
  by_cases hc : c.isLower = true
  · obtain ⟨i, hi, rfl⟩ := exists_of_isLower hc
    have hupper : ∀ i < 26, (Char.ofNat (97 + i)).toUpper = .ofNat (65 + i) := by decide
    rw [hupper i hi]
    exact h i hi
  · rw [toUpper_of_not_isLower hc]

theorem toUpper_toUpper (c : Char) : c.toUpper.toUpper = c.toUpper :=
  apply_toUpper Char.toUpper (by decide) c

theorem toUpper_toLower (c : Char) : c.toLower.toUpper = c.toUpper := by
  by_cases hc : c.isUpper = true
  · obtain ⟨i, hi, rfl⟩ := exists_of_isUpper hc
    have hboth : ∀ i < 26, (Char.ofNat (65 + i)).toLower.toUpper = (Char.ofNat (65 + i)).toUpper := by
      decide
    exact hboth i hi
  · rw [toLower_of_not_isUpper hc]

theorem upper_upper (t : List Char) : upper (upper t) = upper t := by
  rw [upper, upper, List.map_map]
  exact List.map_congr_left fun c _ => toUpper_toUpper c

theorem toUpper_eq_iff {c d : Char} (hd : Signs [d]) : c.toUpper = d ↔ c = d := by
  have h := apply_toUpper (fun e => decide (e = d)) (fun i hi => ?_) c
  · simpa using h
  · have := hd i hi
    simp_all

theorem contains_toUpper {w : List Char} (h : Signs w) (c : Char) :
    w.contains c.toUpper = w.contains c := by
  refine apply_toUpper w.contains (fun i hi => ?_) c
  have := h i hi
  simp_all

theorem beq_toUpper {c d : Char} (hd : Signs [d]) : (c.toUpper == d) = (c == d) := by
  rw [Bool.eq_iff_iff, beq_iff_eq, beq_iff_eq, toUpper_eq_iff hd]

theorem count_upper {d : Char} (hd : Signs [d]) (t : List Char) :
    (upper t).count d = t.count d := by
  rw [upper, List.count_eq_countP, List.countP_map, List.count_eq_countP]
  congr 1
  exact funext fun c => beq_toUpper hd

theorem isPrefixOf_upper {w : List Char} (hw : Signs w) (t : List Char) :
    w.isPrefixOf (upper t) = w.isPrefixOf t := by
  induction w generalizing t with
  | nil => rfl
  | cons d w ih =>
    cases t with
    | nil => rfl
    | cons c t =>
      have hd : Signs [d] := fun i hi => by
        have := hw i hi
        simp_all
      have hrest : Signs w := fun i hi => by
        have := hw i hi
        simp_all
      have hc : (d == c.toUpper) = (d == c) := by
        rw [BEq.comm, beq_toUpper hd, BEq.comm]
      rw [upper, List.map_cons, List.isPrefixOf_cons_cons, List.isPrefixOf_cons_cons, hc]
      exact congrArg _ (ih hrest t)

end Text

namespace Lexeme
open Text

namespace Munch

/-- No letter closes what is begun. -/
def Caseless : Munch → Prop
  | .oneOf signs => Signs signs
  | .quoted closer | .quoteEnd closer => Signs [closer]
  | _ => True

/-- What upper case says about the character that follows. -/
def upper : Munch → Munch
  | .blockComment depth last => .blockComment depth (last.map Char.toUpper)
  | m => m

variable {m m' : Munch} {c : Char} {t : List Char}

theorem caseless_start (c : Char) : (start c).Caseless := by
  unfold start
  repeat' split
  all_goals first | trivial | (unfold Caseless; decide)

theorem upper_start (c : Char) : (start c).upper = start c := by
  unfold start
  repeat' split
  all_goals rfl

theorem Caseless.next (hm : m.Caseless) (h : m.next c = some m') : m'.Caseless := by
  have hquote : Signs ['\''] := by decide
  cases m <;> grind [Munch.next, afterWord, afterBinary, afterDigits, afterAmount, Caseless]

theorem map_upper_next (h : ∀ depth last, m ≠ .blockComment depth last) :
    (m.next c).map upper = m.next c := by
  cases m <;> grind [Munch.next, afterWord, afterBinary, afterDigits, afterAmount, upper]

theorem next_toUpper (hm : m.Caseless) (c : Char) :
    m.upper.next c.toUpper = (m.next c).map upper := by
  cases m with
  | blockComment depth last =>
    -- The one state that keeps a character, and compares it with signs alone.
    have hopen : last.map Char.toUpper = some '/' ↔ last = some '/' := by
      cases last <;> simp [toUpper_eq_iff (d := '/') (by decide)]
    have hclose : last.map Char.toUpper = some '*' ↔ last = some '*' := by
      cases last <;> simp [toUpper_eq_iff (d := '*') (by decide)]
    simp only [upper, next, hopen, hclose, toUpper_eq_iff (d := '/') (by decide),
      toUpper_eq_iff (d := '*') (by decide)]
    grind [upper]
  | oneOf signs =>
    rw [map_upper_next (by simp)]
    simp only [upper, next, contains_toUpper hm]
  | quoted closer =>
    rw [map_upper_next (by simp)]
    simp only [upper, next, toUpper_eq_iff hm]
  | quoteEnd closer =>
    rw [map_upper_next (by simp)]
    simp only [upper, next, toUpper_eq_iff hm]
  | digits point =>
    rw [map_upper_next (by simp)]
    exact apply_toUpper (next (.digits point)) (by cases point <;> decide) c
  | amount point =>
    rw [map_upper_next (by simp)]
    exact apply_toUpper (next (.amount point)) (by cases point <;> decide) c
  | _ =>
    rw [map_upper_next (by simp)]
    exact apply_toUpper (next _) (by decide) c

theorem run_upper (hm : m.Caseless) (t : List Char) :
    m.upper.run (Text.upper t) = (Text.upper (m.run t).1, Text.upper (m.run t).2) := by
  induction t generalizing m with
  | nil => rfl
  | cons c t ih =>
    have hnext := next_toUpper hm c
    rw [Text.upper, List.map_cons, run, run, hnext]
    cases h : m.next c with
    | none => rfl
    | some m' =>
      have hrest := ih (hm.next h)
      rw [Text.upper] at hrest
      simp [hrest, Text.upper]

/-- A letter N is begun as any word, unless a quote follows. -/
def startWord (c : Char) : Munch :=
  if c = 'N' then .word else start c

theorem startWord_run (h : c = 'N' → t.head? ≠ some '\'') :
    (startWord c).run t = (start c).run t := by
  unfold startWord
  split
  next hc =>
    subst hc
    have hd : ∀ d ∈ t.head?, d ≠ '\'' := fun d hd he => h rfl (he ▸ hd)
    cases t with
    | nil => rfl
    | cons d t =>
      have hstart : start 'N' = .letterN := rfl
      simp [hstart, run, next, hd d rfl]
  next => rfl

theorem run_start_upper (h : c.toUpper = 'N' → t.head? ≠ some '\'') :
    (start c.toUpper).run (Text.upper t) =
      (Text.upper ((start c).run t).1, Text.upper ((start c).run t).2) := by
  have hc : c = 'N' → t.head? ≠ some '\'' := by
    rintro rfl
    exact h rfl
  have hupper : c.toUpper = 'N' → (Text.upper t).head? ≠ some '\'' := by
    intro hN hd
    refine h hN ?_
    cases t with
    | nil => cases hd
    | cons d t =>
      have hd : d.toUpper = '\'' := by simpa [Text.upper] using hd
      rw [(toUpper_eq_iff (by decide)).mp hd]
      rfl
  -- Only a capital N begins what may turn out a string. As no quote follows, it begins a word.
  have hword : startWord c.toUpper = startWord c := apply_toUpper startWord (by decide) c
  have hcaseless : (startWord c).Caseless := by
    unfold startWord
    split
    · trivial
    · exact caseless_start c
  have hstart : (startWord c).upper = startWord c := by
    unfold startWord
    split
    · rfl
    · exact upper_start c
  have hrun := run_upper hcaseless t
  rwa [hstart, startWord_run hc, ← hword, startWord_run hupper] at hrun

end Munch

theorem closesComment_upper (depth : Nat) (t : List Char) :
    closesComment depth (upper t) = closesComment depth t := by
  match t with
  | [] => rfl
  | [c] => simp [upper, closesComment]
  | a :: b :: t =>
    have hcons := closesComment_upper depth (b :: t)
    by_cases ho : a = '/' ∧ b = '*'
    · obtain ⟨rfl, rfl⟩ := ho
      exact closesComment_upper (depth + 1) t
    by_cases hc : a = '*' ∧ b = '/'
    · obtain ⟨rfl, rfl⟩ := hc
      have hrest := closesComment_upper (depth - 1) t
      have hempty : (upper t).isEmpty = t.isEmpty := List.isEmpty_map
      change closesComment depth ('*' :: '/' :: upper t) = _
      simp [closesComment, hrest, hempty]
    · simp only [upper, List.map_cons] at hcons ⊢
      rw [closesComment_skip ho hc, closesComment_skip, hcons]
      · rwa [toUpper_eq_iff (by decide), toUpper_eq_iff (by decide)]
      · rwa [toUpper_eq_iff (by decide), toUpper_eq_iff (by decide)]

theorem ofText?_upper (t : List Char) : Punctuation.ofText? (upper t) = Punctuation.ofText? t := by
  match t with
  | [] => rfl
  | [c] => exact apply_toUpper (fun c => Punctuation.ofText? [c]) (by decide) c
  | a :: b :: t =>
    simp [upper, Punctuation.ofText?]

theorem head?_upper {d : Char} (hd : Signs [d]) (t : List Char) :
    (upper t).head? = some d ↔ t.head? = some d := by
  cases t <;> simp [upper, toUpper_eq_iff hd]

theorem any_head?_upper (v : Char → Bool)
    (h : ∀ i < 26, v (.ofNat (65 + i)) = v (.ofNat (97 + i))) (t : List Char) :
    (upper t).head?.any v = t.head?.any v := by
  cases t <;> simp [upper, apply_toUpper v h]

theorem wordKind_upper (quoted : Bool) (t : List Char) :
    wordKind quoted (upper t) = wordKind quoted t := by
  have hkeyword : Keyword.ofText? (upper t) = Keyword.ofText? t := by
    rw [Keyword.ofText?, upper_upper, Keyword.ofText?]
  have hsystem : isSystemIdentifier (upper t) = isSystemIdentifier t := by
    rw [isSystemIdentifier, upper_upper, isSystemIdentifier]
  simp only [wordKind, ofText?_upper, hkeyword, hsystem, upper_upper,
    head?_upper (d := '[') (by decide), head?_upper (d := '"') (by decide),
    count_upper (d := ']') (by decide), count_upper (d := '"') (by decide)]

/-- Nothing but the prefix of a string has to be a capital. -/
theorem kind_upper (quoted : Bool) {t : List Char} (h : "N'".toList.isPrefixOf (upper t) = false) :
    kind quoted (upper t) = kind quoted t := by
  have hmarks : "N'".toList.isPrefixOf t = false := by
    refine Bool.eq_false_iff.mpr fun hN => ?_
    obtain ⟨u, rfl⟩ := List.isPrefixOf_iff_prefix.mp hN
    simp [upper] at h
  cases t with
  | nil => rfl
  | cons c t =>
    have hcons : c.toUpper :: upper t = upper (c :: t) := rfl
    have hdash := isPrefixOf_upper (w := "--".toList) (by decide) (c :: t)
    have hslash := isPrefixOf_upper (w := "/*".toList) (by decide) (c :: t)
    have hcomment : closesComment 1 ((upper t).drop 1) = closesComment 1 (t.drop 1) := by
      rw [upper, ← List.map_drop]
      exact closesComment_upper 1 _
    have hsystem : isSystemVariable (upper (c :: t)) = isSystemVariable (c :: t) := by
      rw [isSystemVariable, upper_upper, isSystemVariable]
    have hblank : isBlank c.toUpper = isBlank c := apply_toUpper isBlank (by decide) c
    have hcurrency : isCurrencySign c.toUpper = isCurrencySign c :=
      apply_toUpper isCurrencySign (by decide) c
    have hdigit : c.toUpper.isDigit = c.isDigit := apply_toUpper Char.isDigit (by decide) c
    have hsign := contains_toUpper (w := operatorSigns) (by decide) c
    have halphabetic := any_head?_upper isAlphabetic (by decide +kernel) t
    have hhex := any_head?_upper (fun d => d = 'x' || d = 'X') (by decide) t
    have hdigits := any_head?_upper Char.isDigit (by decide) t
    change kind quoted (c.toUpper :: upper t) = _
    simp only [kind, hcons, h, hmarks, hdash, hslash, hcomment, hsystem, hblank, hcurrency, hdigit,
      hsign, halphabetic, hhex, hdigits, quotedKind, upper_upper, wordKind_upper,
      count_upper (d := '\'') (by decide), count_upper (d := '"') (by decide),
      toUpper_eq_iff (d := '@') (by decide), toUpper_eq_iff (d := '\'') (by decide),
      toUpper_eq_iff (d := '"') (by decide), toUpper_eq_iff (d := '$') (by decide),
      toUpper_eq_iff (d := '0') (by decide), toUpper_eq_iff (d := '.') (by decide)]

end Lexeme

open Lexeme

/-- The token with its text in upper case. -/
def Token.upper (t : Token) : Token :=
  { t with text := Text.upper t.text }

/-- The tokens of a text in upper case are those of the text, each of them in upper case, where no N
of either case can be taken for the prefix of a string. -/
theorem tokensAt_upper (s : Settings) (p : Nat) (u : List Char)
    (h : ¬ "N'".toList <:+: Text.upper u) :
    tokensAt s p (Text.upper u) = (tokensAt s p u).map Token.upper := by
  have hcons (c : Char) (u : List Char) : Text.upper (c :: u) = c.toUpper :: Text.upper u := rfl
  have hblank (c : Char) : Text.isBlank c.toUpper = Text.isBlank c :=
    Text.apply_toUpper Text.isBlank (by decide) c
  fun_induction tokensAt s p u with
  | case1 => simp [Text.upper, tokensAt]
  | case2 p c u hb ih =>
    rw [hcons, tokensAt, hblank, if_pos hb]
    exact ih fun hin => h (hin.trans (List.suffix_cons _ _).isInfix)
  | case3 p c u hb run ih =>
    have hquote : c.toUpper = 'N' → u.head? ≠ some '\'' := by
      intro hN hu
      obtain ⟨v, rfl⟩ := List.head?_eq_some_iff.mp hu
      refine h (List.IsPrefix.isInfix ⟨Text.upper v, ?_⟩)
      rw [hcons, hN]
      rfl
    have hrun := Munch.run_start_upper hquote
    have happend : run.1 ++ run.2 = u := Munch.run_append _ _
    have hrest : ¬ "N'".toList <:+: Text.upper run.2 := by
      intro hin
      refine h (hin.trans (List.IsSuffix.isInfix ⟨Text.upper (c :: run.1), ?_⟩))
      rw [← happend, ← Text.upper_append, List.cons_append]
    have hkind : kind s.quoted (Text.upper (c :: run.1)) = kind s.quoted (c :: run.1) := by
      refine kind_upper s.quoted (Bool.eq_false_iff.mpr fun hN => h ?_)
      have hmarks := List.isPrefixOf_iff_prefix.mp hN
      refine (hmarks.trans ?_).isInfix
      rw [← happend]
      exact ⟨Text.upper run.2, by simp [Text.upper]⟩
    rw [hcons, tokensAt, hblank, if_neg hb, hrun]
    have hlength : (Text.upper run.1).length = run.1.length := List.length_map _
    have htoken : Token.ofLexeme s.quoted p (c.toUpper :: Text.upper run.1) =
        (Token.ofLexeme s.quoted p (c :: run.1)).upper := by
      rw [← hcons, Token.ofLexeme, hkind]
      rfl
    dsimp only
    rw [htoken, hlength, ih hrest, List.map_cons]

end SqlOutline
