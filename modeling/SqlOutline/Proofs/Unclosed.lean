import SqlOutline.Proofs.Delimited
import SqlOutline.Proofs.NestedComment

namespace SqlOutline
open Lexeme

/-- The state in which the lexer ends the lexeme that the text starts with. -/
def Lexeme.endState : List Char → Munch
  | [] => .full
  | c :: u => (Munch.start c).exit u

/-- What a text can end in the middle of. -/
inductive Region where
  | comment
  | delimited (δ : Delimiter)
  deriving DecidableEq

namespace Region

def opening : Region → List Char
  | .comment => ['/', '*']
  | .delimited δ => δ.opening

/-- The text goes on with such a region to the end of it. A closer that has its double closes
nothing. -/
def Closes : Region → List Char → Prop
  | .comment, u => ∃ s, Comment s ∧ s <+: u
  | .delimited δ, u => ∃ s rest, u = δ.quote s ++ rest ∧ rest.head? ≠ some δ.closer

/-- The states in which the lexer is inside. -/
def Open : Region → Munch → Prop
  | .comment, m => ∃ depth last, m = .blockComment depth last
  | .delimited δ, m => m = .quoted δ.closer

/-- What a finished lexeme tells by itself: whether the comment closes with its last character, and
whether the closers pair. The bracket that opens is none of them. -/
def check : Region → List Char → Bool
  | .comment, s => closesComment 1 (s.drop 2)
  | .delimited .brackets, s => s.count ']' % 2 = 1
  | .delimited δ, s => s.count δ.closer % 2 = 0

def kind (quoted closed : Bool) : Region → Kind
  | .comment => if closed then .blockComment else .incompleteComment
  | .delimited δ => delimitedKind quoted δ.closer closed

theorem isIncomplete_kind (quoted closed : Bool) (ρ : Region) :
    (ρ.kind quoted closed).isIncomplete = !closed := by
  cases ρ with
  | comment => cases closed <;> rfl
  | delimited δ => cases δ <;> cases quoted <;> cases closed <;> rfl

theorem check_delimited (δ : Delimiter) (s : List Char) :
    (delimited δ).check s = decide (marks δ.closer s % 2 = 0) := by
  cases δ with
  | brackets =>
    have hparity : s.count ']' % 2 = 1 ↔ (s.count ']' + 1) % 2 = 0 := by omega
    simp [check, marks, Delimiter.closer, hparity]
  | _ => rfl

end Region

theorem Delimiter.opens {δ : Delimiter} {s : List Char} (h : δ.opening <+: s) :
    Opens δ.closer s := by
  cases δ with
  | string => exact .inl ⟨rfl, .inl h⟩
  | national => exact .inl ⟨rfl, .inr h⟩
  | quotes => exact .inr (.inl ⟨rfl, h⟩)
  | brackets => exact .inr (.inr ⟨rfl, h⟩)

namespace Region

variable {ρ : Region} {s : List Char} {quoted : Bool}

/-- The opening and the check together decide the kind. -/
theorem kind_of_opening (h : ρ.opening <+: s) :
    Lexeme.kind quoted s = ρ.kind quoted (ρ.check s) := by
  cases ρ with
  | comment =>
    obtain ⟨body, rfl⟩ := h
    exact kind_of_comment quoted body
  | delimited δ =>
    rw [kind_of_opens (Delimiter.opens h), check_delimited]
    rfl

theorem isIncomplete_wordKind {c : Char} (hbrackets : c ≠ '[') (hquotes : c ≠ '"') (s : List Char) :
    (wordKind quoted (c :: s)).isIncomplete = false := by
  simp only [wordKind, List.head?_cons, Option.some.injEq, hbrackets, hquotes, false_and, and_false,
    if_false]
  split
  · rfl
  split
  · rfl
  split
  · rfl
  split
  · rfl
  split <;> rfl

/-- No other lexeme is incomplete. -/
theorem of_isIncomplete (h : (Lexeme.kind quoted s).isIncomplete = true) :
    ∃ ρ : Region, ρ.opening <+: s := by
  by_contra hno
  rw [not_exists] at hno
  cases s with
  | nil => cases h
  | cons c s =>
    have hcomment : "/*".toList.isPrefixOf (c :: s) = false :=
      Bool.eq_false_iff.mpr fun h => hno .comment (List.isPrefixOf_iff_prefix.mp h)
    have hnational : "N'".toList.isPrefixOf (c :: s) = false :=
      Bool.eq_false_iff.mpr fun h => hno (.delimited .national) (List.isPrefixOf_iff_prefix.mp h)
    have hstring : c ≠ '\'' := by
      rintro rfl
      exact hno (.delimited .string) ⟨s, rfl⟩
    have hquotes : c ≠ '"' := by
      rintro rfl
      exact hno (.delimited .quotes) ⟨s, rfl⟩
    have hbrackets : c ≠ '[' := by
      rintro rfl
      exact hno (.delimited .brackets) ⟨s, rfl⟩
    simp only [Lexeme.kind, hcomment, hnational, hstring, hquotes, Bool.false_eq_true, or_self,
      false_and, if_false] at h
    simp only [apply_ite Kind.isIncomplete, isIncomplete_wordKind hbrackets hquotes] at h
    simp only [Kind.isIncomplete, ite_self, Bool.false_eq_true] at h

end Region

namespace Lexeme.Munch

variable {closer : Char}

theorem exit_quoteEnd {rest : List Char} (h : rest.head? ≠ some closer) :
    (quoteEnd closer).exit rest = quoteEnd closer := by
  cases rest with
  | nil => rfl
  | cons c rest =>
    have hc : c ≠ closer := by simpa using h
    simp [exit, next, hc]

/-- Behind an opening delimiter the lexer stops behind a closer that is alone, or takes in all of
the text. -/
theorem run_quoted (closer : Char) (u : List Char) :
    (∃ s rest, u = Text.doubled closer s ++ closer :: rest ∧ rest.head? ≠ some closer ∧
      (quoted closer).exit u = quoteEnd closer) ∨
    ((quoted closer).run u).2 = [] ∧ (quoted closer).exit u = quoted closer := by
  have hrun := (quoted closer).run_append u
  have hnext := (quoted closer).next_exit u
  obtain ⟨s, ⟨hs, hexit⟩ | ⟨hs, hexit⟩⟩ := doubled_of_after ((quoted closer).after_run u)
  · refine .inr ⟨List.head?_eq_none_iff.mp (Option.eq_none_iff_forall_not_mem.mpr ?_), hexit⟩
    intro c hc
    rw [hexit] at hnext
    cases hnext c hc
  · refine .inl ⟨s, ((quoted closer).run u).2, ?_, fun hhead => ?_, hexit⟩
    · rw [hs, List.append_assoc] at hrun
      exact hrun.symm
    · have hstop := hnext closer hhead
      rw [hexit, next, if_pos rfl] at hstop
      cases hstop

end Lexeme.Munch

namespace Region

variable {ρ : Region} {c : Char} {v : List Char}

/-- How the lexer stops, whether the closing sequence is there, and the check of the lexeme that it
makes tell the same. It is inside at the end only if nothing is left. -/
theorem closed_or_open (h : ρ.opening <+: c :: v) :
    (ρ.Closes (c :: v) ∧ ¬ ρ.Open ((Munch.start c).exit v) ∧
      ρ.check (c :: ((Munch.start c).run v).1) = true) ∨
    (¬ ρ.Closes (c :: v) ∧ ρ.Open ((Munch.start c).exit v) ∧
      ρ.check (c :: ((Munch.start c).run v).1) = false ∧ ((Munch.start c).run v).2 = []) := by
  cases ρ with
  | comment =>
    obtain ⟨u, hu⟩ := h
    obtain ⟨rfl, rfl⟩ : '/' = c ∧ '*' :: u = v := List.cons.inj hu
    obtain ⟨hrun, hexit⟩ := Munch.run_comment u
    rcases Munch.run_blockComment u with
      ⟨s, rest, rfl, hs, hrun', hfull, hcheck⟩ | ⟨hnone, hrun', hopen, hcheck⟩
    · refine .inl ⟨⟨_, .marks hs, rest, rfl⟩, ?_, ?_⟩
      · rintro ⟨depth, last, hopen⟩
        cases hfull.symm.trans (hexit.symm.trans hopen)
      · rw [hrun, hrun']
        exact hcheck
    · refine .inr ⟨?_, ?_, ?_, ?_⟩
      · rintro ⟨s, hs, hstarts⟩
        exact Comment.not_starts_iff.mpr hnone s hs hstarts
      · rwa [hexit]
      · rw [hrun, hrun']
        exact hcheck
      · rw [hrun, hrun']
  | delimited δ =>
    obtain ⟨d, w, hopening, -, hw⟩ := δ.after_opening
    obtain ⟨u, hu⟩ : δ.opening <+: c :: v := h
    rw [hopening] at hu
    obtain ⟨rfl, rfl⟩ : d = c ∧ w ++ u = v := List.cons.inj hu
    have hshape := (Munch.shape_start d).after ((Munch.start d).after_run (w ++ u))
    have hexit := Munch.exit_append_of_after hw u
    rw [check_delimited]
    rcases Munch.run_quoted δ.closer u with ⟨s, rest, rfl, hrest, hend⟩ | ⟨hnil, hquoted⟩
    · rw [hexit, hend] at hshape ⊢
      refine .inl ⟨⟨s, rest, ?_, hrest⟩, by simp [Open], decide_eq_true hshape.2⟩
      rw [Delimiter.quote, hopening]
      simp
    · rw [hexit, hquoted] at hshape ⊢
      have hodd : marks δ.closer (d :: ((Munch.start d).run (w ++ u)).1) % 2 = 1 := hshape.2
      refine .inr ⟨?_, rfl, decide_eq_false (by omega), ?_⟩
      · rintro ⟨s, rest, he, hrest⟩
        obtain ⟨d', w', hquote, -, hw'⟩ := δ.after_quote s
        rw [hquote] at he
        obtain ⟨rfl, hv⟩ : d = d' ∧ w ++ u = w' ++ rest := List.cons.inj he
        have hend := Munch.exit_append_of_after hw' rest
        rw [← hv, hexit, hquoted, Munch.exit_quoteEnd hrest] at hend
        cases hend
      · rw [Munch.run_append_of_after hw u, hnil]

end Region

/-- The incomplete tokens are those regions that the text opens and does not close. Whether the lexer
is inside when it stops, whether the closing sequence is there, and what the check of the finished
lexeme tells are the same. Such a token takes in all that is left, so it is the last, and it ends
with the text. -/
theorem incomplete_iff_unclosed (settings : Settings) (text : List Char) :
    ∀ t ∈ tokenize settings text,
      let rest := text.drop t.start
      (t.kind.isIncomplete = true ↔ ∃ ρ : Region, ρ.opening <+: t.text ∧ ¬ ρ.Closes rest) ∧
      (∀ ρ : Region, ρ.opening <+: t.text →
        (ρ.Open (endState rest) ↔ ¬ ρ.Closes rest) ∧ (ρ.check t.text = true ↔ ρ.Closes rest) ∧
        t.kind = ρ.kind settings.quoted (ρ.check t.text)) ∧
      (t.kind.isIncomplete = true → t.text = rest ∧
        (tokenize settings text).getLast? = some t ∧ t.span.last + 1 = text.length) := by
  intro t ht rest
  obtain ⟨c, v, hrest, hlexeme, hbehind⟩ := run_of_mem_tokenize ht
  have htext : t.text = c :: ((Munch.start c).run v).1 := by
    rw [hlexeme]
    rfl
  have hkind : t.kind = Lexeme.kind settings.quoted t.text := by
    rw [hlexeme]
    rfl
  have hstarts : t.text <+: c :: v := hrest ▸ starts_of_mem_tokenize ht
  have hregion (ρ : Region) (hρ : ρ.opening <+: t.text) :
      t.kind = ρ.kind settings.quoted (ρ.check t.text) ∧
        (ρ.Closes rest ∧ ¬ ρ.Open (endState rest) ∧ ρ.check t.text = true ∨
          ¬ ρ.Closes rest ∧ ρ.Open (endState rest) ∧ ρ.check t.text = false ∧
            text.drop (t.start + t.length) = []) := by
    refine ⟨hkind.trans (Region.kind_of_opening hρ), ?_⟩
    rw [hbehind, htext, show rest = c :: v from hrest]
    exact Region.closed_or_open (hρ.trans hstarts)
  have hunclosed (h : t.kind.isIncomplete = true) : ∃ ρ : Region, ρ.opening <+: t.text ∧
      ¬ ρ.Closes rest ∧ text.drop (t.start + t.length) = [] := by
    obtain ⟨ρ, hρ⟩ := Region.of_isIncomplete (hkind ▸ h)
    obtain ⟨hk, ⟨-, -, hcheck⟩ | ⟨hcloses, -, -, hend⟩⟩ := hregion ρ hρ
    · rw [hk, Region.isIncomplete_kind, hcheck] at h
      cases h
    · exact ⟨ρ, hρ, hcloses, hend⟩
  refine ⟨⟨fun h => ?_, ?_⟩, fun ρ hρ => ?_, fun h => ?_⟩
  · obtain ⟨ρ, hρ, hcloses, -⟩ := hunclosed h
    exact ⟨ρ, hρ, hcloses⟩
  · rintro ⟨ρ, hρ, hcloses⟩
    obtain ⟨hk, ⟨hcloses', -⟩ | ⟨-, -, hcheck, -⟩⟩ := hregion ρ hρ
    · exact absurd hcloses' hcloses
    · rw [hk, Region.isIncomplete_kind, hcheck]
      rfl
  · obtain ⟨hk, ⟨hcloses, hopen, hcheck⟩ | ⟨hcloses, hopen, hcheck, -⟩⟩ := hregion ρ hρ
    · simp [hcloses, hopen, hcheck, hk]
    · simp [hcloses, hopen, hcheck, hk]
  · obtain ⟨-, -, -, hend⟩ := hunclosed h
    refine ⟨?_, last_of_behind ht hend⟩
    have hrun := (Munch.start c).run_append v
    rw [← hbehind, hend, List.append_nil] at hrun
    rw [htext, hrun]
    exact hrest.symm

/-- The quote that is doubled closes nothing, and so the last one does. Both brackets at the end are
one that is doubled, and the text ends inside. -/
theorem incomplete_iff_unclosed_brackets :
    let text := "'it''s' [a]]".toList
    let brackets := Region.delimited .brackets
    tokenize {} text = [⟨.string, 0, "'it''s'".toList⟩, ⟨.incompleteIdentifier, 8, "[a]]".toList⟩] ∧
      (Region.delimited .string).Closes text ∧ ¬ brackets.Closes "[a]]".toList ∧
      brackets.Open (endState "[a]]".toList) ∧ brackets.check "[a]]".toList = false := by
  intro text brackets
  have htokens : tokenize {} text =
      [⟨.string, 0, "'it''s'".toList⟩, ⟨.incompleteIdentifier, 8, "[a]]".toList⟩] := by
    decide +kernel
  have hstring := incomplete_iff_unclosed {} text ⟨.string, 0, "'it''s'".toList⟩ (by simp [htokens])
  have hname := incomplete_iff_unclosed {} text ⟨.incompleteIdentifier, 8, "[a]]".toList⟩
    (by simp [htokens])
  obtain ⟨-, hcloses, -⟩ := hstring.2.1 (.delimited .string) (by decide)
  obtain ⟨hopen, hcheck, -⟩ := hname.2.1 brackets (by decide)
  have hunclosed : brackets.check "[a]]".toList = false := by decide
  have hbrackets : ¬ brackets.Closes "[a]]".toList := fun h => by
    cases (hcheck.mpr h).symm.trans hunclosed
  exact ⟨htokens, hcloses.mp (by decide), hbrackets, hopen.mpr hbrackets, hunclosed⟩

end SqlOutline
