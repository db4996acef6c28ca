import Mathlib.Data.List.TakeWhile
import SqlOutline.Proofs.Sign
import SqlOutline.Proofs.UpperCase

namespace SqlOutline
open Text Lexeme

/-- An operator is a word in whatever case, one sign, or two signs. -/
def OperatorText (s : List Char) : Prop :=
  (∃ w ∈ ["LIKE", "NOT", "IS", "IN"], upper s = w.toList) ∨
    (∃ c ∈ "=~-+*/<>!&|^%:".toList, s = [c]) ∨ ∃ w ∈ compoundOperators, s = w.toList

def endsLine (c : Char) : Bool :=
  c = '\r' || c = '\n'

/-- What a token is shows in its text, in the first characters of it or in all of them. `behind` is
the character that follows in the text. -/
structure Token.Fits (t : Token) (behind : Option Char) : Prop where
  operator : t.kind = .operator ↔ OperatorText t.text
  /-- Two signs that belong together are never split. -/
  whole : t.kind = .operator → ∀ c, t.text = [c] → ∀ d ∈ behind,
    ∀ w ∈ compoundOperators ++ commentMarks, [c, d] ≠ w.toList
  punctuation : (∃ p, t.kind = .punctuation p) ↔ ∃ c ∈ ",;().".toList, t.text = [c]
  lineComment : t.kind = .lineComment ↔ "--".toList <+: t.text
  line : t.kind = .lineComment →
    (∀ c ∈ t.text, endsLine c = false) ∧ ∀ c ∈ behind, endsLine c = true
  atSign : t.kind = .userVariable ∨ t.kind = .systemVariable ↔ t.text.head? = some '@'
  whitespace : t.kind = .whitespace ↔ t.text.head?.any isBlank = true
  gap : t.kind = .whitespace → (∀ c ∈ t.text, isBlank c = true) ∧ ∀ c ∈ behind, isBlank c = false

namespace Lexeme

variable {quoted : Bool} {c : Char} {s t v : List Char}

theorem kind_whitespace : kind quoted (c :: t) = .whitespace ↔ isBlank c = true := by
  have hquoted := quotedKind_ne (k := .whitespace) (by decide)
  have hword : ¬ wordKind quoted (c :: t) = .whitespace := wordKind_ne rfl (by decide)
  simp only [kind, ite_eq_iff, reduceCtorEq, hquoted, hword, and_false, or_false, and_true]

theorem at_of_kind {k : Kind} (hk : k = .userVariable ∨ k = .systemVariable)
    (h : kind quoted (c :: t) = k) : c = '@' := by
  have hquoted := quotedKind_ne (k := k) (by rcases hk with rfl | rfl <;> decide)
  have hword : ¬ wordKind quoted (c :: t) = k := by
    rcases hk with rfl | rfl <;> exact wordKind_ne rfl (by decide)
  rcases hk with rfl | rfl
  all_goals
    simp only [kind, ite_eq_iff, reduceCtorEq, hquoted, hword, and_false, or_false, false_or] at h
    exact h.2.1

theorem kind_variable :
    kind quoted (c :: t) = .userVariable ∨ kind quoted (c :: t) = .systemVariable ↔ c = '@' := by
  constructor
  · rintro (h | h)
    · exact at_of_kind (.inl rfl) h
    · exact at_of_kind (.inr rfl) h
  · rintro rfl
    have hblank : isBlank '@' = false := rfl
    cases hname : isSystemVariable ('@' :: t) <;> simp [kind, hblank, hname]

theorem kind_punctuation {p : Punctuation} : kind quoted s = .punctuation p ↔ s = [p.char] := by
  refine ⟨eq_char_of_kind, ?_⟩
  rintro rfl
  cases quoted <;> cases p <;> decide

theorem exists_kind_punctuation :
    (∃ p, kind quoted s = .punctuation p) ↔ ∃ c ∈ ",;().".toList, s = [c] := by
  simp only [kind_punctuation]
  constructor
  · rintro ⟨p, rfl⟩
    exact ⟨p.char, by cases p <;> decide, rfl⟩
  · rintro ⟨c, hc, rfl⟩
    simp only [String.reduceToList, List.mem_cons, List.not_mem_nil, or_false] at hc
    rcases hc with rfl | rfl | rfl | rfl | rfl
    exacts [⟨.comma, rfl⟩, ⟨.semicolon, rfl⟩, ⟨.openParen, rfl⟩, ⟨.closeParen, rfl⟩, ⟨.period, rfl⟩]

theorem kind_of_operatorText (h : OperatorText s) : kind quoted s = .operator := by
  rcases h with ⟨w, hw, hs⟩ | ⟨c, hc, rfl⟩ | ⟨w, hw, rfl⟩
  · have hwords : ∀ w ∈ ["LIKE", "NOT", "IS", "IN"], "N'".toList.isPrefixOf w.toList = false ∧
        ∀ quoted, kind quoted w.toList = .operator := by
      decide +kernel
    obtain ⟨hstring, hkind⟩ := hwords w hw
    rw [← kind_upper quoted (hs ▸ hstring), hs, hkind]
  · exact (kind_sign hc).mpr (by simp [commentMarks])
  · have hsigns : ∀ w ∈ compoundOperators, ∃ c ∈ operatorSigns, ∃ t, w.toList = c :: t ∧
        ∀ v ∈ commentMarks, ¬ v.toList <+: w.toList := by
      simp [compoundOperators, commentMarks, operatorSigns]
    obtain ⟨c, hc, t, ht, hmarks⟩ := hsigns w hw
    rw [ht] at hmarks ⊢
    exact (kind_sign hc).mpr hmarks

theorem operatorText_of_kind (h : kind quoted (c :: ((Munch.start c).run v).1) = .operator) :
    OperatorText (c :: ((Munch.start c).run v).1) := by
  rcases run_of_operator h with hword | hcompound | ⟨hsign, hrun, -⟩
  · exact .inl hword
  · exact .inr (.inr hcompound)
  · rw [hrun]
    exact .inr (.inl ⟨c, hsign, rfl⟩)

theorem whole_of_kind (h : kind quoted (c :: ((Munch.start c).run v).1) = .operator)
    (halone : ((Munch.start c).run v).1 = []) :
    ∀ d ∈ ((Munch.start c).run v).2.head?,
      ∀ w ∈ compoundOperators ++ commentMarks, [c, d] ≠ w.toList := by
  have hlong : ∀ w ∈ operatorWords ++ compoundOperators, w.toList.length ≠ 1 := by
    decide
  rcases run_of_operator h with ⟨w, hw, hupper⟩ | ⟨w, hw, htext⟩ | ⟨-, hrun, hbehind⟩
  · rw [halone] at hupper
    exact absurd (congrArg List.length hupper).symm (hlong w (List.mem_append_left _ hw))
  · rw [halone] at htext
    exact absurd (congrArg List.length htext).symm (hlong w (List.mem_append_right _ hw))
  · rwa [hrun]

/-- A state that lasts while a test holds ends in front of the first character that fails it. -/
theorem Munch.forall_run_while {m : Munch} {p : Char → Bool}
    (h : ∀ c, m.next c = if p c then some m else none) (t : List Char) :
    (∀ d ∈ (m.run t).1, p d = true) ∧ ∀ d ∈ (m.run t).2.head?, p d = false := by
  rw [run_while h]
  refine ⟨fun d hd => List.mem_takeWhile_imp hd, fun d hd => ?_⟩
  have hfirst := List.head?_dropWhile_not p t
  rwa [Option.mem_def.mp hd] at hfirst

theorem gap_of_kind (h : kind quoted (c :: ((Munch.start c).run v).1) = .whitespace) :
    (∀ d ∈ c :: ((Munch.start c).run v).1, isBlank d = true) ∧
      ∀ d ∈ ((Munch.start c).run v).2.head?, isBlank d = false := by
  have hblank := kind_whitespace.mp h
  have hstart : Munch.start c = .blank := if_pos hblank
  obtain ⟨hrun, hbehind⟩ := Munch.forall_run_while (m := .blank) (fun _ => rfl) v
  rw [hstart]
  exact ⟨List.forall_mem_cons.mpr ⟨hblank, hrun⟩, hbehind⟩

theorem line_of_kind (h : kind quoted (c :: ((Munch.start c).run v).1) = .lineComment) :
    (∀ d ∈ c :: ((Munch.start c).run v).1, endsLine d = false) ∧
      ∀ d ∈ ((Munch.start c).run v).2.head?, endsLine d = true := by
  -- The second dash stands in the text, as it stands in the lexeme.
  obtain ⟨u, rfl, rfl⟩ : ∃ u, c = '-' ∧ v = '-' :: u := by
    have hmark : ['-', '-'] <+: c :: ((Munch.start c).run v).1 := kind_lineComment.mp h
    obtain ⟨rfl, u, hu⟩ := List.cons_prefix_cons.mp hmark
    refine ⟨u ++ ((Munch.start '-').run v).2, rfl, ?_⟩
    rw [← List.cons_append, ← List.singleton_append, hu, Munch.run_append]
  obtain ⟨hrun, hbehind⟩ := Munch.forall_run_while (m := .lineComment)
    (p := fun d => !endsLine d) (fun d => by grind [Munch.next, endsLine]) u
  have hdash : (Munch.start '-').run ('-' :: u) =
      ('-' :: (Munch.lineComment.run u).1, (Munch.lineComment.run u).2) := rfl
  rw [hdash]
  refine ⟨?_, by simpa using hbehind⟩
  simpa [endsLine] using hrun

end Lexeme

/-- Every token is of the kind that its text shows. -/
theorem tokens_fit (settings : Settings) (text : List Char) :
    ∀ t ∈ tokenize settings text, t.Fits (text.drop (t.start + t.length)).head? := by
  intro t ht
  obtain ⟨c, v, -, hlexeme, hbehind⟩ := run_of_mem_tokenize ht
  rw [hbehind, hlexeme, Token.ofLexeme]
  constructor
  all_goals dsimp only
  case operator => exact ⟨operatorText_of_kind, kind_of_operatorText⟩
  case whole =>
    intro h d halone
    obtain ⟨rfl, hnil⟩ := List.cons.inj halone
    exact whole_of_kind h hnil
  case punctuation => exact exists_kind_punctuation
  case lineComment => exact kind_lineComment
  case line => exact line_of_kind
  case atSign => simpa using kind_variable
  case whitespace => simpa using kind_whitespace
  case gap => exact gap_of_kind

/-- The second sign makes nothing with the first, and the third and fourth open a comment. -/
theorem tokens_fit_signs :
    let text := "2=-1--b\r@c".toList
    tokenize {} text = [⟨.number, 0, ['2']⟩, ⟨.operator, 1, ['=']⟩, ⟨.operator, 2, ['-']⟩,
        ⟨.number, 3, ['1']⟩, ⟨.lineComment, 4, "--b".toList⟩, ⟨.userVariable, 8, "@c".toList⟩] ∧
      OperatorText ['='] ∧
      (∀ w ∈ compoundOperators ++ commentMarks, ['=', '-'] ≠ w.toList) ∧
      "--".toList <+: "--b".toList ∧ (∀ c ∈ "--b".toList, endsLine c = false) ∧
      endsLine '\r' = true := by
  intro text
  have htokens : tokenize {} text = [⟨.number, 0, ['2']⟩, ⟨.operator, 1, ['=']⟩,
      ⟨.operator, 2, ['-']⟩, ⟨.number, 3, ['1']⟩, ⟨.lineComment, 4, "--b".toList⟩,
      ⟨.userVariable, 8, "@c".toList⟩] := by
    decide +kernel
  have hfits := tokens_fit {} text
  rw [htokens] at hfits
  have hequals := hfits ⟨.operator, 1, ['=']⟩ (by simp)
  have hcomment := hfits ⟨.lineComment, 4, "--b".toList⟩ (by simp)
  obtain ⟨hline, hend⟩ := hcomment.line rfl
  exact ⟨htokens, hequals.operator.mp rfl, hequals.whole rfl '=' rfl '-' rfl,
    hcomment.lineComment.mp rfl, hline, hend '\r' rfl⟩

end SqlOutline
