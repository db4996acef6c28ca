import SqlOutline.Command.Answer
import SqlOutline.Proofs.PredicateSplit
import SqlOutline.Proofs.Rendering
import SqlOutline.Proofs.TokenKind

namespace SqlOutline

theorem endsLine_iff {c : Char} : endsLine c = true ↔ c = '\n' ∨ c = '\r' := by
  simp [endsLine, or_comm]

namespace Lexeme

variable {m m' : Munch} {s t : List Char} {c d : Char}

namespace Munch

/-- Which of two signs is the first is only asked at the start. -/
theorem next_ne_oneOf (m : Munch) (c : Char) (signs : List Char) :
    m.next c ≠ some (.oneOf signs) := by
  cases m <;> grind [next, afterWord, afterDigits, afterAmount, afterBinary]

theorem after_oneOf {signs : List Char} (h : m.after t = some (.oneOf signs)) :
    m = .oneOf signs := by
  rcases List.eq_nil_or_concat t with rfl | ⟨front, d, rfl⟩
  · exact Option.some.inj h
  · rw [List.concat_eq_append, after_append] at h
    obtain ⟨m₁, -, hd⟩ := Option.bind_eq_some_iff.mp h
    obtain ⟨m₂, hnext, hm₂⟩ := Option.bind_eq_some_iff.mp hd
    cases hm₂
    exact absurd hnext (next_ne_oneOf m₁ d signs)

theorem endsLine_of_oneOf {signs : List Char} (h : start c = .oneOf signs) :
    ∀ d ∈ signs, endsLine d = false := by
  unfold start at h
  split at h
  · cases h
  split at h
  · split at h <;> cases h
  split at h
  case h_25 => split at h <;> cases h
  all_goals
    cases h <;> simp [endsLine]

end Munch

/-- What a text can start with that goes on over a line break: a blank, the mark of a comment, what
opens a text between delimiters, or the start of a binary literal. -/
def SpansLines (s : List Char) : Prop :=
  s.head?.any Text.isBlank = true ∨ ['/', '*'] <+: s ∨ (∃ closer, Opens closer s) ∨ OpensBinary s

theorem SpansLines.append (h : SpansLines s) (t : List Char) : SpansLines (s ++ t) := by
  rcases h with h | h | ⟨closer, h⟩ | h
  · cases s with
    | nil => cases h
    | cons c s => exact .inl h
  · exact .inr (.inl (h.trans (List.prefix_append s t)))
  · exact .inr (.inr (.inl ⟨closer, h.append t⟩))
  · exact .inr (.inr (.inr (h.append t)))

/-- A line break belongs to a lexeme only where that has started as one that it may stand in. -/
theorem Munch.Shape.spansLines (hs : m.Shape s) (h : m.next c = some m') (hc : endsLine c = true)
    (hsigns : ∀ signs, m ≠ .oneOf signs) : SpansLines s := by
  cases m with
  | oneOf signs => exact absurd rfl (hsigns signs)
  | blank =>
    obtain ⟨d, t, rfl, hd⟩ := hs
    exact .inl hd
  | blockComment =>
    obtain ⟨body, rfl, -⟩ := hs
    exact .inr (.inl (List.prefix_append _ _))
  | quoted closer => exact .inr (.inr (.inl ⟨closer, hs.1⟩))
  | quoteEnd closer => exact .inr (.inr (.inl ⟨closer, hs.1⟩))
  | binary => exact .inr (.inr (.inr hs))
  | binaryBackslash => exact .inr (.inr (.inr hs.1))
  | binaryReturn => exact .inr (.inr (.inr hs.1))
  | _ =>
    rcases endsLine_iff.mp hc with rfl | rfl <;> cases h

theorem spansLines_of_after (h : (Munch.start c).after t = some m') (hd : d ∈ c :: t)
    (hbreak : endsLine d = true) : SpansLines (c :: t) := by
  rcases List.mem_cons.mp hd with rfl | hd
  · have hblank : Text.isBlank d = true := by
      rcases endsLine_iff.mp hbreak with rfl | rfl <;> rfl
    exact .inl hblank
  · obtain ⟨front, back, rfl⟩ := List.append_of_mem hd
    rw [Munch.after_append] at h
    obtain ⟨m, hfront, hback⟩ := Option.bind_eq_some_iff.mp h
    obtain ⟨m₁, hnext, -⟩ := Option.bind_eq_some_iff.mp hback
    have hsigns : ∀ signs, m ≠ .oneOf signs := by
      rintro signs rfl
      have hstart := Munch.endsLine_of_oneOf (Munch.after_oneOf hfront)
      simp only [Munch.next] at hnext
      split at hnext
      next hmem =>
        rw [hstart d (by simpa using hmem)] at hbreak
        cases hbreak
      next => cases hnext
    have hshape := (Munch.shape_start c).after hfront
    exact (hshape.spansLines hnext hbreak hsigns).append (d :: back)

end Lexeme

open Lexeme Text

/-- Of the tokens that mean something only those between delimiters go on over a line break, and the
binary literals. -/
theorem Token.delimited_of_endsLine {settings : Settings} {text : List Char} {t : Token} {d : Char}
    (ht : t ∈ tokenize settings text) (trivia : t.isTrivia = false) (hd : d ∈ t.text)
    (hbreak : endsLine d = true) : (∃ closer, Opens closer t.text) ∨ OpensBinary t.text := by
  obtain ⟨p, c, w, m, rfl, hm⟩ := lexeme_of_mem_tokensAt ht
  rw [isTrivia, ofLexeme] at trivia
  rcases spansLines_of_after hm hd hbreak with h | h | h
  · rw [kind_whitespace.mpr (by simpa using h)] at trivia
    cases trivia
  · obtain ⟨body, hbody⟩ := h
    have hbody : c :: w = '/' :: '*' :: body := hbody.symm
    rw [hbody, kind_of_comment] at trivia
    split at trivia <;> cases trivia
  · exact h

theorem count_intercalate {d : Char} (hd : d ≠ ' ') (ws : List (List Char)) :
    ([' '].intercalate ws).count d = (ws.map (·.count d)).sum := by
  induction ws with
  | nil => rfl
  | cons w ws ih =>
    cases ws with
    | nil => simp
    | cons v ws =>
      rw [List.intercalate_cons_cons, List.count_append, List.count_append, ih, List.map_cons,
        List.sum_cons, List.count_singleton]
      simp [hd.symm]

namespace Predicate

variable {d : Char}

/-- What stands around the parts of a predicate is one line. -/
theorem count_line (hd : endsLine d = true) (p : Predicate) :
    p.line.count d = p.field.count d + p.operator.count d + p.value.count d := by
  have hbreak := endsLine_iff.mp hd
  have hjoint : Visible (p.connective.elim [] (·.keyword.spelling.toList)) := by
    cases p.connective with
    | none => decide
    | some c => cases c <;> decide
  have hindent : ("  ".toList).count d = 0 := by rcases hbreak with rfl | rfl <;> rfl
  have hbar : (" | ".toList).count d = 0 := by rcases hbreak with rfl | rfl <;> rfl
  have hspace : ' ' ≠ d := by rcases hbreak with rfl | rfl <;> decide
  have hcolumn := (unbroken_flushLeft (w := 4) hjoint.unbroken).count hbreak
  simp only [line, List.count_append, List.count_cons_of_ne hspace, hindent, hbar, hcolumn]
  omega

/-- Each token of a segment brings its own line breaks. -/
theorem count_line_ofSegment (hd : endsLine d = true) (joint : Option Connective)
    (ts : List Token) :
    (ofSegment joint ts).line.count d = (ts.map (·.text.count d)).sum := by
  have hspace : d ≠ ' ' := by
    rintro rfl
    cases hd
  have hparts := ((Token.perm_parts ts).map (·.text.count d)).sum_eq
  simp only [List.map_append, List.sum_append] at hparts
  rw [count_line hd, ofSegment, count_intercalate hspace, count_intercalate hspace,
    count_intercalate hspace, List.map_map, List.map_map, List.map_map]
  exact hparts

end Predicate

/-- The line breaks in the lines of a clause's predicates, all of which its tokens bring. -/
structure Clause.Lined (c : Clause) : Prop where
  empty : c.content = [] → c.predicates = []
  breaks : c.content ≠ [] → ∀ d, endsLine d = true →
    c.predicates.map (·.line.count d) = c.segments.map fun ts => (ts.map (·.text.count d)).sum
  delimited : ∀ t ∈ c.content, ∀ d ∈ t.text, endsLine d = true →
    (∃ closer, Opens closer t.text) ∨ OpensBinary t.text

theorem Clause.lined_of_mem {settings : Settings} {text : List Char} {c : Clause}
    (h : c.tokens ⊆ tokenize settings text) : c.Lined := by
  have hpartitioned := partitioned_of_mem h
  refine ⟨hpartitioned.empty, fun hne d hd => ?_, fun t ht d hd hbreak => ?_⟩
  · have hlength : c.segments.length ≤ (none :: c.joints.map Token.connective?).length := by
      simp [c.length_segments]
    rw [hpartitioned.predicates hne, ← List.map_uncurry_zip_eq_zipWith, List.map_map]
    conv_rhs => rw [← List.map_snd_zip hlength, List.map_map]
    exact List.map_congr_left fun ⟨joint, ts⟩ _ => Predicate.count_line_ofSegment hd joint ts
  · have htrivia : t.isTrivia = false := by
      have hmem := List.mem_of_mem_drop ht
      simpa [significant] using (List.mem_filter.mp hmem).2
    exact Token.delimited_of_endsLine (h (c.content_subset ht)) htrivia hd hbreak

namespace Invocation

theorem count_conditionLines (found : Nat × List Predicate) :
    (lineOutput (conditionLines found)).count '\n' =
      1 + found.2.length + (found.2.map (·.line.count '\n')).sum := by
  have hnumber : ('#' :: decimal found.1).count '\n' = 0 := by
    refine Unbroken.count ?_ (.inl rfl)
    exact unbroken_cons.mpr ⟨by decide, (visible_decimal found.1).unbroken⟩
  rw [lineOutput, count_lines, conditionLines, List.map_cons, List.sum_cons, hnumber,
    List.length_cons, List.length_map, List.map_map]
  simp only [Function.comp_def]
  omega

theorem count_answerPredicates {i : Invocation} (lines : i.json = false)
    (statements : List Statement) :
    (i.answerPredicates statements).stdout.count '\n' = ((conditions statements).map fun found =>
      1 + found.2.length + (found.2.map (·.line.count '\n')).sum).sum := by
  have hlines : lineOutput ((conditions statements).flatMap conditionLines) =
      (conditions statements).flatMap fun found => lineOutput (conditionLines found) :=
    List.flatMap_assoc
  simp only [answerPredicates, lines, Bool.false_eq_true, if_false]
  rw [hlines, List.count_flatMap]
  exact congrArg List.sum (List.map_congr_left fun found _ => count_conditionLines found)

theorem stdout_answerText {i : Invocation} {text : List Char} {statements : List Statement}
    (hquestion : i.question = .predicates)
    (h : (Outline.ofText i.settings text).result = .ok statements) :
    (i.answerText text).stdout = (i.answerPredicates statements).stdout := by
  rw [answerText, hquestion]
  simp only [answerOutline, h]

end Invocation

/-- A predicate is a line of its own, and its tokens break the line as often as they hold a line
break. Only a text between delimiters can hold one, or a binary literal. The answer has a line for
each statement found and one for each of its predicates, and what its predicates hold besides. -/
theorem predicate_lines (settings : Settings) (text : List Char) (statements : List Statement)
    (h : (Outline.ofText settings text).result = .ok statements) :
    (∀ st ∈ statements, ∀ c ∈ st.clauses, c.Lined) ∧
    ∀ i : Invocation, i.settings = settings → i.question = .predicates → i.json = false →
      (i.answerText text).stdout.count '\n' =
        ((Invocation.conditions statements).map fun found =>
          1 + found.2.length + (found.2.map (·.line.count '\n')).sum).sum := by
  constructor
  · have hstatements : (Outline.ofText settings text).statements = statements := by
      unfold Outline.result at h
      split at h
      · cases h
      · exact Except.ok.inj h
    rw [← hstatements]
    exact fun st hst c hc => Clause.lined_of_mem (Outline.tokens_subset hst hc)
  · rintro i rfl hquestion lines
    rw [Invocation.stdout_answerText hquestion h]
    exact Invocation.count_answerPredicates lines statements

/-- A query that asks for a name over two lines. -/
theorem outline_of_brackets :
    ∃ st, (Outline.ofText {} "SELECT x FROM t WHERE [a\nb] = 1".toList).result = .ok [st] ∧
      (∃ c ∈ st.clauses, c.content = [⟨.identifier, 22, "[a\nb]".toList⟩, ⟨.operator, 28, ['=']⟩,
        ⟨.number, 30, ['1']⟩]) ∧
      Invocation.conditions [st] = [(1, [⟨none, "[a\nb]".toList, ['='], ['1']⟩])] := by
  have hread : (Outline.ofText {} "SELECT x FROM t WHERE [a\nb] = 1".toList).result.toOption.map
      (fun sts => (sts.map (·.clauses.map Clause.content), Invocation.conditions sts)) =
        some ([[[⟨.identifier, 7, ['x']⟩], [⟨.identifier, 14, ['t']⟩],
          [⟨.identifier, 22, "[a\nb]".toList⟩, ⟨.operator, 28, ['=']⟩, ⟨.number, 30, ['1']⟩]]],
          [(1, [⟨none, "[a\nb]".toList, ['='], ['1']⟩])]) := by
    decide +kernel
  obtain ⟨sts, hresult, hsts⟩ := Option.map_eq_some_iff.mp hread
  obtain ⟨hclauses, hconditions⟩ := Prod.mk.inj hsts
  obtain ⟨st, rfl, hst⟩ := List.map_eq_singleton_iff.mp hclauses
  refine ⟨st, ?_, ?_, hconditions⟩
  · generalize (Outline.ofText {} _).result = result at hresult
    cases result with
    | error e => cases hresult
    | ok sts => exact congrArg Except.ok (Option.some.inj hresult)
  · refine List.mem_map.mp ?_
    rw [hst]
    exact List.mem_of_getElem? (i := 2) rfl

/-- The name holds a line break, and so the one predicate takes two lines. -/
theorem predicate_lines_brackets :
    let text := "SELECT x FROM t WHERE [a\nb] = 1".toList
    let i : Invocation := ⟨false, false, false, .predicates, false, "-"⟩
    ∃ st, (Outline.ofText {} text).result = .ok [st] ∧
      (∃ c ∈ st.clauses, c.predicates.map (·.line.count '\n') = [1]) ∧
      (i.answerText text).stdout.count '\n' = 3 := by
  intro text i
  obtain ⟨st, hresult, ⟨c, hc, hcontent⟩, hconditions⟩ := outline_of_brackets
  obtain ⟨hlined, hlines⟩ := predicate_lines {} text [st] hresult
  have hbreaks := (hlined st List.mem_cons_self c hc).breaks (by simp [hcontent]) '\n' rfl
  rw [Clause.segments, hcontent] at hbreaks
  have hstdout := hlines i rfl rfl rfl
  rw [hconditions] at hstdout
  exact ⟨st, hresult, ⟨c, hc, hbreaks.trans (by decide)⟩, hstdout.trans (by decide)⟩

/-- The line of this predicate is two, and the answer is a line longer for it. -/
theorem brackets_break_line :
    let text := "SELECT x FROM t WHERE [a\nb] = 1".toList
    let i : Invocation := ⟨false, false, false, .predicates, false, "-"⟩
    ∃ st, (Outline.ofText {} text).result = .ok [st] ∧
      (∃ c ∈ st.clauses, ∃ p ∈ c.predicates, '\n' ∈ p.line) ∧
      (i.answerText text).stdout = "#1\n       [a\nb] | = | 1\n".toList := by
  intro text i
  obtain ⟨st, hresult, ⟨c, hc, hcontent⟩, hconditions⟩ := outline_of_brackets
  refine ⟨st, hresult, ⟨c, hc, ⟨none, "[a\nb]".toList, ['='], ['1']⟩, ?_, by decide⟩, ?_⟩
  · rw [Clause.predicates, ← Clause.content, hcontent]
    decide
  · have hstdout := Invocation.stdout_answerText (i := i) rfl hresult
    rw [Invocation.answerPredicates, hconditions] at hstdout
    exact hstdout.trans (by decide)

end SqlOutline
