import SqlOutline.Proofs.Closed
import SqlOutline.Proofs.LineBreak
import SqlOutline.Proofs.OutlineCoupling
import SqlOutline.Proofs.SelfContained

namespace SqlOutline
open Parse

/-- The statement as it is where the text starts `n` characters earlier. -/
def Statement.later (n : Nat) (st : Statement) : Statement :=
  st.map (.map (.later n))

/-- The fault as it is where the text starts `n` characters earlier. -/
def Fault.later (n : Nat) : Fault → Fault
  | .unexpectedToken expected found p => .unexpectedToken expected found (p + n)
  | .unexpectedEnd expected => .unexpectedEnd expected
  | .unrecognized found p => .unrecognized found (p + n)
  | .tooDeep limit p => .tooDeep limit (p + n)

theorem Want.fault_later (want : Want) {t : Option Token}
    (h : t = none → ∃ expected, want = .token expected) (n : Nat) :
    want.fault (t.map (Token.later n)) = (want.fault t).later n := by
  cases t with
  | none =>
    obtain ⟨expected, rfl⟩ := h rfl
    rfl
  | some t => cases want <;> rfl

namespace Ahead

theorem Ended.settled {x : Ahead} (h : x.Ended) : x.Settled := fun t ht =>
  Token.isTrivia_of_isPunctuation (h t ht)

end Ahead

/-- Two streams of which the second goes on with `x` where the first ends. -/
def Coupling.before {x : Ahead} (hx : x.Ended) : Coupling where
  __ := Coupling.grow x
  rel _ s s' := s' = s ++ x
  live _ := True
  live_of_suffix _ _ := trivial
  rel_succ h := h
  gap := by
    rintro - s - rfl -
    obtain ⟨htake, hdrop⟩ := Ahead.trivia_before (s := s) fun _ => hx.settled
    exact ⟨htake, hdrop⟩
  beside := by
    rintro - s - rfl - - -
    cases s with
    | nil => exact .ended .nil hx
    | cons t s => exact .token rfl rfl rfl fun _ _ _ => rfl

theorem Coupling.Clauses.eq {x : Ahead} {hx : x.Ended} ⦃c d : Clause⦄
    (h : (Coupling.before hx).Clauses c d) : d = id c := by
  obtain ⟨kind, lead, body⟩ := d
  obtain ⟨hkind, hlead, hbody⟩ := h
  obtain rfl : kind = c.kind := hkind
  obtain rfl : body = c.body := hbody
  obtain rfl : lead = c.lead := List.cons.inj hlead |>.1
  rfl

/-- A semicolon ends a statement wherever the end of the tokens does. -/
theorem Statement.gives_before {depth : Nat} {s r x : Ahead} {st : Statement} (hx : x.Ended)
    (h : (read depth).Gives s st r) (hs : s.Settled) (hne : s ≠ []) :
    (read depth).Gives (s ++ x) st (r ++ x) := by
  have met : (Coupling.before hx).Met (depth + 1) s (s ++ x) := by
    refine ⟨rfl, hs, fun t ht => hs t ?_⟩
    rwa [List.head?_append_of_ne_nil _ hne] at ht
  have runs := Coupling.runs_readStatement (J := .before hx) (m := depth) fun _ _ _ => Nat.le_refl _
  obtain ⟨st', r', hread, alike, ⟨rfl, -, -⟩⟩ := runs met h trivial
  rwa [alike.eq_map Coupling.Clauses.eq, Statement.map_id] at hread

namespace Outline

variable {depth : Nat} {s s' x : Ahead}

/-- Noise in front makes no difference. -/
theorem result_congr (h : s'.dropNoise = s.dropNoise) :
    (ofAhead depth s').result = (ofAhead depth s).result := by
  by_cases hs : s.dropNoise = []
  · rw [result_done hs, result_done (h.trans hs)]
  · rcases gives_or_fails (Statement.read depth) s.dropNoise with ⟨st, hst⟩ | ⟨e, he⟩
    · generalize ((Statement.read depth).run s.dropNoise).ahead = r at hst
      rw [result_step hst, result_step (h.symm ▸ hst)]
    · rw [result_fault hs he, result_fault (h.symm ▸ hs) (h.symm ▸ he)]

/-- What follows a semicolon is read as if nothing stood before. -/
theorem Splits.result_append {noise : List Token} {sts : List Statement} {gaps : List (List Token)}
    (h : Splits depth s noise sts gaps) (hx : x.Ended) :
    (ofAhead depth (s ++ x)).result = (ofAhead depth x).result.map (sts ++ ·) := by
  induction h with
  | @done s hs =>
    have hdrop : Ahead.dropNoise (s ++ x) = x.dropNoise := by
      rw [Ahead.dropNoise, List.dropWhile_append, show s.dropWhile Ahead.isNoise = [] from hs]
      rfl
    rw [result_congr hdrop]
    cases (ofAhead depth x).result <;> rfl
  | @step s r noise st sts gaps first _ ih =>
    have hne : s.dropNoise ≠ [] := by
      intro he
      have hlt := first.length_lt (Progresses.readStatement depth)
      rw [he] at hlt
      exact absurd hlt (Nat.not_lt_zero _)
    have hdrop := Ahead.dropNoise_append hne x
    have hsettled : s.dropNoise.Settled := fun t ht =>
      (Bool.or_eq_false_iff.mp (s.not_noise_of_dropNoise t ht)).1
    have hfirst := Statement.gives_before hx first hsettled hne
    rw [← hdrop] at hfirst
    rw [result_step hfirst, ih]
    cases (ofAhead depth x).result <;> rfl

end Outline

theorem Coupling.cut_faithful {f : Token → Token} (hf : ∀ t, (f t).kind = t.kind) :
    (Coupling.cut hf []).Faithful := by
  rintro n s s' ⟨⟨w, rfl, rfl⟩, -, -⟩ -
  cases w with
  | nil => exact .inl ⟨rfl, rfl⟩
  | cons t w => exact .inr ⟨t, f t, w ++ [], w.map f, rfl, rfl, hf t, rfl, w, rfl, rfl⟩

/-- Where the tokens stand in the text makes no difference but to the places in the answer. -/
theorem Outline.result_later (depth n : Nat) (s : Ahead) :
    (ofAhead depth (s.map (Token.later n))).result =
      match (ofAhead depth s).result with
      | .ok sts => .ok (sts.map (.later n))
      | .error e => .error (e.later n) := by
  have hf : ∀ t, (Token.later n t).kind = t.kind := fun _ => rfl
  have hJ := Coupling.cut_faithful hf
  have rel : (Coupling.cut hf []).rel (depth + 1) s (s.map (Token.later n)) :=
    ⟨s, (List.append_nil s).symm, rfl⟩
  rcases hJ.result (fun _ => List.nil_suffix) rel with
    ⟨sts, sts', h, h', hsts⟩ | ⟨want, r, r', h, h', ⟨⟨w, rfl, rfl⟩, -, -⟩, hend⟩
  · rw [h, h', eq_map_of_forall₂ (fun _ _ h => h.eq_map (Coupling.Clauses.eq_map hf)) hsts]
    rfl
  · rw [List.append_nil] at h hend
    rw [h, h', List.head?_map]
    exact congrArg _ (want.fault_later (fun h => hend (List.head?_eq_none_iff.mp h)) n)

/-- A semicolon on a new line leaves the tokens before it as they are, and those behind it are as on
their own. -/
theorem tokenize_batch {settings : Settings} {text : List Char} (hb : settings.blanks = false)
    (h : LexicallyClosed (tokenize settings text)) (more : List Char) :
    tokenize settings (text ++ '\n' :: ';' :: more) =
      tokenize settings text ++ ⟨.punctuation .semicolon, text.length + 1, [';']⟩ ::
        (tokenize settings more).map (.later (text.length + 2)) := by
  have hrun : (Lexeme.Munch.start ';').run ([] ++ more) = ([], more) := by cases more <;> rfl
  have hkind : Lexeme.kind settings.quoted [';'] = .punctuation .semicolon := by
    cases settings.quoted <;> decide
  have htokens := tokenize_newLine hb h (c := ';') (by decide) hrun
  rwa [Token.ofLexeme, hkind] at htokens

/-- The statements of a batch stand for themselves. Where one text is closed and has statements only,
with a semicolon on a new line behind it, any other text can follow and comes to what it comes to on
its own, each place in it as much later as it stands. Parentheses, CASE blocks and subqueries that the
first text has left open end at the semicolon. -/
theorem batch_independent (settings : Settings) (text more : List Char) (sts : List Statement)
    (hb : settings.blanks = false) (hclosed : LexicallyClosed (tokenize settings text))
    (h : (Outline.ofText settings text).result = .ok sts) :
    (Outline.ofText settings (text ++ '\n' :: ';' :: more)).result =
      match (Outline.ofText settings more).result with
      | .ok sts' => .ok (sts ++ sts'.map (.later (text.length + 2)))
      | .error e => .error (e.later (text.length + 2)) := by
  obtain ⟨noise, gaps, hs⟩ := Outline.result_eq_ok_iff.mp h
  have hended : Ahead.Ended (⟨.punctuation .semicolon, text.length + 1, [';']⟩ ::
      (tokenize settings more).map (.later (text.length + 2))) := by
    intro t ht
    cases ht
    rfl
  rw [Outline.ofText, tokenize_batch hb hclosed more, hs.result_append hended]
  have hnoise : Ahead.dropNoise (⟨.punctuation .semicolon, text.length + 1, [';']⟩ ::
      (tokenize settings more).map (.later (text.length + 2))) =
        Ahead.dropNoise ((tokenize settings more).map (.later (text.length + 2))) :=
    List.dropWhile_cons_of_pos rfl
  rw [Outline.result_congr hnoise, Outline.result_later, Outline.ofText]
  cases (Outline.ofAhead settings.depth (tokenize settings more)).result <;> rfl

/-- The parenthesis that the first text leaves open is not closed by that of the second. -/
theorem batch_independent_openParenthesis :
    let text := "SELECT (a".toList
    let o := Outline.ofText {} text
    LexicallyClosed (tokenize {} text) ∧ o.result = .ok o.statements ∧
      (Outline.ofText {} (text ++ '\n' :: ';' :: [')'])).result =
        .error (.unrecognized [')'] 11) := by
  intro text o
  have htokens : tokenize {} text = [⟨.keyword .select, 0, "SELECT".toList⟩,
      ⟨.punctuation .openParen, 7, ['(']⟩, ⟨.identifier, 8, ['a']⟩] := by
    decide +kernel
  have hclosed : LexicallyClosed (tokenize {} text) := by
    rw [htokens]
    decide
  have hfault : o.fault = none := by
    change (Outline.ofText {} text).fault = none
    rw [Outline.ofText, htokens]
    decide +kernel
  have hresult : o.result = .ok o.statements := by
    rw [Outline.result, hfault]
  have hmore : (Outline.ofText {} [')']).fault = some (.unrecognized [')'] 0) := by
    decide +kernel
  have hbatch := batch_independent {} text [')'] o.statements rfl hclosed hresult
  rw [Outline.result.eq_def (Outline.ofText {} [')']), hmore] at hbatch
  exact ⟨hclosed, hresult, hbatch⟩

end SqlOutline
