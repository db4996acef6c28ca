import Mathlib.Data.List.TakeWhile
import SqlOutline.Proofs.Closed
import SqlOutline.Proofs.LineBreak
import SqlOutline.Proofs.Significant

namespace SqlOutline

/-- Whatever stands where the first stream has only trivia left, the second goes on with. -/
def Ahead.Continued (s s' : Ahead) : Prop :=
  ∃ w gap x, s = w ++ gap ∧ s' = w ++ x ∧ ∀ t ∈ gap, t.isTrivia = true

/-- A significant token is left. -/
def Ahead.Live (s : Ahead) : Prop :=
  s.dropWhile Token.isTrivia ≠ []

namespace Ahead

variable {s s' r : Ahead}

theorem Live.of_suffix (h : r <:+ s) (hr : r.Live) : s.Live := by
  obtain ⟨u, rfl⟩ := h
  intro hs
  refine hr (List.dropWhile_eq_nil_iff.mpr fun t ht => ?_)
  exact List.dropWhile_eq_nil_iff.mp hs t (List.mem_append_right u ht)

theorem Settled.live (h : s.Settled) (hs : s ≠ []) : s.Live := by
  rwa [Live, h.trivia.2]

theorem Live.append_left {w gap : Ahead} (h : Live (w ++ gap)) (hgap : ∀ t ∈ gap, t.isTrivia = true) :
    w.Live := by
  intro hw
  refine h (List.dropWhile_eq_nil_iff.mpr fun t ht => ?_)
  rcases List.mem_append.mp ht with ht | ht
  · exact List.dropWhile_eq_nil_iff.mp hw t ht
  · exact hgap t ht

theorem Live.ne_nil (h : s.Live) : s ≠ [] := by
  rintro rfl
  exact h rfl

theorem Continued.trivia (h : Continued s s') (live : Live (s.dropWhile Token.isTrivia)) :
    s'.takeWhile Token.isTrivia = s.takeWhile Token.isTrivia ∧
      Continued (s.dropWhile Token.isTrivia) (s'.dropWhile Token.isTrivia) := by
  obtain ⟨w, gap, x, rfl, rfl, hgap⟩ := h
  have hw : w.Live := (live.of_suffix (List.dropWhile_suffix _)).append_left hgap
  obtain ⟨htake, hdrop⟩ := trivia_before (x := gap) fun he => absurd he hw
  obtain ⟨htake', hdrop'⟩ := trivia_before (x := x) fun he => absurd he hw
  rw [htake, hdrop, htake', hdrop']
  exact ⟨rfl, _, gap, x, rfl, rfl, hgap⟩

/-- As long as the first stream has a significant token left, both have the same token next. -/
theorem Continued.cons (h : Continued s s') (live : s.Live) :
    ∃ t m m', s = t :: m ∧ s' = t :: m' ∧ Continued m m' := by
  obtain ⟨w, gap, x, rfl, rfl, hgap⟩ := h
  cases w with
  | nil => exact absurd rfl (live.append_left hgap).ne_nil
  | cons t w => exact ⟨t, w ++ gap, w ++ x, rfl, rfl, w, gap, x, rfl, rfl, hgap⟩

end Ahead

/-- Two streams of which the second goes on where of the first only trivia are left. -/
def Coupling.continued : Coupling where
  __ := Coupling.grow []
  rel _ := Ahead.Continued
  live := Ahead.Live
  live_of_suffix := Ahead.Live.of_suffix
  rel_succ h := h
  gap h live := h.trivia live
  beside h live _ _ := by
    obtain ⟨t, m, m', rfl, rfl, hm⟩ := h.cons live
    exact .token rfl rfl hm fun _ _ _ => hm

theorem Coupling.continued_faithful : continued.Faithful := by
  intro n s s' hs live
  obtain ⟨t, m, m', rfl, rfl, hm⟩ := hs.rel.cons live
  exact .inr ⟨t, t, m, m', rfl, rfl, rfl, rfl, hm⟩

theorem Outline.Fails.continued {depth : Nat} {s s' r : Ahead} {e : Fault} (h : Fails depth s e r)
    (hr : r ≠ []) (hs : s.Continued s') : ∃ r', Fails depth s' e r' := by
  obtain ⟨-, -, settled, -⟩ := h.want
  have live := settled.live hr
  obtain ⟨want, r', rfl, hf, met, -⟩ := Coupling.continued_faithful.fails h live hs
  obtain ⟨t, m, m', rfl, rfl, -⟩ := met.rel.cons live
  exact ⟨_, hf⟩

/-- Behind a closed text a line break and more only continue its tokens. -/
theorem LexicallyClosed.continued {settings : Settings} {text : List Char}
    (h : LexicallyClosed (tokenize settings text)) (more : List Char) :
    Ahead.Continued (tokenize settings text) (tokenize settings (text ++ '\n' :: more)) := by
  obtain ⟨ts, gap, gap', hts, hgap, -, hmore⟩ := tokensAt_lineBreak 0 text more h
  exact ⟨ts, gap, _, hts, hmore, hgap.isTrivia⟩

/-- A fault that a token causes is final. Where every token of a text is closed, no text behind it
makes any difference to such a fault: neither to what was wanted nor to what was found and where. -/
theorem fault_final (settings : Settings) (text more : List Char) (e : Fault)
    (hclosed : LexicallyClosed (tokenize settings text))
    (h : (Outline.ofText settings text).result = .error e)
    (he : ∀ expected, e ≠ .unexpectedEnd expected) :
    (Outline.ofText settings (text ++ '\n' :: more)).result = .error e := by
  obtain ⟨r, hr⟩ := Outline.result_eq_error_iff.mp h
  have hne : r ≠ [] := fun hnil => by
    obtain ⟨expected, hend⟩ := hr.eq_nil_iff.mp hnil
    exact he expected hend
  exact Outline.result_eq_error_iff.mpr (hr.continued hne (hclosed.continued more))

/-- The quote behind this text opens a string, and the parenthesis before it is still at fault. -/
theorem fault_final_openString :
    let text := "UPDATE a)".toList
    let e := Fault.unexpectedToken "SET" [')'] 8
    LexicallyClosed (tokenize {} text) ∧ (Outline.ofText {} text).result = .error e ∧
      (∀ expected, e ≠ .unexpectedEnd expected) ∧
      (Outline.ofText {} (text ++ '\n' :: "SET '".toList)).result = .error e := by
  intro text e
  have htokens : tokenize {} text = [⟨.keyword .update, 0, "UPDATE".toList⟩,
      ⟨.identifier, 7, ['a']⟩, ⟨.punctuation .closeParen, 8, [')']⟩] := by
    decide +kernel
  have hclosed : LexicallyClosed (tokenize {} text) := by
    rw [htokens]
    decide
  have hfault : (Outline.ofText {} text).fault = some e := by
    rw [Outline.ofText, htokens]
    decide +kernel
  have hresult : (Outline.ofText {} text).result = .error e := by
    rw [Outline.result, hfault]
  have he : ∀ expected, e ≠ .unexpectedEnd expected := by simp [e]
  exact ⟨hclosed, hresult, he, fault_final {} text "SET '".toList e hclosed hresult he⟩

end SqlOutline
