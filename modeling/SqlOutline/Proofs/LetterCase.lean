import SqlOutline.Proofs.Delimited
import SqlOutline.Proofs.OutlineCoupling
import SqlOutline.Proofs.Quoting
import SqlOutline.Proofs.Spelling
import SqlOutline.Proofs.UpperCase

namespace SqlOutline
open Parse

namespace Text

/-- The same text but for the case of its letters. Only ASCII has letters of two cases here. -/
def SameLetters (t u : List Char) : Prop :=
  List.Forall₂ (fun c d => d = c ∨ d = c.toUpper ∨ d = c.toLower) t u

instance (t u : List Char) : Decidable (SameLetters t u) :=
  inferInstanceAs (Decidable (List.Forall₂ _ t u))

theorem SameLetters.upper {t u : List Char} (h : SameLetters t u) : upper u = upper t := by
  induction h with
  | nil => rfl
  | @cons c d t u hc _ ih =>
    have hd : d.toUpper = c.toUpper := by
      rcases hc with rfl | rfl | rfl
      · rfl
      · exact toUpper_toUpper c
      · exact toUpper_toLower c
    exact congrArg₂ List.cons hd ih

end Text

/-- The fault with the text it quotes in upper case. -/
def Fault.upper : Fault → Fault
  | .unexpectedToken expected found p => .unexpectedToken expected (Text.upper found) p
  | .unrecognized found p => .unrecognized (Text.upper found) p
  | .unexpectedEnd expected => .unexpectedEnd expected
  | .tooDeep limit p => .tooDeep limit p

theorem Token.upper_eq_iff {t t' : Token} :
    t'.upper = t.upper ↔
      t'.kind = t.kind ∧ t'.start = t.start ∧ Text.upper t'.text = Text.upper t.text := by
  simp [upper]

theorem Token.length_of_upper {t t' : Token} (h : t'.upper = t.upper) : t'.length = t.length := by
  obtain ⟨-, -, htext⟩ := upper_eq_iff.mp h
  have hlength := congrArg List.length htext
  rwa [Text.upper, Text.upper, List.length_map, List.length_map] at hlength

theorem Token.span_of_upper {t t' : Token} (h : t'.upper = t.upper) : t'.span = t.span := by
  rw [span, span, (upper_eq_iff.mp h).2.1, length_of_upper h]

theorem Ahead.cases_of_cased {s s' : Ahead} (h : s'.map Token.upper = s.map Token.upper) :
    s = [] ∧ s' = [] ∨ ∃ t t' m m', s = t :: m ∧ s' = t' :: m' ∧ t'.upper = t.upper ∧
      m'.map Token.upper = m.map Token.upper := by
  cases s with
  | nil => exact .inl ⟨rfl, List.map_eq_nil_iff.mp h⟩
  | cons t m =>
    cases s' with
    | nil => cases h
    | cons t' m' =>
      obtain ⟨ht, hm⟩ := List.cons.inj h
      exact .inr ⟨t, t', m, m', rfl, rfl, ht, hm⟩

/-- Streams that differ in nothing but the case of letters. -/
def Coupling.cased : Coupling where
  rel _ s s' := s'.map Token.upper = s.map Token.upper
  same ts us := us.map Token.upper = ts.map Token.upper
  live _ := True
  same_nil := rfl
  same_append ht hu := by rw [List.map_append, List.map_append, ht, hu]
  live_of_suffix _ _ := trivial
  rel_succ h := h
  gap {n s s'} h _ := by
    have htake (s : Ahead) : (s.takeWhile Token.isTrivia).map Token.upper =
        (s.map Token.upper).takeWhile Token.isTrivia :=
      (List.takeWhile_map (p := Token.isTrivia)).symm
    have hdrop (s : Ahead) : (s.dropWhile Token.isTrivia).map Token.upper =
        (s.map Token.upper).dropWhile Token.isTrivia :=
      (List.dropWhile_map (p := Token.isTrivia)).symm
    exact ⟨by rw [htake, htake, h], by rw [hdrop, hdrop, h]⟩
  beside {n s s'} h _ _ _ := by
    rcases Ahead.cases_of_cased h with ⟨rfl, rfl⟩ | ⟨t, t', m, m', rfl, rfl, ht, hm⟩
    · exact .ended .nil .nil
    · exact .token (Token.upper_eq_iff.mp ht).1 (congrArg ([·]) ht) hm fun _ _ _ => hm

theorem Coupling.cased_faithful : cased.Faithful := by
  intro n s s' hs _
  refine (Ahead.cases_of_cased hs.rel).imp_right ?_
  rintro ⟨t, t', m, m', rfl, rfl, ht, hm⟩
  exact ⟨t, t', m, m', rfl, rfl, (Token.upper_eq_iff.mp ht).1, congrArg ([·]) ht, hm⟩

theorem Coupling.Clauses.span {c d : Clause} (h : cased.Clauses c d) : d.span = c.span := by
  have hlead : d.lead.upper = c.lead.upper := (List.cons.inj h.lead).1
  have hlast : (d.body.getLastD d.lead).upper = (c.body.getLastD c.lead).upper := by
    have hbody : d.body.map Token.upper = c.body.map Token.upper := h.body
    rw [← List.getLastD_map (f := Token.upper), ← List.getLastD_map (f := Token.upper), hlead,
      hbody]
  rw [Clause.span, Clause.span, (Token.upper_eq_iff.mp hlead).2.1, Token.span_of_upper hlast]

theorem Want.fault_upper {want : Want} {r r' : Ahead} (h : r'.map Token.upper = r.map Token.upper) :
    (want.fault r'.head?).upper = (want.fault r.head?).upper := by
  rcases Ahead.cases_of_cased h with ⟨rfl, rfl⟩ | ⟨t, t', m, m', rfl, rfl, ht, -⟩
  · rfl
  · obtain ⟨-, hstart, htext⟩ := Token.upper_eq_iff.mp ht
    cases want <;> simp [fault, Fault.upper, hstart, htext]

/-- What the tokens come to is the same but for the case of letters. -/
theorem Outline.result_cased (depth : Nat) {s s' : Ahead}
    (h : s'.map Token.upper = s.map Token.upper) :
    match (ofAhead depth s).result, (ofAhead depth s').result with
    | .ok sts, .ok sts' => List.Forall₂ (Statement.Alike Coupling.cased.Clauses) sts sts' ∧
        sts'.map Statement.layout = sts.map Statement.layout
    | .error e, .error e' => e'.upper = e.upper
    | _, _ => False := by
  have hJ := Coupling.cased_faithful
  rcases hJ.result (fun _ => trivial) h with
    ⟨sts, sts', hs, hs', hsts⟩ | ⟨want, r, r', hs, hs', met, -⟩
  · have hlayout {st st' : Statement} (h : st.Alike Coupling.cased.Clauses st') :
        st'.layout = st.layout := h.layout fun _ _ hc => ⟨hc.kind, hc.span⟩
    rw [hs, hs']
    exact ⟨hsts, map_eq_map_iff_forall₂.mpr (hsts.imp fun _ _ hst => hlayout hst)⟩
  · rw [hs, hs']
    exact Want.fault_upper met.rel

namespace Text

theorem ascii_toUpper (c : Char) : c.toUpper.toNat < 128 ↔ c.toNat < 128 := by
  have h := apply_toUpper (fun c => decide (c.toNat < 128)) (by decide) c
  simpa using h

theorem toUpper_eq_or (c : Char) : c.toUpper = c ∨ c.toUpper.toLower = c := by
  by_cases hc : c.isLower = true
  · obtain ⟨i, hi, rfl⟩ := exists_of_isLower hc
    have hback : ∀ i < 26, (Char.ofNat (97 + i)).toUpper.toLower = .ofNat (97 + i) := by decide
    exact .inr (hback i hi)
  · exact .inl (toUpper_of_not_isLower hc)

theorem infix_of_upper {t : List Char} (h : "N'".toList <:+: upper t) :
    "N'".toList <:+: t ∨ "n'".toList <:+: t := by
  obtain ⟨before, after, he⟩ := h
  obtain ⟨front, back, rfl, hfront, -⟩ := List.map_eq_append_iff.mp he.symm
  obtain ⟨front, marks, rfl, -, hmarks⟩ := List.map_eq_append_iff.mp hfront
  obtain ⟨c, quotes, rfl, hc, hquotes⟩ := List.map_eq_cons_iff.mp hmarks
  obtain ⟨q, rest, rfl, hq, hrest⟩ := List.map_eq_cons_iff.mp hquotes
  obtain rfl := (toUpper_eq_iff (by decide)).mp hq
  obtain rfl := List.map_eq_nil_iff.mp hrest
  have hcase := toUpper_eq_or c
  rw [hc] at hcase
  rcases hcase with rfl | rfl
  · exact .inl ⟨front, back, rfl⟩
  · exact .inr ⟨front, back, rfl⟩

end Text

theorem ascii_of_all (ws : List String) (h : ws.all (·.toList.all (·.toNat < 128)) = true)
    {w : String} (hw : w ∈ ws) : ∀ c ∈ w.toList, c.toNat < 128 := by
  simpa using List.all_eq_true.mp h w hw

theorem Kind.ascii_of_mem_words {k : Kind} {w : String} (h : w ∈ k.words) :
    ∀ c ∈ w.toList, c.toNat < 128 := by
  have hkeyword (k : Keyword) : ∀ c ∈ k.spelling.toList, c.toNat < 128 := by
    have hmem : k.spelling ∈ keywords.map Keyword.spelling := List.mem_map_of_mem k.mem_keywords
    exact ascii_of_all _ (by decide +kernel) hmem
  cases k with
  | keyword k =>
    obtain rfl := List.mem_singleton.mp h
    exact hkeyword k
  | connective c =>
    obtain rfl := List.mem_singleton.mp h
    exact hkeyword c.keyword
  | systemIdentifier => exact ascii_of_all systemIdentifiers (by decide +kernel) h
  | systemVariable => exact ascii_of_all systemVariables (by decide +kernel) h
  | operator => exact ascii_of_all Lexeme.operatorWords (by decide +kernel) h
  | _ => cases h

/-- No letter but those of ASCII passes for one of a word. -/
theorem Lexeme.ascii_of_kind {quoted : Bool} {t : List Char} (h : (kind quoted t).words ≠ []) :
    (∀ c ∈ t, c.toNat < 128) ∨
      kind quoted t = .operator ∧ ∃ sign ∈ operatorSigns, t.head? = some sign := by
  refine (upper_of_kind rfl h).imp_left ?_
  rintro ⟨w, hw, ht⟩ c hc
  have hupper : c.toUpper ∈ w.toList := ht ▸ List.mem_map_of_mem hc
  exact (Text.ascii_toUpper c).mp (Kind.ascii_of_mem_words hw _ hupper)

/-- Texts that differ in the case of letters have the same tokens, and the same outline or the same
fault, if no N of either case stands before a single quote. The text of a token and what a fault
quotes are as they are written. A letter that is not ASCII is no letter of any word of the
language. -/
theorem letter_case_immaterial (settings : Settings) (text text' : List Char)
    (h : Text.SameLetters text text') (capital : ¬ "N'".toList <:+: text)
    (small : ¬ "n'".toList <:+: text) :
    List.Forall₂ (fun t t' : Token => t'.start = t.start ∧ t'.length = t.length ∧ t'.kind = t.kind)
        (tokenize settings text) (tokenize settings text') ∧
      (match (Outline.ofText settings text).result, (Outline.ofText settings text').result with
      | .ok sts, .ok sts' => List.Forall₂ (Statement.Alike Coupling.cased.Clauses) sts sts' ∧
          sts'.map Statement.layout = sts.map Statement.layout
      | .error e, .error e' => e'.upper = e.upper
      | _, _ => False) ∧
      ∀ t ∈ tokenize settings text, t.kind.words ≠ [] → (∀ c ∈ t.text, c.toNat < 128) ∨
        t.kind = .operator ∧ ∃ sign ∈ Lexeme.operatorSigns, t.text.head? = some sign := by
  have hnational : ¬ "N'".toList <:+: Text.upper text := fun hN =>
    (Text.infix_of_upper hN).elim capital small
  have htokens : (tokenize settings text').map Token.upper =
      (tokenize settings text).map Token.upper := by
    have hnational' : ¬ "N'".toList <:+: Text.upper text' := h.upper ▸ hnational
    rw [tokenize, tokenize, ← tokensAt_upper settings 0 text hnational,
      ← tokensAt_upper settings 0 text' hnational', h.upper]
  refine ⟨?_, Outline.result_cased settings.depth htokens, fun t ht hk => ?_⟩
  · refine (map_eq_map_iff_forall₂.mp htokens).imp fun t t' htt' => ?_
    obtain ⟨hkind, hstart, htext⟩ := Token.upper_eq_iff.mp htt'
    exact ⟨hstart, Token.length_of_upper htt', hkind⟩
  · obtain ⟨q, c, w, m, rfl, -⟩ := lexeme_of_mem_tokensAt ht
    exact Lexeme.ascii_of_kind hk

/-- Small letters, those of a number included, leave each clause in its place. -/
theorem letter_case_immaterial_small :
    let text := "SELECT 0X1F FROM N".toList
    let text' := "select 0x1f from n".toList
    Text.SameLetters text text' ∧ ¬ "N'".toList <:+: text ∧ ¬ "n'".toList <:+: text ∧
      (tokenize {} text').map Token.kind = (tokenize {} text).map Token.kind ∧
      (Outline.ofText {} text').result.map (List.map Statement.layout) =
        .ok [(.select, ⟨0, 17⟩, [(.select, ⟨0, 10⟩), (.from, ⟨12, 17⟩)])] := by
  intro text text'
  have hsame : Text.SameLetters text text' := by decide +kernel
  have hcapital : ¬ "N'".toList <:+: text := by decide +kernel
  have hsmall : ¬ "n'".toList <:+: text := by decide +kernel
  have hlayout : (Outline.ofText {} text).result.map (List.map Statement.layout) =
      .ok [(.select, ⟨0, 17⟩, [(.select, ⟨0, 10⟩), (.from, ⟨12, 17⟩)])] := by
    decide +kernel
  obtain ⟨htokens, hresult, -⟩ := letter_case_immaterial {} text text' hsame hcapital hsmall
  refine ⟨hsame, hcapital, hsmall, ?_, ?_⟩
  · exact map_eq_map_iff_forall₂.mpr (htokens.imp fun _ _ ht => ht.2.2)
  · split at hresult
    next sts sts' h h' =>
      rw [h] at hlayout
      rw [h', ← hlayout]
      exact congrArg Except.ok hresult.2
    next e e' h h' =>
      rw [h] at hlayout
      cases hlayout
    next => exact hresult.elim

-- A string is told to be national by a capital alone.
example :
    (tokenize {} "N'a'".toList).map Token.kind = [.string] ∧
      (tokenize {} "n'a'".toList).map Token.kind = [.identifier] := by
  decide +kernel

end SqlOutline
