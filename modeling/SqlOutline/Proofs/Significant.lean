import SqlOutline.Proofs.OutlineCoupling
import SqlOutline.Proofs.Segmentation

namespace SqlOutline
open Parse

namespace Token

/-- The tokens that mean something to the grammar. -/
def significant (ts : List Token) : List Token :=
  ts.filter (!·.isTrivia)

/-- All that the grammar looks at. -/
def kinds (ts : List Token) : List Kind :=
  (significant ts).map Token.kind

variable {ts us : List Token} {t : Token}

@[simp] theorem significant_append (ts us : List Token) :
    significant (ts ++ us) = significant ts ++ significant us :=
  List.filter_append ts us

theorem kinds_append (ts us : List Token) : kinds (ts ++ us) = kinds ts ++ kinds us := by
  simp [kinds]

theorem kinds_cons (ht : t.isTrivia = false) (ts : List Token) :
    kinds (t :: ts) = t.kind :: kinds ts := by
  simp [kinds, significant, ht]

theorem kinds_of_trivia (h : ∀ t ∈ ts, t.isTrivia = true) : kinds ts = [] := by
  simpa [kinds, significant] using h

theorem kinds_takeWhile (s : Ahead) : kinds (s.takeWhile Token.isTrivia) = [] :=
  kinds_of_trivia (List.all_eq_true.mp List.all_takeWhile)

theorem kinds_dropWhile (s : Ahead) : kinds (s.dropWhile Token.isTrivia) = kinds s := by
  conv_rhs => rw [← List.takeWhile_append_dropWhile (p := Token.isTrivia) (l := s)]
  rw [kinds_append, kinds_takeWhile, List.nil_append]

theorem length_significant (h : kinds us = kinds ts) :
    (significant us).length = (significant ts).length := by
  simpa [kinds] using congrArg List.length h

end Token

theorem Ahead.Settled.head?_significant {s : Ahead} (h : s.Settled) :
    (Token.significant s).head? = s.head? := by
  cases s with
  | nil => rfl
  | cons t s => simp [Token.significant, h t rfl]

/-- Streams with the same significant kinds next are settled at the same kind, or both at their
end. -/
theorem Ahead.cases_of_kinds {s s' : Ahead} (h : Token.kinds s' = Token.kinds s) (hs : s.Settled)
    (hs' : s'.Settled) :
    s = [] ∧ s' = [] ∨ ∃ t t' m m', s = t :: m ∧ s' = t' :: m' ∧ t'.kind = t.kind ∧
      Token.kinds [t'] = Token.kinds [t] ∧ Token.kinds m' = Token.kinds m := by
  cases s with
  | nil =>
    cases s' with
    | nil => exact .inl ⟨rfl, rfl⟩
    | cons t' m' =>
      rw [Token.kinds_cons (hs' t' rfl)] at h
      cases h
  | cons t m =>
    have ht := hs t rfl
    cases s' with
    | nil =>
      rw [Token.kinds_cons ht] at h
      cases h
    | cons t' m' =>
      have ht' := hs' t' rfl
      rw [Token.kinds_cons ht, Token.kinds_cons ht'] at h
      obtain ⟨hk, hm⟩ := List.cons.inj h
      refine .inr ⟨t, t', m, m', rfl, rfl, hk, ?_, hm⟩
      rw [Token.kinds_cons ht, Token.kinds_cons ht', hk]

namespace Coupling

/-- Two streams that cannot be told apart by the kinds of their significant tokens. -/
def kinds : Coupling where
  rel _ s s' := Token.kinds s' = Token.kinds s
  same ts us := Token.kinds us = Token.kinds ts
  live _ := True
  same_nil := rfl
  same_append ht hu := by rw [Token.kinds_append, Token.kinds_append, ht, hu]
  live_of_suffix _ _ := trivial
  rel_succ h := h
  gap {_ s s'} h _ := by
    rw [Token.kinds_takeWhile, Token.kinds_takeWhile, Token.kinds_dropWhile, Token.kinds_dropWhile]
    exact ⟨rfl, h⟩
  beside h _ hs hs' := by
    rcases Ahead.cases_of_kinds h hs hs' with ⟨rfl, rfl⟩ | ⟨t, t', m, m', rfl, rfl, hk, one, hm⟩
    · exact .ended .nil .nil
    · exact .token hk one hm fun _ _ _ => hm

theorem kinds_faithful : kinds.Faithful :=
  fun _ _ _ hs _ => Ahead.cases_of_kinds hs.rel hs.left hs.right

end Coupling

/-- The clauses from the significant token of number `i` on, each as the number of its first token
and that of the first behind it. -/
def Clause.places (i : Nat) : List Clause → List (Nat × Nat)
  | [] => []
  | c :: cs => (i, i + c.significant.length) :: places (i + c.significant.length) cs

/-- The places of the clauses of each statement, where `i` tokens stand before the first one and the
gaps behind each. -/
def Statement.places (i : Nat) : List Statement → List (List Token) → List (List (Nat × Nat))
  | st :: sts, gap :: gaps =>
    Clause.places i st.clauses ::
      places (i + (Token.significant (st.tokens ++ gap)).length) sts gaps
  | _, _ => []

theorem Clause.places_congr {cs ds : List Clause} (h : List.Forall₂ Coupling.kinds.Clauses cs ds)
    (i : Nat) : places i ds = places i cs := by
  induction h generalizing i with
  | nil => rfl
  | @cons c d cs ds h _ ih =>
    have hlen : d.significant.length = c.significant.length := Token.length_significant h.tokens
    rw [places, places, hlen, ih]

theorem Statement.places_congr {sts sts' : List Statement} {gaps gaps' : List (List Token)}
    (h : List.Forall₂ (Statement.Alike Coupling.kinds.Clauses) sts sts')
    (hg : List.Forall₂ Coupling.kinds.same gaps gaps') (i : Nat) :
    places i sts' gaps' = places i sts gaps := by
  induction h generalizing gaps gaps' i with
  | nil => rfl
  | @cons st st' sts sts' h _ ih =>
    cases hg with
    | nil => rfl
    | @cons gap gap' gaps gaps' hgap hg =>
      have hst : Token.kinds st'.tokens = Token.kinds st.tokens :=
        Coupling.same_flatMap h.clauses
      have hlen := Token.length_significant (Coupling.kinds.same_append hst hgap)
      rw [places, places, hlen, Clause.places_congr h.clauses, ih hg]

/-- Two answers for the streams `s` and `s'` that differ in nothing but texts, places in the text and
trivia: statements of the same shape whose clauses take up the same significant tokens, or faults for
want of the same at the significant token of the same number. Only at the end of both streams there
is no such token, and then another one was wanted. -/
inductive Outline.Agree (s s' : Ahead) :
    Except Fault (List Statement) → Except Fault (List Statement) → Prop where
  | ok {sts sts' : List Statement} {noise noise' : List Token} {gaps gaps' : List (List Token)}
      (split : s = noise ++ Statement.spread sts gaps)
      (split' : s' = noise' ++ Statement.spread sts' gaps')
      (length : gaps.length = sts.length) (length' : gaps'.length = sts'.length)
      (plain : ∀ gap ∈ noise :: gaps ++ noise' :: gaps', ∀ t ∈ gap, Ahead.isNoise t = true)
      (shape : List.Forall₂ (Statement.Alike Coupling.kinds.Clauses) sts sts')
      (places : Statement.places (Token.significant noise').length sts' gaps' =
        Statement.places (Token.significant noise).length sts gaps) :
      Agree s s' (.ok sts) (.ok sts')
  | error (want : Want) (i : Nat)
      (place : i < (Token.significant s).length ∨
        i = (Token.significant s).length ∧ ∃ expected, want = .token expected) :
      Agree s s' (.error (want.fault (Token.significant s)[i]?))
        (.error (want.fault (Token.significant s')[i]?))

/-- A fault is for want of something at the significant token that comes next. At the end only a
token can be wanting. -/
theorem Outline.Fails.want {depth : Nat} {s r : Ahead} {e : Fault} (h : Fails depth s e r) :
    ∃ want : Want, e = want.fault r.head? ∧ r.Settled ∧
      (r = [] → ∃ expected, want = .token expected) := by
  obtain ⟨want, r', he, -, met, hend⟩ := Coupling.kinds_faithful.fails h trivial rfl
  exact ⟨want, he, met.left, hend⟩

/-- The fault of coming to the end is that of a reading that has come there. -/
theorem Outline.Fails.eq_nil_iff {depth : Nat} {s r : Ahead} {e : Fault} (h : Fails depth s e r) :
    r = [] ↔ ∃ expected, e = .unexpectedEnd expected := by
  obtain ⟨want, rfl, -, hend⟩ := h.want
  constructor
  · intro hr
    obtain ⟨expected, rfl⟩ := hend hr
    exact ⟨expected, by rw [hr]; rfl⟩
  · rintro ⟨expected, he⟩
    cases r with
    | nil => rfl
    | cons t r => cases want <;> cases he

/-- A settled end of a stream starts at the significant token that as many stand before as in the
whole stream. -/
theorem Ahead.Settled.head?_eq_getElem? {s r : Ahead} (h : r.Settled) (hr : r <:+ s) :
    r.head? = (Token.significant s)[(Token.significant s).length - (Token.significant r).length]? := by
  obtain ⟨u, rfl⟩ := hr
  rw [Token.significant_append, List.length_append, Nat.add_sub_cancel,
    List.getElem?_append_right (Nat.le_refl _), Nat.sub_self, ← List.head?_eq_getElem?,
    h.head?_significant]

theorem Outline.agree_of_kinds (depth : Nat) {s s' : Ahead} (h : Token.kinds s' = Token.kinds s) :
    Agree s s' (ofAhead depth s).result (ofAhead depth s').result := by
  have hJ := Coupling.kinds_faithful
  cases hresult : (ofAhead depth s).result with
  | ok sts =>
    obtain ⟨noise, gaps, hs⟩ := result_eq_ok_iff.mp hresult
    obtain ⟨noise', sts', gaps', hs', hnoise, hsts, hgaps⟩ := hJ.splits (fun _ => trivial) hs h
    obtain ⟨hl, hsplit, hplain, -⟩ := hs.eq_spread
    obtain ⟨hl', hsplit', hplain', -⟩ := hs'.eq_spread
    rw [hs'.result]
    refine .ok hsplit hsplit' hl hl' ?_ hsts ?_
    · intro gap hg
      exact (List.mem_append.mp hg).elim (hplain gap) (hplain' gap)
    · rw [Token.length_significant hnoise, Statement.places_congr hsts hgaps]
  | error e =>
    obtain ⟨r, hs⟩ := result_eq_error_iff.mp hresult
    obtain ⟨want, r', rfl, hs', met, hend⟩ := hJ.fails hs trivial h
    have hi := met.left.head?_eq_getElem? hs.suffix
    have hi' := met.right.head?_eq_getElem? hs'.suffix
    rw [Token.length_significant h, Token.length_significant met.rel] at hi'
    rw [hs'.result, hi, hi']
    refine .error want _ ?_
    cases hr : r with
    | nil => exact .inr ⟨rfl, hend hr⟩
    | cons t m =>
      have ht := met.left t (by rw [hr]; rfl)
      have hle := (hs.suffix.filter (!·.isTrivia)).length_le
      have hpos : 0 < (Token.significant (t :: m)).length := by simp [Token.significant, ht]
      rw [hr] at hle
      refine .inl ?_
      change (Token.significant (t :: m)).length ≤ (Token.significant s).length at hle
      omega

/-- What comes of a stream of tokens, or of a text, is decided by the kinds of its significant tokens:
whether there is a fault, what was wanted and at which of them, or else which statements there are and
which of the tokens each clause takes up. Whitespace, comments, names, values and places have no part
in it. -/
theorem outline_of_kinds :
    (∀ (depth : Nat) (s s' : Ahead), Token.kinds s' = Token.kinds s →
      Outline.Agree s s' (Outline.ofAhead depth s).result (Outline.ofAhead depth s').result) ∧
    ∀ (settings settings' : Settings) (text text' : List Char), settings'.depth = settings.depth →
      Token.kinds (tokenize settings' text') = Token.kinds (tokenize settings text) →
      Outline.Agree (tokenize settings text) (tokenize settings' text')
        (Outline.ofText settings text).result (Outline.ofText settings' text').result := by
  refine ⟨fun depth s s' => Outline.agree_of_kinds depth, fun settings settings' _ _ hdepth h => ?_⟩
  rw [Outline.ofText, Outline.ofText, hdepth]
  exact Outline.agree_of_kinds settings.depth h

/-- Other names, other values, comments and blanks, and a statement that stops short both times. -/
theorem outline_of_kinds_renamed :
    let text := "SELECT a; INSERT t (b) 1".toList
    let text' := "select/* all */[b c]\n;\tinsert u -- into u\n (b)2.5".toList
    let spaced : Settings := { blanks := true }
    let s := tokenize {} text
    let s' := tokenize spaced text'
    Token.kinds s' = Token.kinds s ∧
      Outline.Agree s s' (Outline.ofAhead 0 s).result (Outline.ofAhead 0 s').result ∧
      Outline.Agree s s' (Outline.ofText {} text).result (Outline.ofText spaced text').result := by
  intro text text' spaced s s'
  have hkinds : Token.kinds s' = Token.kinds s := by decide +kernel
  exact ⟨hkinds, outline_of_kinds.1 0 s s' hkinds,
    outline_of_kinds.2 {} spaced text text' rfl hkinds⟩

end SqlOutline
