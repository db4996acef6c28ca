import Mathlib.Data.List.Nodup
import SqlOutline.Proofs.Spelling
import SqlOutline.Proofs.TokenEnd
import SqlOutline.Proofs.UpperCase

namespace SqlOutline
open Text Lexeme

theorem Text.nodup_of_rising {ts : List (List Char)} (h : rising ts = true) : ts.Nodup :=
  List.Pairwise.imp (fun {s t} (hlt : s < t) (he : s = t) => List.lt_irrefl t (he ▸ hlt))
    (pairwise_of_rising h)

/-- Where names differ, what is found by a name is what has it. -/
theorem find?_name_iff {α : Type} {words : List α} {name : α → List Char}
    (h : (words.map name).Nodup) {w : α} {t : List Char} :
    (words.find? fun v => name v == t) = some w ↔ w ∈ words ∧ name w = t := by
  constructor
  · intro hw
    have hname := List.find?_some hw
    exact ⟨List.mem_of_find?_eq_some hw, beq_iff_eq.mp hname⟩
  · intro ⟨hw, hname⟩
    subst hname
    have hfound : (words.find? fun v => name v == name w).isSome = true :=
      List.find?_isSome.mpr ⟨w, hw, beq_self_eq_true _⟩
    obtain ⟨v, hv⟩ := Option.isSome_iff_exists.mp hfound
    have hname := List.find?_some hv
    rwa [List.inj_on_of_nodup_map h (List.mem_of_find?_eq_some hv) hw (beq_iff_eq.mp hname)] at hv

namespace Keyword

/-- The keywords are declared in the order of their names. -/
theorem rising_name : rising (keywords.map name) = true := by
  decide +kernel

theorem nodup_name : (keywords.map name).Nodup :=
  nodup_of_rising rising_name

theorem nodup_spelling : (keywords.map fun k => k.spelling.toList).Nodup := by
  have hmap : keywords.map name = (keywords.map fun k => k.spelling.toList).map capitalise := by
    rw [List.map_map]
    rfl
  exact .of_map _ (hmap ▸ nodup_name)

theorem spelling_inj {j k : Keyword} : j.spelling.toList = k.spelling.toList ↔ j = k := by
  refine ⟨fun h => ?_, fun h => h ▸ rfl⟩
  exact List.inj_on_of_nodup_map nodup_spelling j.mem_keywords k.mem_keywords h

theorem ofText?_eq_some_iff {t : List Char} {k : Keyword} :
    ofText? t = Option.some k ↔ upper t = k.spelling.toList := by
  rw [ofText?, find?_name_iff nodup_spelling, and_iff_right k.mem_keywords, eq_comm]

/-- The keywords that a lexeme is never read as, but as a connective or an operator. -/
def joining : List Keyword := [.and, .or, .like, .not, .is, .in]

/-- What a lexeme is that spells the keyword. -/
def kind : Keyword → Kind
  | .and => .connective .and
  | .or => .connective .or
  | .like | .not | .is | .in => .operator
  | k => .keyword k

theorem kind_eq_keyword_iff {j k : Keyword} : j.kind = .keyword k ↔ j = k ∧ k ∉ joining := by
  constructor
  · intro h
    unfold kind at h
    split at h <;> cases h
    exact ⟨rfl, by simp_all [joining]⟩
  · intro ⟨hj, hk⟩
    subst hj
    unfold kind
    split <;> simp_all [joining]

end Keyword

/-- The words that lexemes are looked up among. -/
def vocabulary : List String :=
  keywords.map Keyword.spelling ++ systemIdentifiers ++ systemVariables

namespace Lexeme

variable {quoted : Bool} {c : Char} {s t : List Char} {k : Keyword} {w : String}

/-- What holds of the capitals one by one. -/
theorem forall_capital {p : Char → Prop} (h : ∀ i < 26, p (.ofNat (65 + i)))
    (hc : c.isUpper = true) : p c := by
  obtain ⟨i, hi, rfl⟩ := exists_of_isUpper hc
  exact h i hi

/-- A capital starts nothing but a word, unless a quote follows the letter N. -/
theorem kind_of_capital (hc : c.isUpper = true) (hN : "N'".toList.isPrefixOf (c :: t) = false) :
    kind quoted (c :: t) =
      if operatorWords.any (·.toList == upper (c :: t)) then .operator
      else wordKind quoted (c :: t) := by
  have hsigns : (isBlank c || isCurrencySign c || c.isDigit || operatorSigns.contains c) = false :=
    forall_capital
      (p := fun c => (isBlank c || isCurrencySign c || c.isDigit || operatorSigns.contains c) = false)
      (by decide) hc
  simp only [Bool.or_eq_false_iff] at hsigns
  obtain ⟨⟨⟨hblank, hcurrency⟩, hdigit⟩, hsign⟩ := hsigns
  have hmark {d : Char} (hd : d.isUpper = false) : c ≠ d := fun he => by simp [← he, hc] at hd
  have hprefix {d : Char} {u : List Char} (hd : d.isUpper = false) :
      (d :: u).isPrefixOf (c :: t) = false := by
    rw [List.isPrefixOf_cons_cons, beq_eq_false_iff_ne.mpr (hmark hd).symm, Bool.false_and]
  have hdash : "--".toList.isPrefixOf (c :: t) = false := hprefix rfl
  have hslash : "/*".toList.isPrefixOf (c :: t) = false := hprefix rfl
  simp only [kind, hblank, hcurrency, hdigit, hsign, hN, hdash, hslash, hmark (d := '@') rfl,
    hmark (d := '\'') rfl, hmark (d := '"') rfl, hmark (d := '$') rfl, hmark (d := '0') rfl,
    hmark (d := '.') rfl, Bool.false_eq_true, false_and, or_self, false_or, if_false]

theorem ofText?_of_capital (hc : c.isUpper = true) : Punctuation.ofText? (c :: t) = none := by
  refine Option.eq_none_iff_forall_ne_some.mpr fun p hp => ?_
  obtain ⟨rfl, -⟩ := List.cons.inj (Punctuation.eq_char_of_ofText? hp)
  cases p <;> cases hc

/-- The word starts with a capital that is not the prefix of a string. -/
def IsName (w : String) : Prop :=
  startsLetter w = true ∧ "N'".toList.isPrefixOf w.toList = false

theorem isName_spelling (k : Keyword) : IsName k.spelling := by
  have hN : ∀ k ∈ keywords, "N'".toList.isPrefixOf k.spelling.toList = false := by decide +kernel
  exact ⟨startsLetter_of_mem_keywords k k.mem_keywords, hN k k.mem_keywords⟩

theorem isName_of_mem_systemIdentifiers (hw : w ∈ systemIdentifiers) : IsName w := by
  have hN : ∀ w ∈ systemIdentifiers, "N'".toList.isPrefixOf w.toList = false := by decide +kernel
  exact ⟨startsLetter_of_mem_systemIdentifiers w hw, hN w hw⟩

theorem head?_of_mem_systemVariables : ∀ w ∈ systemVariables, w.toList.head? = some '@' := by
  decide

theorem operatorWords_eq :
    operatorWords = [Keyword.like, .not, .is, .in].map Keyword.spelling := rfl

theorem any_operatorWords (t : List Char) :
    operatorWords.any (·.toList == t) = true ↔
      ∃ k ∈ [Keyword.like, .not, .is, .in], k.spelling.toList = t := by
  simp only [operatorWords_eq, List.any_map, List.any_eq_true, Function.comp_apply, beq_iff_eq]

namespace IsName

theorem eq_cons (h : IsName w) : ∃ c t, w.toList = c :: t ∧ c.isUpper = true := by
  have hletter := h.1
  cases hw : w.toList with
  | nil => simp [startsLetter, hw] at hletter
  | cons c t => exact ⟨c, t, rfl, by simpa [startsLetter, hw] using hletter⟩

theorem kind_eq (h : IsName w) (hs : upper s = w.toList) :
    kind quoted s =
      if operatorWords.any (·.toList == w.toList) then .operator else wordKind quoted s := by
  obtain ⟨c, t, hw, hc⟩ := h.eq_cons
  have hN := h.2
  rw [hw] at hs hN ⊢
  have hupper : upper (c :: t) = c :: t := by rw [← hs, upper_upper]
  rw [← wordKind_upper, ← kind_upper quoted (hs ▸ hN), hs, kind_of_capital hc hN, hupper]

theorem ofText?_eq_none (h : IsName w) (hs : upper s = w.toList) :
    Punctuation.ofText? s = none := by
  obtain ⟨c, t, hw, hc⟩ := h.eq_cons
  rw [← ofText?_upper, hs, hw, ofText?_of_capital hc]

theorem ne_systemVariable {v : String} (h : IsName w) (hv : v ∈ systemVariables) :
    w.toList ≠ v.toList := by
  intro he
  obtain ⟨c, t, hw, hc⟩ := h.eq_cons
  have hat := head?_of_mem_systemVariables v hv
  rw [← he, hw] at hat
  cases hat
  cases hc

end IsName

theorem kind_of_spelling (h : upper s = k.spelling.toList) : kind quoted s = k.kind := by
  have hname := isName_spelling k
  have hand : k.spelling.toList = "AND".toList ↔ k = .and := Keyword.spelling_inj (k := .and)
  have hor : k.spelling.toList = "OR".toList ↔ k = .or := Keyword.spelling_inj (k := .or)
  rw [hname.kind_eq h, wordKind, hname.ofText?_eq_none h, h, Keyword.ofText?_eq_some_iff.mpr h]
  simp only [any_operatorWords, Keyword.spelling_inj, exists_eq_right, hand, hor]
  cases k <;> rfl

theorem spelling_ne_of_mem_systemIdentifiers (hw : w ∈ systemIdentifiers) (k : Keyword) :
    k.spelling.toList ≠ w.toList := by
  have hall : ∀ k ∈ keywords, search k.spelling.toList systemIdentifiers = false := by
    decide +kernel
  intro he
  have hfound := (search_iff (pairwise_of_rising rising_systemIdentifiers) _).mpr ⟨w, hw, he⟩
  rw [hall k k.mem_keywords] at hfound
  cases hfound

theorem kind_of_systemIdentifier (hw : w ∈ systemIdentifiers) (h : upper s = w.toList) :
    kind quoted s = .systemIdentifier := by
  have hname := isName_of_mem_systemIdentifiers hw
  have hother := spelling_ne_of_mem_systemIdentifiers hw
  have hkeyword : Keyword.ofText? s = none := by
    refine Option.eq_none_iff_forall_ne_some.mpr fun k hk => ?_
    exact hother k ((Keyword.ofText?_eq_some_iff.mp hk).symm.trans h)
  have hword : ¬ operatorWords.any (·.toList == w.toList) = true := by
    intro hany
    obtain ⟨k, -, he⟩ := (any_operatorWords _).mp hany
    exact hother k he
  have hand : w.toList ≠ "AND".toList := (hother .and).symm
  have hor : w.toList ≠ "OR".toList := (hother .or).symm
  rw [hname.kind_eq h, if_neg hword, wordKind, hname.ofText?_eq_none h, h, hkeyword]
  simp only [if_neg hand, if_neg hor, isSystemIdentifier_iff.mpr ⟨w, hw, h⟩, if_true]

theorem kind_of_systemVariable (hw : w ∈ systemVariables) (h : upper s = w.toList) :
    kind quoted s = .systemVariable := by
  have hat : s.head? = some '@' := by
    rw [← head?_upper (by decide), h]
    exact head?_of_mem_systemVariables w hw
  obtain ⟨t, rfl⟩ := List.head?_eq_some_iff.mp hat
  have hblank : isBlank '@' = false := rfl
  have hname : isSystemVariable ('@' :: t) = true := isSystemVariable_iff.mpr ⟨w, hw, h⟩
  simp only [kind, hblank, hname, Bool.false_eq_true, if_false, if_true]

end Lexeme

/-- No word stands twice, neither in one of the tables nor in two of them. -/
theorem nodup_vocabulary : (vocabulary.map String.toList).Nodup := by
  simp only [vocabulary, List.map_append, List.map_map, List.nodup_append, List.mem_append]
  refine ⟨⟨Keyword.nodup_spelling, nodup_of_rising rising_systemIdentifiers, ?_⟩,
    nodup_of_rising rising_systemVariables, ?_⟩
  · intro s hs t ht
    obtain ⟨k, -, rfl⟩ := List.mem_map.mp hs
    obtain ⟨w, hw, rfl⟩ := List.mem_map.mp ht
    exact spelling_ne_of_mem_systemIdentifiers hw k
  · intro s hs t ht
    obtain ⟨v, hv, rfl⟩ := List.mem_map.mp ht
    rcases hs with hs | hs
    · obtain ⟨k, -, rfl⟩ := List.mem_map.mp hs
      exact (isName_spelling k).ne_systemVariable hv
    · obtain ⟨w, hw, rfl⟩ := List.mem_map.mp hs
      exact (isName_of_mem_systemIdentifiers hw).ne_systemVariable hv

/-- What a lexeme is told to be by the tables. -/
structure Lexeme.LookedUp (quoted : Bool) (s : List Char) : Prop where
  keyword : ∀ k, kind quoted s = .keyword k ↔ upper s = k.spelling.toList ∧ k ∉ Keyword.joining
  connective : ∀ k, (∃ c, kind quoted s = .connective c ∧ c.keyword = k) ↔
    (k = .and ∨ k = .or) ∧ upper s = k.spelling.toList
  systemIdentifier :
    kind quoted s = .systemIdentifier ↔ ∃ w ∈ systemIdentifiers, upper s = w.toList
  systemVariable : kind quoted s = .systemVariable ↔ ∃ w ∈ systemVariables, upper s = w.toList
  once : (vocabulary.map String.toList).count (upper s) ≤ 1

theorem Lexeme.lookedUp (quoted : Bool) (s : List Char) : LookedUp quoted s where
  keyword k := by
    constructor
    · intro h
      obtain ⟨w, hw, hs⟩ := (upper_of_kind h (by simp [Kind.words])).resolve_right (by simp)
      obtain rfl := List.mem_singleton.mp hw
      exact ⟨hs, (Keyword.kind_eq_keyword_iff.mp ((kind_of_spelling hs).symm.trans h)).2⟩
    · intro ⟨hs, hk⟩
      exact (kind_of_spelling hs).trans (Keyword.kind_eq_keyword_iff.mpr ⟨rfl, hk⟩)
  connective k := by
    constructor
    · intro ⟨c, h, hk⟩
      obtain ⟨w, hw, hs⟩ := (upper_of_kind h (by simp [Kind.words])).resolve_right (by simp)
      obtain rfl := List.mem_singleton.mp hw
      subst hk
      exact ⟨by cases c <;> simp [Connective.keyword], hs⟩
    · intro ⟨hk, hs⟩
      have hkind : kind quoted s = k.kind := kind_of_spelling hs
      rcases hk with rfl | rfl
      · exact ⟨.and, hkind, rfl⟩
      · exact ⟨.or, hkind, rfl⟩
  systemIdentifier := by
    constructor
    · intro h
      exact (upper_of_kind h (by simp [Kind.words, systemIdentifiers])).resolve_right (by simp)
    · intro ⟨w, hw, hs⟩
      exact kind_of_systemIdentifier hw hs
  systemVariable := by
    constructor
    · intro h
      exact (upper_of_kind h (by simp [Kind.words, systemVariables])).resolve_right (by simp)
    · intro ⟨w, hw, hs⟩
      exact kind_of_systemVariable hw hs
  once := List.nodup_iff_count_le_one.mp nodup_vocabulary _

/-- What is looked up is found exactly if it is in the table, so that a lexeme is a word just for its
letters. The words that join others are no keywords to the parser. -/
theorem words_exact :
    (∀ (quoted : Bool) (s : List Char), LookedUp quoted s) ∧
      (∀ t, search t systemIdentifiers = true ↔ ∃ w ∈ systemIdentifiers, t = w.toList) ∧
      (∀ t, search t systemVariables = true ↔ ∃ w ∈ systemVariables, t = w.toList) ∧
      ∀ (settings : Settings) (text : List Char), ∀ t ∈ tokenize settings text,
        ∀ k ∈ [Keyword.and, .or, .like, .not, .is, .in], t.kind ≠ .keyword k := by
  refine ⟨lookedUp, search_iff (pairwise_of_rising rising_systemIdentifiers),
    search_iff (pairwise_of_rising rising_systemVariables), fun settings text t ht k hk h => ?_⟩
  obtain ⟨c, v, -, hlexeme, -⟩ := run_of_mem_tokenize ht
  have hkind : kind settings.quoted (c :: ((Munch.start c).run v).1) = .keyword k :=
    (congrArg Token.kind hlexeme).symm.trans h
  exact (((lookedUp _ _).keyword k).mp hkind).2 hk

/-- AND and NOT between two keywords, in small letters or in capitals. -/
theorem words_exact_predicate :
    let text := "ASC aND not AS".toList
    tokenize {} text = [⟨.keyword .asc, 0, "ASC".toList⟩, ⟨.connective .and, 4, "aND".toList⟩,
        ⟨.operator, 8, "not".toList⟩, ⟨.keyword .as, 12, "AS".toList⟩] ∧
      ∀ t ∈ tokenize {} text, t.kind ≠ .keyword .and ∧ t.kind ≠ .keyword .not := by
  intro text
  refine ⟨by decide +kernel, fun t ht => ?_⟩
  have hnone := words_exact.2.2.2 {} text t ht
  exact ⟨hnone .and (by simp), hnone .not (by simp)⟩

end SqlOutline
