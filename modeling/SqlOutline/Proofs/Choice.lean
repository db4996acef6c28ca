import SqlOutline.Proofs.Scan

namespace SqlOutline
open Parse

/-- The keyword of the next token, if that is one. -/
def Ahead.keyword? (s : Ahead) : Option Keyword :=
  s.head?.bind fun t =>
    match t.kind with
    | .keyword k => some k
    | _ => none

namespace Ahead

theorem atKeyword_iff {s : Ahead} {ks : List Keyword} :
    s.atKeyword ks = true ↔ ∃ k ∈ ks, s.keyword? = some k := by
  cases s with
  | nil => simp [atKeyword, keyword?]
  | cons t s =>
    cases ht : t.kind <;> simp [atKeyword, keyword?, Token.isOneOf, Token.isKeyword, ht]

theorem atKeyword_eq {s : Ahead} {k : Keyword} (h : s.keyword? = some k) (ks : List Keyword) :
    s.atKeyword ks = decide (k ∈ ks) := by
  rw [Bool.eq_iff_iff, atKeyword_iff]
  simp [h]

theorem head?_of_keyword? {s : Ahead} {k : Keyword} (h : s.keyword? = some k) :
    ∃ t, s.head? = some t ∧ t.kind = .keyword k := by
  cases s with
  | nil => simp [keyword?] at h
  | cons t s => cases ht : t.kind <;> simp_all [keyword?]

end Ahead

theorem Clause.Scan.keyword? {sub : Parse Select} {kind : ClauseKind} {s r : Ahead} {c : Clause}
    {scope : Scope} (h : Scan sub kind s c scope r) :
    ∃ k ∈ kind.rule.leading, s.keyword? = some k := by
  cases h with
  | @mk lead s _ _ _ _ _ leading =>
    have h : Ahead.atKeyword kind.rule.leading (lead :: s) = true := leading
    exact Ahead.atKeyword_iff.mp h

variable {sub : Parse Select} {s r : Ahead}

theorem Parse.keyword?_of_clause {kind : ClauseKind} {c : Clause} {k : Keyword}
    (h : (clause sub kind).Gives s c r) (hk : kind.rule.leading = [k]) : s.keyword? = some k := by
  obtain ⟨scope, hc⟩ := gives_clause.mp h
  obtain ⟨k', hm, hs⟩ := hc.keyword?
  rw [hk, List.mem_singleton] at hm
  rw [hs, hm]

theorem Parse.keyword?_of_clause_bind {α : Type} {kind : ClauseKind} {f : Clause → Parse α} {a : α}
    {k : Keyword} (h : (clause sub kind >>= f).Gives s a r) (hk : kind.rule.leading = [k]) :
    s.keyword? = some k := by
  obtain ⟨c, m, hc, -⟩ := gives_bind.mp h
  exact keyword?_of_clause hc hk

theorem Select.keyword?_of_read {w : Option Clause} {q : Select}
    (h : (Select.read sub w).Gives s q r) : s.keyword? = some .select := by
  obtain ⟨core, m, hc, -⟩ := gives_bind.mp h
  exact Parse.keyword?_of_clause_bind hc rfl

/-- Where the rows of an INSERT come from, as the next keyword decides. -/
inductive Source.Read (sub : Parse Select) : Ahead → Source → Ahead → Prop where
  | values {s r : Ahead} {c : Clause} (h : (clause sub .values).Gives s c r) :
      Read sub s (.values c) r
  | select {s r : Ahead} {q : Select} (h : (Select.read sub none).Gives s q r) :
      Read sub s (.select q) r
  | defaultValues {s r : Ahead} {c : Clause} (h : (clause sub .defaultValues).Gives s c r) :
      Read sub s (.defaultValues c) r
  | execute {s r : Ahead} {c : Clause} (h : (clause sub .execute).Gives s c r) :
      Read sub s (.execute c) r

theorem Parse.gives_ite_atKeyword {α : Type} {ks : List Keyword} {p q : Parse α} {a : α} :
    (atKeyword ks >>= fun b => if b = true then p else q).Gives s a r ↔
      if s.atKeyword ks = true then p.Gives s a r else q.Gives s a r := by
  simp only [gives_bind, gives_atKeyword]
  constructor
  · intro h
    obtain ⟨b, m, ⟨rfl, rfl⟩, h⟩ := h
    split <;> simp_all
  · intro h
    refine ⟨_, _, ⟨rfl, rfl⟩, ?_⟩
    split <;> simp_all

theorem Statement.gives_readSource {source : Source} :
    (readSource sub).Gives s source r ↔ Source.Read sub s source r := by
  simp only [readSource, gives_ite_atKeyword]
  constructor
  · intro h
    split at h
    · obtain ⟨c, hc, rfl⟩ := gives_map.mp h
      exact .values hc
    split at h
    · obtain ⟨q, hq, rfl⟩ := gives_map.mp h
      exact .select hq
    split at h
    · obtain ⟨c, hc, rfl⟩ := gives_map.mp h
      exact .defaultValues hc
    split at h
    · obtain ⟨c, hc, rfl⟩ := gives_map.mp h
      exact .execute hc
    · exact absurd h gives_failExpecting
  · intro h
    cases h with
    | values h =>
      have hk := Parse.keyword?_of_clause h rfl
      simpa [Ahead.atKeyword_eq hk] using h
    | select h =>
      have hk := Select.keyword?_of_read h
      simpa [Ahead.atKeyword_eq hk] using h
    | defaultValues h =>
      have hk := Parse.keyword?_of_clause h rfl
      simpa [Ahead.atKeyword_eq hk] using h
    | execute h =>
      obtain ⟨scope, hc⟩ := gives_clause.mp h
      obtain ⟨k, hk, hs⟩ := hc.keyword?
      have : k = .exec ∨ k = .execute := by simpa [ClauseKind.rule] using hk
      rcases this with rfl | rfl <;> simpa [Ahead.atKeyword_eq hs] using h

/-- The statement that the next keyword starts. -/
inductive Statement.Main (sub : Parse Select) (w : Option Clause) :
    Ahead → Statement → Ahead → Prop where
  | select {s r : Ahead} {q : Select} (h : (Select.read sub w).Gives s q r) :
      Main sub w s (.select q) r
  | insert {s r : Ahead} {i : Insert} (h : (readInsert sub w).Gives s i r) :
      Main sub w s (.insert i) r
  | update {s r : Ahead} {u : Update} (h : (readUpdate sub w).Gives s u r) :
      Main sub w s (.update u) r
  | delete {s r : Ahead} {d : Delete} (h : (readDelete sub w).Gives s d r) :
      Main sub w s (.delete d) r
  | merge {s r : Ahead} {m : Merge} (h : (readMerge sub w).Gives s m r) :
      Main sub w s (.merge m) r

theorem Statement.gives_readMain {w : Option Clause} {statement : Statement} :
    (readMain sub w).Gives s statement r ↔ Main sub w s statement r := by
  simp only [readMain, gives_bind, gives_current]
  constructor
  · intro h
    obtain ⟨t, m, ⟨rfl, rfl⟩, h⟩ := h
    split at h
    · exact absurd h gives_failExpecting
    · split at h
      · obtain ⟨q, hq, rfl⟩ := gives_map.mp h
        exact .select hq
      · obtain ⟨i, hi, rfl⟩ := gives_map.mp h
        exact .insert hi
      · obtain ⟨u, hu, rfl⟩ := gives_map.mp h
        exact .update hu
      · obtain ⟨d, hd, rfl⟩ := gives_map.mp h
        exact .delete hd
      · obtain ⟨e, he, rfl⟩ := gives_map.mp h
        exact .merge he
      · split at h <;> simp at h
  · intro h
    refine ⟨_, _, ⟨rfl, rfl⟩, ?_⟩
    cases h with
    | select h =>
      obtain ⟨t, ht, hk⟩ := Ahead.head?_of_keyword? (Select.keyword?_of_read h)
      simp only [ht, hk]
      exact gives_map.mpr ⟨_, h, rfl⟩
    | insert h =>
      obtain ⟨t, ht, hk⟩ := Ahead.head?_of_keyword? (Parse.keyword?_of_clause_bind h rfl)
      simp only [ht, hk]
      exact gives_map.mpr ⟨_, h, rfl⟩
    | update h =>
      obtain ⟨t, ht, hk⟩ := Ahead.head?_of_keyword? (Parse.keyword?_of_clause_bind h rfl)
      simp only [ht, hk]
      exact gives_map.mpr ⟨_, h, rfl⟩
    | delete h =>
      obtain ⟨t, ht, hk⟩ := Ahead.head?_of_keyword? (Parse.keyword?_of_clause_bind h rfl)
      simp only [ht, hk]
      exact gives_map.mpr ⟨_, h, rfl⟩
    | merge h =>
      obtain ⟨t, ht, hk⟩ := Ahead.head?_of_keyword? (Parse.keyword?_of_clause_bind h rfl)
      simp only [ht, hk]
      exact gives_map.mpr ⟨_, h, rfl⟩

end SqlOutline
