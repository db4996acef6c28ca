import SqlOutline.Proofs.Congruence
import SqlOutline.Proofs.Delimited
import SqlOutline.Proofs.Significant
import SqlOutline.Proofs.Spelling

namespace SqlOutline
open Parse

namespace Fault

/-- A fault in a statement that has begun, where `r` is left. It tells of the token in front, and a
query too many of its SELECT. -/
inductive Inside : Fault → Ahead → Prop where
  | token (expected : String) (t : Token) (r : Ahead) :
      Inside (.unexpectedToken expected t.text t.start) (t :: r)
  | ended (expected : String) : Inside (.unexpectedEnd expected) []
  | nested {t : Token} (select : t.isKeyword .select = true) (limit : Nat) (r : Ahead) :
      Inside (.tooDeep limit t.start) (t :: r)

/-- A fault where `r` is left of the tokens `s`. What starts no statement is left as it was. -/
inductive At (s : Ahead) : Fault → Ahead → Prop where
  | inside {e : Fault} {r : Ahead} (h : e.Inside r) : At s e r
  | start {t : Token} {r : Ahead} (h : s = t :: r) : At s (.unrecognized t.text t.start) (t :: r)

/-- The text that the fault quotes. -/
def found? : Fault → Option (List Char)
  | .unexpectedToken _ found _ | .unrecognized found _ => some found
  | .unexpectedEnd _ | .tooDeep _ _ => none

end Fault

namespace Parse

variable {α β σ : Type} {p : Parse α} {sub : Parse Select} {s r : Ahead} {e : Fault}

/-- All faults of the parse are of a statement that has begun, and stand where it stops. -/
def Locates (p : Parse α) : Prop :=
  ∀ ⦃s : Ahead⦄ ⦃e : Fault⦄ ⦃r : Ahead⦄, p.Fails s e r → e.Inside r

namespace Locates

theorem of_never (h : ∀ s e r, ¬ p.Fails s e r) : p.Locates :=
  fun s e r hf => absurd hf (h s e r)

theorem bind {f : α → Parse β} (hp : p.Locates) (hf : ∀ a, (f a).Locates) :
    (p >>= f).Locates := by
  intro s e r h
  rcases fails_bind.mp h with h | ⟨a, m, -, h⟩
  · exact hp h
  · exact hf a h

theorem inside_fault (expected : String) (s : Ahead) :
    ((Want.token expected).fault s.head?).Inside s := by
  cases s with
  | nil => exact .ended expected
  | cons t s => exact .token expected t s

theorem failExpecting (expected : String) : (Parse.failExpecting expected : Parse α).Locates := by
  intro s e r h
  obtain ⟨rfl, rfl⟩ := fails_failExpecting.mp h
  exact inside_fault expected r

theorem expect (expected : String) (wanted : Token → Bool) :
    (Parse.expect expected wanted).Locates := by
  intro s e r h
  obtain ⟨-, rfl, rfl⟩ := fails_expect.mp h
  exact inside_fault expected r

theorem each {ks : List Keyword} {item : Token → Parse α} (h : ∀ t, (item t).Locates) :
    (Parse.each ks item).Locates := by
  intro s e r hf
  induction fails_each.mp hf with
  | here _ first => exact h _ first
  | later _ _ rest ih => exact ih (fails_each.mpr rest)

end Locates

/-- The faults of a subquery that is read where it starts. -/
def LocatesAtSelect (sub : Parse Select) : Prop :=
  ∀ ⦃s : Ahead⦄ ⦃e : Fault⦄ ⦃r : Ahead⦄, s.atKeyword [.select] = true → sub.Fails s e r → e.Inside r

namespace LocatesAtSelect

variable (hsub : LocatesAtSelect sub)
include hsub

theorem ite_atKeyword {f : Select → Parse β} {q : Parse β} (hf : ∀ query, (f query).Locates)
    (hq : q.Locates) :
    (atKeyword [.select] >>= fun b => if b = true then sub >>= f else q).Locates := by
  intro s e r h
  obtain ⟨b, m, hb, h⟩ := (fails_bind.mp h).resolve_left fails_atKeyword
  obtain ⟨rfl, rfl⟩ := gives_atKeyword.mp hb
  split at h
  next select =>
    rcases fails_bind.mp h with h | ⟨query, m, -, h⟩
    · exact hsub select h
    · exact hf query h
  next => exact hq h

theorem following (kind : ClauseKind) (lead : Token) :
    (Clause.following sub kind lead).Locates := by
  have second : (Clause.second kind).Locates := by
    unfold Clause.second
    split
    · exact .of_never fun _ _ _ => fails_pure
    · refine .bind (.of_never fun _ _ _ => fails_trivia) fun _ => ?_
      exact .bind (.expect _ _) fun _ => .of_never fun _ _ _ => fails_pure
  have body (scope : Scope) : (collect kind.rule.stops (Clause.piece sub) scope).Locates := by
    intro s e r h
    induction fails_collect.mp h with
    | here _ first =>
      obtain ⟨-, select, h⟩ := Clause.fails_piece.mp first
      exact hsub select h
    | later _ _ rest ih => exact ih (fails_collect.mpr rest)
  exact second.bind fun _ => (body {}).bind fun _ => .of_never fun _ _ _ => fails_pure

theorem clause (kind : ClauseKind) : (Parse.clause sub kind).Locates :=
  .bind (.expect _ _) fun lead => hsub.following kind lead

theorem clause? (kind : ClauseKind) : (Parse.clause? sub kind).Locates := by
  refine .bind (.of_never fun _ _ _ => fails_take?) fun lead => ?_
  split
  · exact (hsub.following kind _).bind fun _ => .of_never fun _ _ _ => fails_pure
  · exact .of_never fun _ _ _ => fails_pure

theorem readOperand (core : (Select.readCore sub).Locates) (operator : Clause) :
    (Select.readOperand sub operator).Locates := by
  refine .bind (.of_never fun _ _ _ => fails_take?) fun paren => ?_
  split
  · exact core.bind fun _ => .of_never fun _ _ _ => fails_pure
  · refine .bind (.of_never fun _ _ _ => fails_trivia) fun gap => ?_
    refine hsub.ite_atKeyword (fun query => ?_) (.failExpecting _)
    refine .bind (.expect _ _) fun close => ?_
    exact .bind (.of_never fun _ _ _ => fails_trivia) fun _ => .of_never fun _ _ _ => fails_pure

def trait : Trait sub where
  Holds := Locates
  pure _ := .of_never fun _ _ _ => fails_pure
  bind hp hf := by
    intro s e r h
    rcases fails_bind.mp h with h | ⟨a, m, ha, h⟩
    · exact hp h
    · exact hf ha h
  failExpecting := .failExpecting
  atKeyword _ := .of_never fun _ _ _ => fails_atKeyword
  clause := hsub.clause
  clause? := hsub.clause?
  clauses kind := .each (hsub.following kind)
  operations core := .each fun lead => (hsub.following _ lead).bind (hsub.readOperand core)

/-- Only where no WITH has promised a statement a token can start none. -/
theorem readMain {w : Option Clause} (h : (Statement.readMain sub w).Fails s e r) :
    e.Inside r ∨ w = none ∧ e.At s r := by
  obtain ⟨t, m, ht, h⟩ := (fails_bind.mp h).resolve_left fails_current
  obtain ⟨rfl, rfl⟩ := gives_current.mp ht
  split at h
  · exact .inl (Locates.failExpecting _ h)
  next t ht =>
    split at h
    · exact .inl (hsub.trait.readSelect w (fails_map.mp h))
    · exact .inl (hsub.trait.readInsert w (fails_map.mp h))
    · exact .inl (hsub.trait.readUpdate w (fails_map.mp h))
    · exact .inl (hsub.trait.readDelete w (fails_map.mp h))
    · exact .inl (hsub.trait.readMerge w (fails_map.mp h))
    · split at h
      · exact .inl (Locates.failExpecting _ h)
      next hnone =>
        obtain ⟨rfl, rfl⟩ := fails_fail.mp h
        obtain ⟨rest, rfl⟩ := List.head?_eq_some_iff.mp ht
        exact .inr ⟨by simpa using hnone, .start rfl⟩

end LocatesAtSelect

end Parse

/-- A subquery beyond the limit is found at its SELECT. -/
theorem Select.locates_readNested (depth room : Nat) :
    LocatesAtSelect (readNested depth room) := by
  induction room generalizing depth with
  | zero =>
    intro s e r hs h
    obtain ⟨rfl, rfl⟩ := fails_fail.mp h
    cases r with
    | nil => cases hs
    | cons t r => exact .nested (by simpa [Ahead.atKeyword, Token.isOneOf] using hs) depth r
  | succ room ih =>
    intro s e r _ h
    obtain ⟨_, m, hlog, h⟩ := (fails_bind.mp h).resolve_left fails_log
    exact (ih (depth + 1)).trait.readSelect none h

theorem Statement.fault_at {depth : Nat} {s r : Ahead} {e : Fault}
    (h : (read depth).Fails s e r) : e.At s r := by
  have hsub := Select.locates_readNested 0 depth
  rcases fails_bind.mp h with h | ⟨w, m, hw, h⟩
  · exact .inside (hsub.clause? _ h)
  rcases fails_bind.mp h with h | ⟨st, m', -, h⟩
  · rcases hsub.readMain h with h | ⟨rfl, hstart⟩
    · exact .inside h
    · obtain ⟨-, rfl, -⟩ := (gives_clause?.mp hw).resolve_left (by simp)
      exact hstart
  · obtain ⟨_, _, -, h⟩ := (fails_bind.mp h).resolve_left fails_log
    exact absurd h fails_pure

/-- Where a statement of a text comes to a fault, nothing that may stand between statements stood in
front of it. -/
theorem Outline.Fails.at {depth : Nat} {s r : Ahead} {e : Fault} (h : Fails depth s e r) :
    ∃ start : Ahead, (∀ t ∈ start.head?, Ahead.isNoise t = false) ∧ e.At start r := by
  induction h with
  | here _ first => exact ⟨_, Ahead.not_noise_of_dropNoise _, Statement.fault_at first⟩
  | later _ _ ih => exact ih

/-- The token that a fault tells of. At a semicolon something else was wanted in the statement. -/
theorem Fault.At.token {s r : Ahead} {e : Fault} {position : Nat} (h : e.At s r)
    (hs : ∀ t ∈ s.head?, Ahead.isNoise t = false) (hp : position ∈ e.position?) :
    ∃ t, r.head? = some t ∧ t.start = position ∧ (∀ found ∈ e.found?, found = t.text) ∧
      (t.isPunctuation .semicolon = true →
        ∃ expected, e = .unexpectedToken expected t.text position) := by
  cases h with
  | inside h =>
    cases h with
    | token expected t r =>
      cases hp
      refine ⟨t, rfl, rfl, fun found hf => ?_, fun _ => ⟨expected, rfl⟩⟩
      cases hf
      rfl
    | ended => cases hp
    | @nested t select limit r =>
      cases hp
      refine ⟨t, rfl, rfl, nofun, fun ht => ?_⟩
      simp_all [Token.isPunctuation, Token.isKeyword]
  | @start t r h =>
    subst h
    cases hp
    refine ⟨t, rfl, rfl, fun found hf => ?_, fun ht => ?_⟩
    · cases hf
      rfl
    · have hnoise := hs t rfl
      simp [Ahead.isNoise, ht] at hnoise

/-- A fault stands where the reading has stopped, at the token it tells of. A statement that ends
too early has come to the end, one subquery too many to its SELECT, and what starts no statement is
left as it was, so that another try comes to the same. In a text the token is one of its own,
neither whitespace nor a comment, and a semicolon only where something else was expected. -/
theorem fault_at_token :
    (∀ (depth : Nat) (s : Ahead) (e : Fault) (r : Ahead), (Statement.read depth).Fails s e r →
      match e with
      | .unexpectedToken _ found position =>
        ∃ t, r.head? = some t ∧ t.start = position ∧ t.text = found
      | .unexpectedEnd _ => r = []
      | .unrecognized found position =>
        (∃ t, r.head? = some t ∧ t.start = position ∧ t.text = found) ∧ r = s ∧
          (Statement.read depth).Fails r e r
      | .tooDeep _ position =>
        ∃ t, r.head? = some t ∧ t.start = position ∧ t.isKeyword .select = true) ∧
    ∀ (settings : Settings) (text : List Char) (e : Fault),
      (Outline.ofText settings text).result = .error e → ∀ position ∈ e.position?,
      position < text.length ∧ (∀ found ∈ e.found?, found <+: text.drop position) ∧
        ∃ t ∈ tokenize settings text, t.start = position ∧ (∀ found ∈ e.found?, found = t.text) ∧
          t.isTrivia = false ∧ (t.isPunctuation .semicolon = true →
            ∃ expected, e = .unexpectedToken expected [';'] position) := by
  refine ⟨fun depth s e r h => ?_, fun settings text e h position hp => ?_⟩
  · cases Statement.fault_at h with
    | inside hinside =>
      cases hinside with
      | token expected t r => exact ⟨t, rfl, rfl, rfl⟩
      | ended expected => rfl
      | @nested t select limit r => exact ⟨t, rfl, rfl, select⟩
    | @start t r hs =>
      subst hs
      exact ⟨⟨t, rfl, rfl, rfl⟩, rfl, h⟩
  · obtain ⟨r, hfails⟩ := Outline.result_eq_error_iff.mp h
    obtain ⟨start, hstart, hat⟩ := hfails.at
    obtain ⟨want, -, settled, -⟩ := hfails.want
    obtain ⟨t, ht, rfl, hfound, hsemicolon⟩ := hat.token hstart hp
    have hmem : t ∈ tokenize settings text := hfails.suffix.mem (List.mem_of_head? ht)
    obtain ⟨q, c, w, m, hlexeme, -⟩ := lexeme_of_mem_tokensAt hmem
    have hlength : 0 < t.text.length := by simp [hlexeme, Token.ofLexeme]
    obtain ⟨before, after, htext, hplace⟩ := text_of_mem_tokensAt 0 text hmem
    rw [Nat.zero_add] at hplace
    refine ⟨?_, fun found hf => ?_, t, hmem, rfl, hfound, settled t ht, fun hs => ?_⟩
    · rw [htext, hplace, List.length_append, List.length_append]
      omega
    · rw [hfound found hf, htext, hplace, List.append_assoc, List.drop_left]
      exact List.prefix_append _ _
    · obtain ⟨expected, he⟩ := hsemicolon hs
      have hsign : t.text = [';'] := by
        have hk : Lexeme.kind settings.quoted (c :: w) = .punctuation .semicolon := by
          simpa [hlexeme, Token.isPunctuation, Token.ofLexeme] using hs
        rw [hlexeme]
        exact Lexeme.eq_char_of_kind hk
      exact ⟨expected, by rw [he, hsign]⟩

/-- The SET is missing where the semicolon stands, and there the reader stops. -/
theorem fault_at_token_semicolon :
    let e : Fault := .unexpectedToken "SET" [';'] 6
    let r : Ahead := [⟨.punctuation .semicolon, 6, [';']⟩]
    let s : Ahead := ⟨.keyword .update, 0, "UPDATE".toList⟩ :: r
    let text := "UPDATE;".toList
    (Statement.read 0).Fails s e r ∧
      (∃ t, r.head? = some t ∧ t.start = 6 ∧ t.text = [';']) ∧
      (Outline.ofText { depth := 0 } text).result = .error e ∧
      6 < text.length ∧ [';'] <+: text.drop 6 := by
  intro e r s text
  have hfails : (Statement.read 0).Fails s e r := by decide +kernel
  have htokens : tokenize { depth := 0 } text = s := by decide +kernel
  have hresult : (Outline.ofText { depth := 0 } text).result = .error e := by
    rw [Outline.ofText, htokens]
    exact Outline.result_fault (by decide +kernel) hfails
  obtain ⟨hlt, hfound, -⟩ := fault_at_token.2 { depth := 0 } text e hresult 6 rfl
  exact ⟨hfails, fault_at_token.1 0 s e r hfails, hresult, hlt, hfound _ rfl⟩

end SqlOutline
