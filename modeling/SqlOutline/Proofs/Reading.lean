import Mathlib.Logic.Function.Iterate
import SqlOutline.Token.Source
import SqlOutline.Token.Tokenize

namespace SqlOutline
open Lexeme

namespace Reader

variable {r : Reader}

theorem read_unread (h : r.read.1 = true) :
    r.unread = r.read.2.current :: r.read.2.unread ∧ r.read.2.putBack.unread = r.unread := by
  unfold read at h ⊢
  unfold unread putBack
  cases he : r.ended with
  | true => simp [he] at h
  | false =>
    cases hr : r.returned with
    | some c => simp
    | none => cases ha : r.ahead <;> simp_all

theorem unread_of_read_false (h : r.read.1 = false) : r.unread = [] ∧ r.read.2.unread = [] := by
  unfold read at h ⊢
  unfold unread
  cases he : r.ended with
  | true => simp [he]
  | false =>
    cases hr : r.returned with
    | some c => simp [he, hr] at h
    | none => cases ha : r.ahead <;> simp_all

end Reader

/-- The characters `u` are still to be read, the first of them from place `p`. Where none is left the
place means nothing: a read beyond the end counts no further, and what is put back is counted
already. -/
structure Reader.At (r : Reader) (p : Nat) (u : List Char) : Prop where
  unread : r.unread = u
  place : u ≠ [] → r.position + (if r.returned.isSome then 0 else 1) = p

namespace Reader.At

variable {r : Reader} {p : Nat} {c : Char} {u : List Char}

theorem start (u : List Char) : ({ ahead := u } : Reader).At 0 u :=
  ⟨rfl, fun _ => rfl⟩

theorem read_nil (h : r.At p []) : r.read.1 = false ∧ ∀ q, r.read.2.At q [] := by
  have hu := h.unread
  unfold Reader.unread at hu
  cases he : r.ended with
  | true =>
    refine ⟨by simp [read, he], fun q => ⟨?_, absurd rfl⟩⟩
    simp [read, he, Reader.unread]
  | false =>
    simp only [he, Bool.false_eq_true, if_false, List.append_eq_nil_iff,
      Option.toList_eq_nil_iff] at hu
    obtain ⟨hr, ha⟩ := hu
    refine ⟨by simp [read, he, hr, ha], fun q => ⟨?_, absurd rfl⟩⟩
    simp [read, he, hr, ha, Reader.unread]

theorem read_cons (h : r.At p (c :: u)) :
    r.read.1 = true ∧ r.read.2.current = c ∧ r.read.2.position = p ∧ r.read.2.At (p + 1) u ∧
      r.read.2.putBack.At p (c :: u) := by
  have hu := h.unread
  have hp := h.place (List.cons_ne_nil c u)
  unfold Reader.unread at hu
  cases he : r.ended with
  | true => simp [he] at hu
  | false =>
    cases hr : r.returned with
    | some d =>
      simp only [he, hr, Bool.false_eq_true, if_false, Option.toList_some, List.singleton_append,
        List.cons.injEq] at hu
      obtain ⟨rfl, rfl⟩ := hu
      simp only [hr, Option.isSome_some, if_true] at hp
      refine ⟨?_, ?_, ?_, ⟨?_, fun _ => ?_⟩, ⟨?_, fun _ => ?_⟩⟩ <;>
        simp [read, he, hr, Reader.unread, putBack] <;> omega
    | none =>
      simp only [he, hr, Bool.false_eq_true, if_false, Option.toList_none, List.nil_append] at hu
      simp only [hr, Option.isSome_none, Bool.false_eq_true, if_false] at hp
      refine ⟨?_, ?_, ?_, ⟨?_, fun _ => ?_⟩, ⟨?_, fun _ => ?_⟩⟩ <;>
        simp [read, he, hr, hu, Reader.unread, putBack] <;> omega

/-- Whatever a lexeme takes, the character after it is read next, from its own place. -/
theorem munch (h : r.At p u) (m : Munch) :
    (r.munch m).1 = (m.run u).1 ∧ (r.munch m).2.At (p + (m.run u).1.length) (m.run u).2 := by
  induction u generalizing r m p with
  | nil =>
    obtain ⟨hread, hrest⟩ := h.read_nil
    rw [Reader.munch, hread]
    exact ⟨rfl, hrest _⟩
  | cons c u ih =>
    obtain ⟨hread, rfl, -, hrest, hback⟩ := h.read_cons
    rw [Reader.munch, if_pos hread, Munch.run]
    cases m.next r.read.2.current with
    | none => exact ⟨rfl, hback⟩
    | some m' =>
      obtain ⟨hlex, hat⟩ := ih hrest m'
      refine ⟨congrArg _ hlex, ?_⟩
      rw [List.length_cons, Nat.add_comm _ 1, ← Nat.add_assoc]
      exact hat

/-- Reading past blanks reads the first character behind them. -/
theorem readPastBlanks (h : r.At p u) :
    ∃ r' : Reader, r.readPastBlanks = r'.read ∧
      r'.At (p + (u.takeWhile Text.isBlank).length) (u.dropWhile Text.isBlank) := by
  induction u generalizing r p with
  | nil =>
    refine ⟨r, ?_, h⟩
    rw [Reader.readPastBlanks, h.read_nil.1]
    rfl
  | cons c u ih =>
    obtain ⟨hread, rfl, -, hrest, -⟩ := h.read_cons
    rw [Reader.readPastBlanks, if_pos hread]
    by_cases hb : Text.isBlank r.read.2.current = true
    · obtain ⟨r', hr, hat⟩ := ih hrest
      refine ⟨r', by rw [if_pos hb, hr], ?_⟩
      rw [List.takeWhile_cons_of_pos hb, List.dropWhile_cons_of_pos hb, List.length_cons,
        Nat.add_comm _ 1, ← Nat.add_assoc]
      exact hat
    · refine ⟨r, if_neg hb, ?_⟩
      rw [List.takeWhile_cons_of_neg hb, List.dropWhile_cons_of_neg hb]
      exact h

end Reader.At

/-- Blanks in front make no difference where they are no tokens. -/
theorem tokensAt_dropBlanks {s : Settings} (hs : s.blanks = false) (p : Nat) (u : List Char) :
    tokensAt s (p + (u.takeWhile Text.isBlank).length) (u.dropWhile Text.isBlank) =
      tokensAt s p u := by
  induction u generalizing p with
  | nil => rfl
  | cons c u ih =>
    by_cases hb : Text.isBlank c = true
    · rw [List.takeWhile_cons_of_pos hb, List.dropWhile_cons_of_pos hb, List.length_cons,
        Nat.add_comm _ 1, ← Nat.add_assoc, ih]
      simp [tokensAt, hb, hs]
    · rw [List.takeWhile_cons_of_neg hb, List.dropWhile_cons_of_neg hb]
      rfl

/-- Where the next token starts, if one does. Every reader at one place reads on from there. -/
theorem exists_tokenStart (s : Settings) (p : Nat) (u : List Char) : ∃ (p' : Nat) (u' : List Char),
    (∀ {r : Reader}, r.At p u → ∃ r' : Reader,
      (if s.blanks then r.read else r.readPastBlanks) = r'.read ∧ r'.At p' u') ∧
    tokensAt s p' u' = tokensAt s p u ∧
    ∀ c ∈ u'.head?, (Text.isBlank c && !s.blanks) = false := by
  cases hs : s.blanks with
  | true => exact ⟨p, u, fun {r} hat => ⟨r, rfl, hat⟩, rfl, by simp⟩
  | false =>
    refine ⟨_, _, fun hat => hat.readPastBlanks, tokensAt_dropBlanks hs p u, fun c hc => ?_⟩
    have hfirst := List.head?_dropWhile_not Text.isBlank u
    rw [hc] at hfirst
    simpa using hfirst

namespace TokenSource

/-- The source has `ts` still to give. -/
structure Holds (src : TokenSource) (ts : List Token) : Prop where
  rest : src.ended = false → ∃ p u, src.reader.At p u ∧ tokensAt src.settings p u = ts
  done : src.ended = true → ts = []

theorem holds_ofText (s : Settings) (u : List Char) : (ofText s u).Holds (tokenize s u) :=
  ⟨fun _ => ⟨0, u, .start u, rfl⟩, fun h => by cases h⟩

/-- A reader at the first character of a token, or at the end of the text. -/
theorem Holds.reads {src : TokenSource} {ts : List Token} (h : src.Holds ts)
    (he : src.ended = false) :
    ∃ (r : Reader) (p : Nat) (u : List Char),
      (if src.settings.blanks then src.reader.read else src.reader.readPastBlanks) = r.read ∧
      r.At p u ∧ tokensAt src.settings p u = ts ∧
      ∀ c ∈ u.head?, (Text.isBlank c && !src.settings.blanks) = false := by
  obtain ⟨p, u, hat, rfl⟩ := h.rest he
  obtain ⟨p', u', hreads, htokens, hfirst⟩ := exists_tokenStart src.settings p u
  obtain ⟨r, hr, hat'⟩ := hreads hat
  exact ⟨r, p', u', hr, hat', htokens, hfirst⟩

theorem Holds.advance {src : TokenSource} {ts : List Token} (h : src.Holds ts) :
    src.advance.current = ts.head? ∧ src.advance.Holds ts.tail := by
  cases he : src.ended with
  | true =>
    obtain rfl := h.done he
    simp only [TokenSource.advance, he, if_true]
    exact ⟨rfl, fun hf => (by cases hf), fun _ => rfl⟩
  | false =>
    obtain ⟨r, p, u, hr, hat, rfl, hblank⟩ := h.reads he
    simp only [TokenSource.advance, he, hr, Bool.false_eq_true, if_false]
    cases u with
    | nil =>
      simp only [hat.read_nil.1, Bool.false_eq_true, if_false, tokensAt]
      exact ⟨rfl, ⟨fun hf => (by cases hf), fun _ => rfl⟩⟩
    | cons c u =>
      obtain ⟨hread, hc, hp, hrest, -⟩ := hat.read_cons
      obtain ⟨hlex, hnext⟩ := hrest.munch (.start c)
      simp only [hread, if_true, hc, hp, hlex, Int.toNat_natCast, tokensAt, hblank c rfl,
        Bool.false_eq_true, if_false]
      exact ⟨rfl, ⟨fun _ => ⟨_, _, hnext, rfl⟩, fun hf => (by cases hf)⟩⟩

/-- After any number of moves the source stands at the token of that number. -/
theorem Holds.current_iterate {src : TokenSource} {ts : List Token} (h : src.Holds ts) (k : Nat) :
    (TokenSource.advance^[k + 1] src).current = ts[k]? := by
  induction k generalizing src ts with
  | zero =>
    rw [Function.iterate_one, h.advance.1]
    exact List.head?_eq_getElem?
  | succ k ih =>
    rw [Function.iterate_succ_apply, ih h.advance.2, List.getElem?_tail]

end TokenSource

end SqlOutline
