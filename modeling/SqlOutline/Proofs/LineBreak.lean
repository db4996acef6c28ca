import SqlOutline.Proofs.OpenLexeme
import SqlOutline.Proofs.Slice

namespace SqlOutline
open Lexeme

/-- Every token is complete, and the last is no binary literal that would go on with a line break. -/
structure LexicallyClosed (ts : List Token) : Prop where
  complete : ∀ t ∈ ts, t.kind.isIncomplete = false
  ends : ∀ t ∈ ts.getLast?, t.kind = .binary → ¬ ['\\'] <:+ t.text ∧ ¬ ['\\', '\r'] <:+ t.text

instance (ts : List Token) : Decidable (LexicallyClosed ts) :=
  decidable_of_iff ((∀ t ∈ ts, t.kind.isIncomplete = false) ∧
      ∀ t ∈ ts.getLast?, t.kind = .binary → ¬ ['\\'] <:+ t.text ∧ ¬ ['\\', '\r'] <:+ t.text)
    ⟨fun h => ⟨h.1, h.2⟩, fun h => ⟨h.complete, h.ends⟩⟩

theorem LexicallyClosed.tail {t : Token} {ts : List Token} (h : LexicallyClosed (t :: ts)) :
    LexicallyClosed ts := by
  refine ⟨fun u hu => h.complete u (List.mem_cons_of_mem t hu), fun u hu => h.ends u ?_⟩
  cases ts with
  | nil => cases hu
  | cons v ts => exact hu

theorem LexicallyClosed.closes {c : Char} {u : List Char} {m : Munch} {quoted : Bool} {p : Nat}
    (h : LexicallyClosed [.ofLexeme quoted p (c :: u)]) (hm : (Munch.start c).after u = some m) :
    m = .blank ∨ m.next '\n' = none :=
  ((Munch.shape_start c).after hm).lineBreak (h.complete _ List.mem_cons_self) (h.ends _ rfl)

theorem kind_of_isBlank {c : Char} (hc : Text.isBlank c = true) (quoted : Bool) (t : List Char) :
    kind quoted (c :: t) = .whitespace := by
  simp [kind, hc]

/-- A state that lasts while a test holds takes in all that passes it. -/
theorem Lexeme.Munch.run_while {m : Munch} {p : Char → Bool}
    (h : ∀ c, m.next c = if p c then some m else none) (t : List Char) :
    m.run t = (t.takeWhile p, t.dropWhile p) := by
  induction t with
  | nil => rfl
  | cons c t ih =>
    by_cases hc : p c = true
    · simp [run, h, hc, ih]
    · simp [run, h, hc]

theorem Lexeme.Munch.run_blank (t : List Char) :
    Munch.blank.run t = (t.takeWhile Text.isBlank, t.dropWhile Text.isBlank) :=
  run_while (fun _ => rfl) t

variable {s : Settings}

/-- Tokens that are blanks and nothing else. Where blanks are no tokens there are none. -/
def Blanks (s : Settings) (ts : List Token) : Prop :=
  (∀ t ∈ ts, t.kind = .whitespace) ∧ (s.blanks = false → ts = [])

theorem Blanks.nil (s : Settings) : Blanks s [] :=
  ⟨by simp, fun _ => rfl⟩

theorem Blanks.isTrivia {ts : List Token} (h : Blanks s ts) : ∀ t ∈ ts, t.isTrivia = true := by
  intro t ht
  rw [Token.isTrivia, h.1 t ht]
  rfl

theorem Blanks.ofLexeme {c : Char} (hb : s.blanks = true) (hc : Text.isBlank c = true) (p : Nat)
    (t : List Char) : Blanks s [.ofLexeme s.quoted p (c :: t)] := by
  refine ⟨fun u hu => ?_, by simp [hb]⟩
  obtain rfl := List.mem_singleton.mp hu
  exact kind_of_isBlank hc _ _

/-- A line break in front is a blank, or makes one with those behind it. -/
theorem tokensAt_newline (s : Settings) (p : Nat) (v : List Char) :
    ∃ gap, Blanks s gap ∧ tokensAt s p ('\n' :: v) = gap ++
      tokensAt s (p + 1 + (v.takeWhile Text.isBlank).length) (v.dropWhile Text.isBlank) := by
  have hn : Text.isBlank '\n' = true := rfl
  cases hb : s.blanks with
  | false =>
    refine ⟨[], .nil s, ?_⟩
    rw [tokensAt, hn, hb, tokensAt_dropBlanks hb]
    rfl
  | true =>
    refine ⟨_, .ofLexeme hb hn p (v.takeWhile Text.isBlank), ?_⟩
    rw [tokensAt, hn, hb, if_neg (by simp)]
    simp only [Munch.start, hn, if_true, Munch.run_blank, List.singleton_append]

/-- A line break behind a text that is closed leaves its tokens as they are, and what follows has its
tokens as on its own. Only blanks run together. -/
theorem tokensAt_lineBreak (p : Nat) (u v : List Char) (h : LexicallyClosed (tokensAt s p u)) :
    ∃ ts gap gap', tokensAt s p u = ts ++ gap ∧ Blanks s gap ∧ Blanks s gap' ∧
      tokensAt s p (u ++ '\n' :: v) = ts ++ (gap' ++
        tokensAt s (p + u.length + 1 + (v.takeWhile Text.isBlank).length)
          (v.dropWhile Text.isBlank)) := by
  fun_induction tokensAt s p u with
  | case1 p =>
    obtain ⟨gap', hgap', htokens⟩ := tokensAt_newline s p v
    exact ⟨[], [], gap', rfl, .nil s, hgap', htokens⟩
  | case2 p c u hb ih =>
    obtain ⟨ts, gap, gap', hts, hgap, hgap', htokens⟩ := ih h
    refine ⟨ts, gap, gap', hts, hgap, hgap', ?_⟩
    rw [List.cons_append, tokensAt, if_pos hb, htokens, List.length_cons, Nat.add_assoc p,
      Nat.add_comm 1]
  | case3 p c u hb run ih =>
    have hrun : run.1 ++ run.2 = u := Munch.run_append _ _
    rw [List.cons_append, tokensAt, if_neg hb]
    rcases Munch.after_or_run (Munch.start c) u with ⟨m, hm⟩ | ⟨-, hlocal⟩
    · -- The text ends with this lexeme, so that the line break decides whether it does.
      have hall : run = (u, []) := Munch.run_of_after hm
      simp only [hall, tokensAt, Munch.run_append_of_after hm] at h ⊢
      rcases h.closes hm with rfl | hstop
      · have hblank : Text.isBlank c = true := by
          obtain ⟨d, t, heq, hd⟩ := (Munch.shape_start c).after hm
          obtain ⟨rfl, -⟩ := List.cons.inj heq
          exact hd
        have hs : s.blanks = true := by simpa [hblank] using hb
        refine ⟨[], _, _, rfl, .ofLexeme hs hblank p u,
          .ofLexeme hs hblank p (u ++ '\n' :: v.takeWhile Text.isBlank), ?_⟩
        have hn : Text.isBlank '\n' = true := rfl
        have hlen : p + 1 + (u ++ '\n' :: v.takeWhile Text.isBlank).length =
            p + (c :: u).length + 1 + (v.takeWhile Text.isBlank).length := by
          rw [List.length_append, List.length_cons, List.length_cons]
          omega
        rw [Munch.run_blank, List.takeWhile_cons_of_pos hn, List.dropWhile_cons_of_pos hn, hlen]
        rfl
      · obtain ⟨gap', hgap', htokens⟩ := tokensAt_newline s (p + 1 + u.length) v
        refine ⟨_, [], gap', (List.append_nil _).symm, .nil s, hgap', ?_⟩
        simp only [Munch.run, hstop, List.append_nil, List.singleton_append, htokens]
        rw [List.length_cons, Nat.add_assoc p, Nat.add_comm 1]
    · obtain ⟨ts, gap, gap', hts, hgap, hgap', htokens⟩ := ih h.tail
      refine ⟨_ :: ts, gap, gap', by rw [hts]; rfl, hgap, hgap', ?_⟩
      have hlen : p + 1 + run.1.length + run.2.length = p + (c :: u).length := by
        rw [← hrun, List.length_cons, List.length_append]
        omega
      simp only [hlocal ('\n' :: v)]
      rw [← hlen]
      exact congrArg (_ :: ·) htokens

/-- Where blanks are no tokens a line break separates the tokens before it from those behind it. -/
theorem tokensAt_newLine {p : Nat} {u : List Char} (hb : s.blanks = false)
    (h : LexicallyClosed (tokensAt s p u)) (v : List Char) :
    tokensAt s p (u ++ '\n' :: v) = tokensAt s p u ++ tokensAt s (p + u.length + 1) v := by
  obtain ⟨ts, gap, gap', hts, hgap, hgap', hmore⟩ := tokensAt_lineBreak p u v h
  obtain rfl := hgap.2 hb
  obtain rfl := hgap'.2 hb
  rw [hmore, hts, List.append_nil, List.nil_append, tokensAt_dropBlanks hb]

/-- A lexeme on a new line leaves the tokens before it as they are, and those behind it are as on
their own. -/
theorem tokenize_newLine {text w more : List Char} {c : Char} (hb : s.blanks = false)
    (h : LexicallyClosed (tokenize s text)) (hc : Text.isBlank c = false)
    (hrun : (Munch.start c).run (w ++ more) = (w, more)) :
    tokenize s (text ++ '\n' :: c :: (w ++ more)) =
      tokenize s text ++ .ofLexeme s.quoted (text.length + 1) (c :: w) ::
        (tokenize s more).map (.later (text.length + 1 + (c :: w).length)) := by
  have hlen : text.length + 1 + 1 + w.length = text.length + 1 + (c :: w).length := by
    rw [List.length_cons]
    omega
  rw [tokenize, tokensAt_newLine hb h, tokensAt, if_neg (by simp [hc])]
  simp only [hrun, Nat.zero_add, tokenize, hlen]
  rw [← tokensAt_later, Nat.zero_add]

/-- A line break is a boundary of tokens. Where a text is closed, another text on a new line leaves its
tokens as they are and has the tokens that it has on its own, each as much later as it stands. Only
what is left open goes on over the end of a line, and a binary literal behind its backslash. -/
theorem tokens_across_lineBreak (settings : Settings) (text more : List Char)
    (hb : settings.blanks = false) (h : LexicallyClosed (tokenize settings text)) :
    tokenize settings (text ++ '\n' :: more) =
      tokenize settings text ++ (tokenize settings more).map (.later (text.length + 1)) := by
  rw [tokenize, tokensAt_newLine hb h, Nat.add_assoc, tokensAt_later]
  rfl

/-- The backslash ends no literal here, and the comment takes neither the line break nor the quote
behind it. -/
theorem tokens_across_lineBreak_comment :
    let text := "0x1\\ --'".toList
    let more := "'*/".toList
    LexicallyClosed (tokenize {} text) ∧
      tokenize {} (text ++ '\n' :: more) =
        [⟨.binary, 0, "0x1\\".toList⟩, ⟨.lineComment, 5, "--'".toList⟩,
          ⟨.incompleteString, 9, "'*/".toList⟩] := by
  intro text more
  have htokens : tokenize {} text =
      [⟨.binary, 0, "0x1\\".toList⟩, ⟨.lineComment, 5, "--'".toList⟩] := by
    decide +kernel
  have hmore : tokenize {} more = [⟨.incompleteString, 0, "'*/".toList⟩] := by
    decide +kernel
  have hclosed : LexicallyClosed (tokenize {} text) := by
    rw [htokens]
    decide
  have h := tokens_across_lineBreak {} text more rfl hclosed
  rw [htokens, hmore] at h
  exact ⟨hclosed, h⟩

end SqlOutline
