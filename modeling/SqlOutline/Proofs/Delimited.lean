import SqlOutline.Proofs.LineBreak

namespace SqlOutline
open Lexeme

/-- The text with every closer in it written twice. -/
def Text.doubled (closer : Char) (s : List Char) : List Char :=
  s.flatMap fun c => if c = closer then [c, c] else [c]

namespace Text

variable {closer : Char}

theorem doubled_self (s : List Char) :
    doubled closer (closer :: s) = closer :: closer :: doubled closer s := by
  simp [doubled]

theorem doubled_cons {c : Char} (h : c ≠ closer) (s : List Char) :
    doubled closer (c :: s) = c :: doubled closer s := by
  simp [doubled, h]

theorem head?_doubled (closer : Char) (s : List Char) : (doubled closer s).head? = s.head? := by
  cases s with
  | nil => rfl
  | cons c s => by_cases hc : c = closer <;> simp [doubled, hc]

theorem doubled_injective (closer : Char) : Function.Injective (doubled closer) := by
  intro s t h
  induction s generalizing t with
  | nil =>
    have ht : t.head? = none := by
      rw [← head?_doubled closer, ← h]
      rfl
    exact (List.head?_eq_none_iff.mp ht).symm
  | cons c s ih =>
    have ht : t.head? = some c := by
      rw [← head?_doubled closer, ← h, head?_doubled, List.head?_cons]
    obtain ⟨t, rfl⟩ := List.head?_eq_some_iff.mp ht
    by_cases hc : c = closer
    · subst c
      rw [doubled_self, doubled_self] at h
      exact congrArg _ (ih (List.cons.inj (List.cons.inj h).2).2)
    · rw [doubled_cons hc, doubled_cons hc] at h
      exact congrArg _ (ih (List.cons.inj h).2)

end Text

namespace Lexeme.Munch

variable {closer : Char} {m' : Munch}

theorem after_doubled (closer : Char) (s : List Char) :
    (quoted closer).after (Text.doubled closer s) = some (quoted closer) := by
  induction s with
  | nil => rfl
  | cons c s ih =>
    by_cases hc : c = closer
    · subst c
      simpa [Text.doubled_self, after, next] using ih
    · simpa [Text.doubled_cons hc, after, next, hc] using ih

/-- What the lexer takes in behind an opening delimiter is a text with its closers doubled, and if one
closer is alone, it is the last. The induction is on the length, as two closers go at a time. -/
theorem doubled_of_after {w : List Char} (h : (quoted closer).after w = some m') :
    ∃ s, w = Text.doubled closer s ∧ m' = quoted closer ∨
      w = Text.doubled closer s ++ [closer] ∧ m' = quoteEnd closer := by
  induction hl : w.length using Nat.strongRecOn generalizing w with
  | ind l ih =>
    cases w with
    | nil =>
      cases h
      exact ⟨[], .inl ⟨rfl, rfl⟩⟩
    | cons c w =>
      rw [List.length_cons] at hl
      by_cases hc : c = closer
      · subst c
        cases w with
        | nil =>
          obtain rfl : quoteEnd closer = m' := by simpa [after, next] using h
          exact ⟨[], .inr ⟨rfl, rfl⟩⟩
        | cons d w =>
          obtain ⟨rfl, hw⟩ : d = closer ∧ (quoted closer).after w = some m' := by
            by_cases hd : d = closer <;> simp_all [after, next]
          rw [List.length_cons] at hl
          obtain ⟨s, hs⟩ := ih _ (by omega) hw rfl
          refine ⟨d :: s, hs.imp (fun h => ?_) (fun h => ?_)⟩ <;>
            rw [Text.doubled_self, h.1] <;> exact ⟨rfl, h.2⟩
      · have hw : (quoted closer).after w = some m' := by simpa [after, next, hc] using h
        obtain ⟨s, hs⟩ := ih _ (by omega) hw rfl
        refine ⟨c :: s, hs.imp (fun h => ?_) (fun h => ?_)⟩ <;>
          rw [Text.doubled_cons hc, h.1] <;> exact ⟨rfl, h.2⟩

end Lexeme.Munch

/-- A token is a lexeme all of which the lexer takes in. -/
theorem lexeme_of_mem_tokensAt {s : Settings} {p : Nat} {u : List Char} {t : Token}
    (ht : t ∈ tokensAt s p u) :
    ∃ q c w m, t = .ofLexeme s.quoted q (c :: w) ∧ (Munch.start c).after w = some m := by
  obtain ⟨before, c, v, -, rfl⟩ := run_of_mem_tokensAt p u ht
  exact ⟨_, c, _, _, rfl, (Munch.start c).after_run v⟩

/-- What can stand around a text to make one token of it, whatever it holds. -/
inductive Delimiter where
  | string
  | national
  | quotes
  | brackets
  deriving DecidableEq

namespace Delimiter

def opening : Delimiter → List Char
  | .string => ['\'']
  | .national => ['N', '\'']
  | .quotes => ['"']
  | .brackets => ['[']

def closer : Delimiter → Char
  | .string | .national => '\''
  | .quotes => '"'
  | .brackets => ']'

/-- Double quotes hold a string or a name, as the settings have it. -/
def kind (quoted : Bool) : Delimiter → Kind
  | .string | .national => .string
  | .quotes => if quoted then .identifier else .string
  | .brackets => .identifier

/-- The one way to write a text between the delimiters. -/
def quote (δ : Delimiter) (s : List Char) : List Char :=
  δ.opening ++ Text.doubled δ.closer s ++ [δ.closer]

/-- How the lexer enters the delimiters. -/
theorem after_opening (δ : Delimiter) :
    ∃ c w, δ.opening = c :: w ∧ Text.isBlank c = false ∧
      (Munch.start c).after w = some (.quoted δ.closer) := by
  cases δ <;> exact ⟨_, _, rfl, rfl, rfl⟩

/-- How it leaves them. -/
theorem after_quote (δ : Delimiter) (s : List Char) :
    ∃ c w, δ.quote s = c :: w ∧ Text.isBlank c = false ∧
      (Munch.start c).after w = some (.quoteEnd δ.closer) := by
  obtain ⟨c, w, hopening, hc, hw⟩ := δ.after_opening
  refine ⟨c, w ++ (Text.doubled δ.closer s ++ [δ.closer]), ?_, hc, ?_⟩
  · rw [quote, hopening, List.append_assoc, List.cons_append]
  · rw [Munch.after_append, hw, Option.bind_some, Munch.after_append, Munch.after_doubled]
    simp [Munch.after, Munch.next]

theorem kind_of_quoteEnd (δ : Delimiter) {s : List Char} (hs : (Munch.quoteEnd δ.closer).Shape s)
    (quoted : Bool) : Lexeme.kind quoted s = δ.kind quoted := by
  obtain ⟨hopens, hmarks⟩ := hs
  rw [kind_of_opens hopens, hmarks]
  cases δ <;> cases quoted <;> rfl

/-- A quoted text on a new line is one token, and what is around it stays as it is. -/
theorem tokenize_quote {settings : Settings} {text more : List Char} (hb : settings.blanks = false)
    (h : LexicallyClosed (tokenize settings text)) (δ : Delimiter) (s : List Char)
    (hmore : more.head? ≠ some δ.closer) :
    tokenize settings (text ++ '\n' :: (δ.quote s ++ more)) =
      tokenize settings text ++ ⟨δ.kind settings.quoted, text.length + 1, δ.quote s⟩ ::
        (tokenize settings more).map (.later (text.length + 1 + (δ.quote s).length)) := by
  obtain ⟨c, w, hquote, hc, hw⟩ := δ.after_quote s
  have hends : (Munch.quoteEnd δ.closer).run more = ([], more) := by
    cases more with
    | nil => rfl
    | cons d more =>
      have hd : d ≠ δ.closer := by simpa using hmore
      simp [Munch.run, Munch.next, hd]
  have hrun : (Munch.start c).run (w ++ more) = (w, more) := by
    rw [Munch.run_append_of_after hw, hends, List.append_nil]
  have hkind : Lexeme.kind settings.quoted (c :: w) = δ.kind settings.quoted :=
    δ.kind_of_quoteEnd ((Munch.shape_start c).after hw) _
  have htokens := tokenize_newLine hb h hc hrun
  rwa [Token.ofLexeme, hkind, ← List.cons_append, ← hquote] at htokens

/-- A complete token that starts with an opening delimiter is a quoted text. -/
theorem quote_of_mem_tokenize {settings : Settings} {text : List Char} {t : Token}
    (ht : t ∈ tokenize settings text) (complete : t.kind.isIncomplete = false) (δ : Delimiter)
    (hopening : δ.opening <+: t.text) : ∃ s, t.text = δ.quote s := by
  obtain ⟨p, c, w, m, rfl, hm⟩ := lexeme_of_mem_tokensAt ht
  obtain ⟨d, v, hdv, -, hv⟩ := δ.after_opening
  obtain ⟨u, hu⟩ := hdv ▸ hopening
  obtain ⟨rfl, rfl⟩ : d = c ∧ v ++ u = w := List.cons.inj hu
  have hrest : (Munch.quoted δ.closer).after u = some m := by
    rwa [Munch.after_append, hv] at hm
  obtain ⟨s, ⟨rfl, rfl⟩ | ⟨rfl, -⟩⟩ := Munch.doubled_of_after hrest
  · -- The text has run to the end, and so it is incomplete.
    have hincomplete : (Lexeme.kind settings.quoted (d :: (v ++ _))).isIncomplete = true :=
      isIncomplete_of_quoted ((Munch.shape_start d).after hm)
    cases hincomplete.symm.trans complete
  · refine ⟨s, ?_⟩
    rw [quote, hdv, List.append_assoc]
    rfl

theorem quote_injective (δ : Delimiter) : Function.Injective δ.quote := by
  intro s t h
  have h := List.append_cancel_left (List.append_cancel_right h)
  exact Text.doubled_injective _ h

end Delimiter

/-- Between delimiters any text can stand, with its closers doubled. On a new line it is one token,
complete and of the kind that the delimiters tell, and the tokens before it and behind it are as they
are without it. No other token starts like it, and no two texts are written the same. -/
theorem delimited_any_text (settings : Settings) (δ : Delimiter) :
    (settings.blanks = false → ∀ text s more, LexicallyClosed (tokenize settings text) →
      more.head? ≠ some δ.closer →
      tokenize settings (text ++ '\n' :: (δ.quote s ++ more)) =
        tokenize settings text ++ ⟨δ.kind settings.quoted, text.length + 1, δ.quote s⟩ ::
          (tokenize settings more).map (.later (text.length + 1 + (δ.quote s).length))) ∧
    (δ.kind settings.quoted).isIncomplete = false ∧
    ∀ text, ∀ t ∈ tokenize settings text, t.kind.isIncomplete = false → δ.opening <+: t.text →
      ∃! s, t.text = δ.quote s := by
  refine ⟨fun hb text s more h hmore => Delimiter.tokenize_quote hb h δ s hmore, ?_, ?_⟩
  · cases δ <;> cases settings.quoted <;> rfl
  · intro text t ht complete hopening
    obtain ⟨s, hs⟩ := Delimiter.quote_of_mem_tokenize ht complete δ hopening
    exact ⟨s, hs, fun s' hs' => δ.quote_injective (hs'.symm.trans hs)⟩

/-- A text that holds a quote, the marks of comments and a line break is one string between two
parentheses, and this text is the only one that the string stands for. -/
theorem delimited_any_text_marks :
    let s := "it's -- /*\n".toList
    let string : Token := ⟨.string, 2, "'it''s -- /*\n'".toList⟩
    let tokens := tokenize {} ("(\n'it''s -- /*\n')".toList)
    tokens = [⟨.punctuation .openParen, 0, ['(']⟩, string, ⟨.punctuation .closeParen, 16, [')']⟩] ∧
      string.text = Delimiter.string.quote s ∧
      ∀ s', string.text = Delimiter.string.quote s' → s' = s := by
  intro s string tokens
  have hparens : tokenize {} ['('] = [⟨.punctuation .openParen, 0, ['(']⟩] ∧
      tokenize {} [')'] = [⟨.punctuation .closeParen, 0, [')']⟩] := by
    decide +kernel
  have hclosed : LexicallyClosed (tokenize {} ['(']) := by
    rw [hparens.1]
    decide
  obtain ⟨hquote, -, hunique⟩ := delimited_any_text {} .string
  have htokens : tokens = _ := hquote rfl ['('] s [')'] hclosed (by decide)
  rw [hparens.1, hparens.2] at htokens
  have hmem : string ∈ tokens := by
    rw [htokens]
    exact List.mem_cons_of_mem _ List.mem_cons_self
  have hs : string.text = Delimiter.string.quote s := by decide
  obtain ⟨s₁, -, hs₁⟩ := hunique _ string hmem rfl (by decide)
  refine ⟨htokens, hs, fun s' hs' => ?_⟩
  rw [hs₁ s' hs', hs₁ s hs]

end SqlOutline
