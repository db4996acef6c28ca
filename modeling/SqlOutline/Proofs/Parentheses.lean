import SqlOutline.Proofs.Grammatical
import SqlOutline.Proofs.StatementSegments

namespace SqlOutline
open Parse

namespace Token

/-- How many parentheses the tokens close. -/
def closed (ts : List Token) : Nat :=
  ts.countP (·.isPunctuation .closeParen)

variable {t : Token}

theorem opened_cons (t : Token) (ts : List Token) :
    opened (t :: ts) = opened ts + if t.isPunctuation .openParen then 1 else 0 :=
  List.countP_cons

theorem closed_cons (t : Token) (ts : List Token) :
    closed (t :: ts) = closed ts + if t.isPunctuation .closeParen then 1 else 0 :=
  List.countP_cons

theorem not_closeParen_of_openParen (h : t.isPunctuation .openParen = true) :
    t.isPunctuation .closeParen = false := by
  simp_all [isPunctuation]

/-- As many parentheses are open behind the tokens as were open before or opened in them, without
those that they close. -/
theorem level_balance {n m : Nat} {ts : List Token} (h : level n ts = some m) :
    m + closed ts = n + opened ts := by
  induction ts generalizing n with
  | nil =>
    cases h
    rfl
  | cons t ts ih =>
    rw [opened_cons, closed_cons]
    simp only [level] at h
    split at h
    next ho =>
      have := ih h
      simp only [ho, not_closeParen_of_openParen ho, Bool.false_eq_true, if_true, if_false]
      omega
    next ho =>
      split at h
      next hc =>
        cases n with
        | zero => cases h
        | succ n =>
          have := ih h
          simp only [ho, hc, Bool.false_eq_true, if_true, if_false]
          omega
      next hc =>
        have := ih h
        simp only [ho, hc, Bool.false_eq_true, if_false]
        omega

/-- No part in front of the tokens closes more parentheses than it opens. -/
theorem closed_le_opened_of_prefix {m : Nat} {ts front : List Token} (h : level 0 ts = some m)
    (hf : front <+: ts) : closed front ≤ opened front := by
  obtain ⟨k, hk⟩ := level_of_prefix hf h
  have := level_balance hk
  omega

end Token

/-- The parentheses of a statement balance, from wherever it is read: none is closed in it that was
not opened in it before, and all are closed unless a semicolon or the end of the text cuts the
statement short. -/
theorem parentheses_balanced (depth : Nat) (s : Ahead) (st : Statement)
    (h : ((Statement.read depth).run s).answer = .ok st) :
    (∀ front, front <+: st.tokens → Token.closed front ≤ Token.opened front) ∧
      (Token.closed st.tokens = Token.opened st.tokens ∨
        ((Statement.read depth).run s).ahead.Ended) := by
  have hread := Parse.Segments.readStatement depth (.of_answer h)
  obtain ⟨n, hn, hend⟩ := hread.nested
  refine ⟨fun front => Token.closed_le_opened_of_prefix hn, hend.imp_left fun hz => ?_⟩
  have := Token.level_balance hn
  omega

/-- The parentheses around an operand stand in two clauses. The one that is left behind the statement is
none of its own, and so all of its own are closed. -/
theorem parentheses_balanced_operand :
    let close : Token := ⟨.punctuation .closeParen, 27, [')']⟩
    let s : Ahead := [⟨.keyword .select, 0, "SELECT".toList⟩, ⟨.number, 7, ['1']⟩,
      ⟨.keyword .union, 9, "UNION".toList⟩, ⟨.punctuation .openParen, 15, ['(']⟩,
      ⟨.keyword .select, 16, "SELECT".toList⟩, ⟨.punctuation .openParen, 23, ['(']⟩,
      ⟨.identifier, 24, ['a']⟩, ⟨.punctuation .closeParen, 25, [')']⟩,
      ⟨.punctuation .closeParen, 26, [')']⟩, close]
    let reply := (Statement.read 1).run s
    reply.ahead = [close] ∧ ∃ st, reply.answer = .ok st ∧
      (∀ front, front <+: st.tokens → Token.closed front ≤ Token.opened front) ∧
      Token.closed st.tokens = Token.opened st.tokens := by
  intro close s reply
  have hahead : reply.ahead = [close] := by decide +kernel
  have hread : reply.answer.toBool = true := by decide +kernel
  refine ⟨hahead, ?_⟩
  cases hanswer : reply.answer with
  | error e => simp [hanswer, Except.toBool] at hread
  | ok st =>
    obtain ⟨hfront, hclosed⟩ := parentheses_balanced 1 s st hanswer
    refine ⟨st, rfl, hfront, hclosed.resolve_right fun hend => ?_⟩
    have := hend close (by rw [hahead]; rfl)
    simp [close, Token.isPunctuation] at this

end SqlOutline
