import SqlOutline.Lexeme.Munch
import SqlOutline.Settings
import SqlOutline.Token

namespace SqlOutline
open Lexeme

/-- The tokens of a text whose first character stands at `start`. -/
def tokensAt (s : Settings) (start : Nat) : List Char → List Token
  | [] => []
  | c :: t =>
    if Text.isBlank c && !s.blanks then tokensAt s (start + 1) t
    else
      let run := (Munch.start c).run t
      .ofLexeme s.quoted start (c :: run.1) :: tokensAt s (start + 1 + run.1.length) run.2
termination_by t => t.length
decreasing_by
  · simp
  · exact Nat.lt_succ_of_le (Munch.run_snd_length_le _ _)

/-- Every text has tokens: what is never closed runs to the end, and what has no other shape is a
word. -/
def tokenize (s : Settings) (t : List Char) : List Token :=
  tokensAt s 0 t

end SqlOutline
