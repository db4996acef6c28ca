import SqlOutline.Clause.Kind
import SqlOutline.Token

namespace SqlOutline

/-- A named part of a statement: its leading keyword and every token after it, those of nested
queries and comments included. -/
structure Clause where
  kind : ClauseKind
  lead : Token
  body : List Token
  deriving DecidableEq

namespace Clause

def tokens (c : Clause) : List Token :=
  c.lead :: c.body

def significant (c : Clause) : List Token :=
  c.tokens.filter (!·.isTrivia)

def span (c : Clause) : Span :=
  ⟨c.lead.start, (c.body.getLastD c.lead).span.last⟩

/-- The clause with more tokens at its end. -/
def push (ts : List Token) (c : Clause) : Clause :=
  { c with body := c.body ++ ts }

theorem tokens_push (ts : List Token) (c : Clause) : (c.push ts).tokens = c.tokens ++ ts := rfl

/-- From the start of the first clause to the end of the last. -/
def spanOf (cs : List Clause) : Span :=
  ⟨cs.head?.elim 0 (·.span.first), cs.getLast?.elim 0 (·.span.last)⟩

end Clause

end SqlOutline
