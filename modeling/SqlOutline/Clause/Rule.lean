import SqlOutline.Clause.Kind
import SqlOutline.Token

namespace SqlOutline

/-- How a clause starts, and the keywords it may hold where nothing shields them: outside every
parenthesis and every CASE. Any other keyword there belongs to what follows. -/
structure ClauseRule where
  /-- Each of these starts the clause. -/
  leading : List Keyword
  /-- Must follow the leading keyword. -/
  second : Option Keyword := none
  allowed : List Keyword := []
  /-- Allowed until the clause has named its target. -/
  beforeTarget : List Keyword := []
  /-- The clause holds keywords only. -/
  keywordsOnly : Bool := false

namespace ClauseRule

def permits (r : ClauseRule) (target : Bool) (k : Keyword) : Bool :=
  r.allowed.contains k || (!target && r.beforeTarget.contains k)

/-- The leading keywords, as a fault names them. -/
def expected (r : ClauseRule) : String :=
  " or ".intercalate (r.leading.map Keyword.spelling)

end ClauseRule

/-- The keywords of any condition or value. -/
def expressionWords : List Keyword :=
  [.null, .case, .when, .then, .else, .end, .and, .or, .between, .exists, .in, .is, .not, .like]

/-- The functions whose names are reserved. -/
def functionWords : List Keyword :=
  [.coalesce, .convert, .nullif, .tryConvert, .currentTimestamp, .currentUser, .sessionUser,
    .systemUser, .user, .left, .right]

def predicateWords : List Keyword :=
  [.all, .any, .some, .escape, .contains, .freetext]

/-- The keywords of a condition in a MERGE. Those inside a CASE need no leave, and a WHEN outside of
one opens the next branch. -/
def branchWords : List Keyword :=
  [.null, .case, .end, .and, .or, .between, .exists, .in, .is, .not, .like]

def ClauseKind.rule : ClauseKind → ClauseRule
  | .with => { leading := [.with], allowed := [.as] }
  | .select =>
    { leading := [.select]
      allowed := expressionWords ++ functionWords ++
        [.all, .distinct, .top, .percent, .with, .as, .collate, .identity, .over] }
  | .into => { leading := [.into] }
  | .from =>
    { leading := [.from]
      allowed := expressionWords ++ functionWords ++ predicateWords ++
        [.as, .join, .inner, .outer, .full, .cross, .on, .pivot, .unpivot, .tablesample, .with] }
  | .where =>
    { leading := [.where]
      allowed := expressionWords ++ functionWords ++ predicateWords ++ [.current, .of] }
  | .groupBy =>
    { leading := [.group], second := some .by
      allowed := expressionWords ++ functionWords ++ [.all, .with] }
  | .having => { leading := [.having], allowed := expressionWords }
  | .orderBy =>
    { leading := [.order], second := some .by
      allowed := expressionWords ++ functionWords ++ [.asc, .desc, .collate, .fetch] }
  | .option => { leading := [.option] }
  | .for => { leading := [.for], allowed := [.browse] }
  | .setOperator =>
    { leading := [.union, .except, .intersect], allowed := [.all], keywordsOnly := true }
  | .insert => { leading := [.insert], allowed := [.top, .percent, .into, .with] }
  | .values => { leading := [.values], allowed := expressionWords ++ functionWords ++ [.default] }
  | .defaultValues => { leading := [.default], second := some .values }
  | .output => { leading := [.output], allowed := expressionWords ++ functionWords ++ [.into, .as] }
  | .execute =>
    { leading := [.exec, .execute]
      allowed := expressionWords ++ functionWords ++ [.default, .output] }
  | .update => { leading := [.update], allowed := [.top, .percent, .with] }
  | .set =>
    { leading := [.set]
      allowed := expressionWords ++ functionWords ++ predicateWords ++ [.default, .collate] }
  | .delete =>
    { leading := [.delete], allowed := [.top, .percent, .with], beforeTarget := [.from] }
  | .merge => { leading := [.merge], allowed := [.top, .percent, .into, .as, .with] }
  | .using => { leading := [.using], allowed := [.as] }
  | .on => { leading := [.on], allowed := branchWords ++ functionWords ++ predicateWords }
  | .when =>
    { leading := [.when]
      allowed := branchWords ++ functionWords ++ predicateWords ++
        [.matched, .by, .then, .update, .set, .delete, .insert, .values, .default] }

/-- Where a reader stands inside a clause. -/
structure Scope where
  /-- Parentheses still open. -/
  parens : Nat := 0
  /-- CASE blocks still open. -/
  cases : Nat := 0
  /-- A name was met outside every parenthesis. -/
  target : Bool := false
  deriving DecidableEq

/-- The place after one more token. An END without its CASE counts for nothing. -/
def Scope.after (s : Scope) (t : Token) : Scope :=
  match t.kind with
  | .punctuation .openParen => { s with parens := s.parens + 1 }
  | .punctuation .closeParen => { s with parens := s.parens - 1 }
  | .keyword .case => { s with cases := s.cases + 1 }
  | .keyword .end => { s with cases := s.cases - 1 }
  | .identifier | .incompleteIdentifier | .userVariable =>
    { s with target := s.target || s.parens = 0 }
  | _ => s

/-- Whether a clause that has come to `s` ends before the token. -/
def ClauseRule.stops (r : ClauseRule) (s : Scope) (t : Token) : Bool :=
  match t.kind with
  | .keyword k => (r.keywordsOnly || (s.parens = 0 && s.cases = 0)) && !r.permits s.target k
  | .punctuation .semicolon => true
  | .punctuation .closeParen => r.keywordsOnly || s.parens = 0
  | k => r.keywordsOnly && !k.isTrivia

end SqlOutline
