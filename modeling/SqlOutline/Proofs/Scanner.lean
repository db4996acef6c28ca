import SqlOutline.Proofs.ReaderIndex

namespace SqlOutline
open Lexeme

/-- A lexeme that is read with one test after the other. Each test reads a character, and one that
fails it is put back and read again for the next test. -/
structure Scanner where
  reader : Reader
  lexeme : List Char := []
  /-- All that the reader was asked. No step looks at it. -/
  uses : List Reader.Use := []

namespace Scanner

def ask (s : Scanner) (u : Reader.Use) : Bool × Scanner :=
  ((s.reader.use u).1, { s with reader := (s.reader.use u).2, uses := s.uses ++ [u] })

def keep (s : Scanner) : Scanner :=
  { s with lexeme := s.lexeme ++ [s.reader.current] }

/-- Keeps the next character if it passes the test, and puts it back if not. -/
def accept (q : Char → Bool) (s : Scanner) : Bool × Scanner :=
  let read := s.ask .read
  if read.1 then
    if q read.2.reader.current then (true, read.2.keep) else (false, (read.2.ask .putBack).2)
  else read

/-- Tests the next character and puts it back. -/
def peek (q : Char → Bool) (s : Scanner) : Bool × Scanner :=
  let read := s.ask .read
  if read.1 then (q read.2.reader.current, (read.2.ask .putBack).2) else read

/-- How many characters are still to be read. -/
def left (s : Scanner) : Nat :=
  s.reader.unread.length

theorem left_ask_read {s : Scanner} (h : (s.ask .read).1 = true) : (s.ask .read).2.left < s.left :=
  Nat.lt_of_succ_le (Nat.le_of_eq (Reader.read_true_length h))

theorem left_ask_read_le (s : Scanner) : (s.ask .read).2.left ≤ s.left := by
  cases h : (s.ask .read).1 with
  | true => exact Nat.le_of_lt (left_ask_read h)
  | false =>
    have hnil : (s.ask .read).2.reader.unread = [] := (Reader.unread_of_read_false h).2
    simp [left, hnil]

theorem left_accept {q : Char → Bool} {s : Scanner} (h : (s.accept q).1 = true) :
    (s.accept q).2.left < s.left := by
  unfold accept at h ⊢
  cases hread : (s.ask .read).1 with
  | false => simp [hread] at h
  | true =>
    have hleft := left_ask_read hread
    cases hq : q (s.ask .read).2.reader.current with
    | true => simpa [hread, hq, left, keep] using hleft
    | false => simp [hread, hq] at h

theorem left_accept_le (q : Char → Bool) (s : Scanner) : (s.accept q).2.left ≤ s.left := by
  cases h : (s.accept q).1 with
  | true => exact Nat.le_of_lt (left_accept h)
  | false =>
    unfold accept at h ⊢
    cases hread : (s.ask .read).1 with
    | false => simpa [hread] using left_ask_read_le s
    | true =>
      have hback : ((s.ask .read).2.ask .putBack).2.left = s.left :=
        congrArg List.length (Reader.read_unread hread).2
      cases hq : q (s.ask .read).2.reader.current with
      | true => simp [hread, hq] at h
      | false => simp [hread, hq, hback]

/-- Keeps what passes the test, up to the first character that does not. -/
def acceptAll (q : Char → Bool) (s : Scanner) : Scanner :=
  let one := s.accept q
  if one.1 then one.2.acceptAll q else one.2
termination_by s.left
decreasing_by exact left_accept ‹_›

/-- Inside so many comments. `last` is the character before, unless a mark took it. -/
def blockComment (depth : Nat) (last : Option Char) (s : Scanner) : Scanner :=
  let read := s.ask .read
  if read.1 then
    let c := read.2.reader.current
    if last = some '/' ∧ c = '*' then read.2.keep.blockComment (depth + 1) none
    else if last = some '*' ∧ c = '/' then
      if depth - 1 = 0 then read.2.keep else read.2.keep.blockComment (depth - 1) none
    else read.2.keep.blockComment depth (some c)
  else read.2
termination_by s.left
decreasing_by all_goals exact left_ask_read ‹_›

/-- Keeps all up to the closer, and the closer if there is one. -/
def throughCloser (closer : Char) (s : Scanner) : Bool × Scanner :=
  let read := s.ask .read
  if read.1 then
    if read.2.reader.current = closer then (true, read.2.keep)
    else read.2.keep.throughCloser closer
  else read
termination_by s.left
decreasing_by exact left_ask_read ‹_›

theorem left_throughCloser_le (closer : Char) (s : Scanner) :
    (s.throughCloser closer).2.left ≤ s.left := by
  fun_induction throughCloser closer s with
  | case1 s => exact left_ask_read_le s
  | case2 s read _ _ ih => exact Nat.le_trans ih (left_ask_read_le s)
  | case3 s => exact left_ask_read_le s

/-- A closer that is doubled closes nothing. -/
def quoted (closer : Char) (s : Scanner) : Scanner :=
  let closed := s.throughCloser closer
  if closed.1 then
    let doubled := closed.2.accept (· = closer)
    if doubled.1 then doubled.2.quoted closer else doubled.2
  else closed.2
termination_by s.left
decreasing_by
  exact Nat.lt_of_lt_of_le (left_accept ‹(Scanner.accept _ _).1 = true›)
    (left_throughCloser_le closer s)

/-- Hex digits, with a line break behind a backslash anywhere between them. -/
def binary (s : Scanner) : Scanner :=
  let digit := s.accept isHexDigit
  if digit.1 then digit.2.binary
  else
    let backslash := digit.2.accept (· = '\\')
    if backslash.1 then
      ((backslash.2.accept (· = '\r')).2.accept (· = '\n')).2.binary
    else backslash.2
termination_by s.left
decreasing_by
  · exact left_accept ‹_›
  · have hless := left_accept ‹((Scanner.accept _ _).2.accept _).1 = true›
    have hdigit := left_accept_le isHexDigit s
    have hreturn := left_accept_le (· = '\r') ((s.accept isHexDigit).2.accept (· = '\\')).2
    have hfeed := left_accept_le (· = '\n')
      (((s.accept isHexDigit).2.accept (· = '\\')).2.accept (· = '\r')).2
    omega

/-- Digits with one period at most. -/
def decimals (point : Bool) (s : Scanner) : Scanner :=
  let digit := s.accept Char.isDigit
  if digit.1 then digit.2.decimals point
  else if point then digit.2
  else
    let period := digit.2.accept (· = '.')
    if period.1 then period.2.decimals true else period.2
termination_by s.left
decreasing_by
  · exact left_accept ‹_›
  · exact Nat.lt_of_lt_of_le (left_accept ‹((Scanner.accept _ _).2.accept _).1 = true›)
      (left_accept_le _ _)

def isSign (c : Char) : Bool :=
  c = '+' || c = '-'

def exponent (s : Scanner) : Scanner :=
  (s.accept isSign).2.acceptAll Char.isDigit

def number (point : Bool) (s : Scanner) : Scanner :=
  let mark := (s.decimals point).accept fun c => c = 'e' || c = 'E'
  if mark.1 then mark.2.exponent else mark.2

def money (s : Scanner) : Scanner :=
  (s.accept isSign).2.decimals false

def lineComment (s : Scanner) : Scanner :=
  s.acceptAll fun c => c ≠ '\r' && c ≠ '\n'

def word (s : Scanner) : Scanner :=
  s.acceptAll (!endsWord ·)

/-- Goes on with the lexeme as its first character says. -/
def dispatch (first : Char) (s : Scanner) : Scanner :=
  match first with
  | ',' | ';' | '(' | ')' | '~' => s
  | '.' =>
    let digit := s.accept Char.isDigit
    if digit.1 then digit.2.number true else digit.2
  | '-' =>
    let dash := s.accept (· = '-')
    if dash.1 then dash.2.lineComment else (dash.2.accept (· = '=')).2
  | '/' =>
    let star := s.accept (· = '*')
    if star.1 then star.2.blockComment 1 none else (star.2.accept (· = '=')).2
  | '<' => (s.accept ['>', '='].contains).2
  | '!' => (s.accept ['=', '<', '>'].contains).2
  | '=' => (s.accept (· = '*')).2
  | '&' | '|' | '^' | '+' | '*' | '%' | '>' => (s.accept (· = '=')).2
  | ':' => (s.accept (· = ':')).2
  | 'N' =>
    let quote := s.accept (· = '\'')
    if quote.1 then quote.2.quoted '\'' else quote.2.word
  | '\'' | '"' => s.quoted first
  | '[' => s.quoted ']'
  | '0' =>
    let mark := s.accept fun c => c = 'x' || c = 'X'
    if mark.1 then mark.2.binary else mark.2.number false
  | '$' =>
    let amount := s.peek fun c => c = '+' || c = '-' || c = '.' || c.isDigit
    if amount.1 then amount.2.money else amount.2.word
  | c =>
    if c.isDigit then s.number false
    else if isCurrencySign c then s.money
    else s.word

/-- Reads the rest of a lexeme whose first character was read last. -/
def scan (blanks : Bool) (s : Scanner) : Scanner :=
  let first := s.reader.current
  if blanks && Text.isBlank first then s.acceptAll Text.isBlank else s.dispatch first

/-- Reads the rest as a token source does, where one look at each character decides. -/
def munch (m : Munch) (s : Scanner) : Scanner :=
  let read := s.ask .read
  if read.1 then
    match m.next read.2.reader.current with
    | none => (read.2.ask .putBack).2
    | some m' => read.2.keep.munch m'
  else read.2
termination_by s.left
decreasing_by exact left_ask_read ‹_›

end Scanner

end SqlOutline
