import SqlOutline.Proofs.ScannerRun

namespace SqlOutline
open Lexeme

/-- How the first character of a token is read. -/
def Reader.Use.first (blanks : Bool) : Use :=
  if blanks then .read else .readPastBlanks

theorem Reader.use_first (r : Reader) (blanks : Bool) :
    r.use (.first blanks) = if blanks then r.read else r.readPastBlanks := by
  cases blanks <;> rfl

theorem TokenSource.settings_advance (src : TokenSource) :
    src.advance.settings = src.settings := by
  unfold advance
  dsimp only
  split_ifs <;> rfl

/-- A token source that remembers all that it asked its reader. -/
structure WatchedSource extends TokenSource where
  uses : List Reader.Use := []

namespace WatchedSource

def ofText (settings : Settings) (text : List Char) : WatchedSource :=
  { toTokenSource := .ofText settings text }

def scanner (src : WatchedSource) : Scanner :=
  { reader := src.reader, uses := src.uses }

/-- Moves to the next token. `lex` reads what is behind the first character of it. -/
def advance (lex : Scanner → Scanner) (src : WatchedSource) : WatchedSource :=
  if src.ended then { src with current := none }
  else
    let read := src.scanner.ask (.first src.settings.blanks)
    let first := read.2.reader
    if read.1 then
      let s := lex read.2.keep
      { src with
        reader := s.reader
        uses := s.uses
        current := some (.ofLexeme src.settings.quoted first.position.toNat s.lexeme) }
    else { src with reader := first, uses := read.2.uses, current := none, ended := true }

/-- The watched source stands where the other one does, and used its reader legally on the way. -/
structure Follows (text : List Char) (src : TokenSource) (w : WatchedSource) : Prop where
  settings : w.settings = src.settings
  current : w.current = src.current
  ended : w.ended = src.ended
  place : ∃ p u, w.reader.At p u ∧ src.reader.At p u
  traced : w.scanner.Traced text

variable {text : List Char} {src : TokenSource} {w : WatchedSource} {lex : Scanner → Scanner}

theorem follows_ofText (settings : Settings) (text : List Char) :
    (ofText settings text).Follows text (.ofText settings text) :=
  ⟨rfl, rfl, rfl, ⟨0, text, .start text, .start text⟩, ⟨Reader.legal_nil _, rfl⟩⟩

theorem Follows.advance (h : w.Follows text src) (hlex : Scanner.Lexes src.settings.blanks lex) :
    (w.advance lex).Follows text src.advance := by
  obtain ⟨p, u, hw, hsrc⟩ := h.place
  cases he : src.ended with
  | true =>
    simp only [WatchedSource.advance, TokenSource.advance, h.ended, he, if_true]
    exact ⟨h.settings, rfl, rfl, ⟨p, u, hw, hsrc⟩, h.traced⟩
  | false =>
    obtain ⟨p', u', hreads, -, hblank⟩ := exists_tokenStart src.settings p u
    obtain ⟨a, ha, hat⟩ := hreads hw
    obtain ⟨b, hb, hbt⟩ := hreads hsrc
    have hfirst : Reader.Use.first src.settings.blanks ≠ .putBack := by
      cases src.settings.blanks <;> simp [Reader.Use.first]
    obtain ⟨htraced, -⟩ := h.traced.ask _ fun hback => absurd hback hfirst
    have hask : w.scanner.ask (.first src.settings.blanks) = (a.read.1,
        { reader := a.read.2, uses := w.uses ++ [.first src.settings.blanks] }) := by
      rw [Scanner.ask, scanner, Reader.use_first, ha]
    rw [hask] at htraced
    simp only [WatchedSource.advance, TokenSource.advance, h.ended, he, h.settings, hask, hb,
      Bool.false_eq_true, if_false]
    cases u' with
    | nil =>
      simp only [hat.read_nil.1, hbt.read_nil.1, Bool.false_eq_true, if_false]
      exact ⟨rfl, rfl, rfl, ⟨p', [], hat.read_nil.2 p', hbt.read_nil.2 p'⟩, htraced⟩
    | cons c v =>
      obtain ⟨hread, hc, hp, hrest, -⟩ := hat.read_cons
      obtain ⟨hread', hc', hp', hrest', -⟩ := hbt.read_cons
      obtain ⟨hrun, hplace⟩ := hrest'.munch (.start c)
      simp only [hread, hread', if_true, hp, hp', hc', hrun]
      have hstands : Scanner.Stands text p' [c] v (Scanner.keep
          { reader := a.read.2, uses := w.uses ++ [.first src.settings.blanks] }) :=
        ⟨⟨htraced.legal, htraced.told⟩, congrArg (fun d => [d]) hc, hrest⟩
      have hdone := hlex hc (hblank c rfl) hstands
      refine ⟨rfl, ?_, rfl, ⟨_, _, hdone.rest, ?_⟩, ⟨hdone.legal, hdone.told⟩⟩
      · rw [hdone.lexeme]
      · rw [List.length_cons, Nat.add_comm _ 1, ← Nat.add_assoc]
        exact hplace

theorem Follows.iterate (h : w.Follows text src) (hlex : Scanner.Lexes src.settings.blanks lex)
    (k : Nat) : ((WatchedSource.advance lex)^[k] w).Follows text (TokenSource.advance^[k] src) := by
  induction k generalizing src w with
  | zero => exact h
  | succ k ih =>
    rw [Function.iterate_succ_apply, Function.iterate_succ_apply]
    exact ih (h.advance hlex) (by rwa [TokenSource.settings_advance])

/-- Where one look at each character decides, watching makes no difference at all. -/
theorem advance_munch (w : WatchedSource) :
    (w.advance fun s => s.munch (.start s.reader.current)).toTokenSource =
      w.toTokenSource.advance := by
  unfold WatchedSource.advance TokenSource.advance
  cases w.ended with
  | true => rfl
  | false =>
    simp only [scanner, Scanner.ask, Reader.use_first, (Scanner.munch_eq _ _).1,
      (Scanner.munch_eq _ _).2, Bool.false_eq_true, if_false]
    split_ifs <;> rfl

end WatchedSource

/-- A reader is an index into its text. However it is used, as long as nothing is put back but what
the use before has found, it stands behind as many characters as are delivered and not put back, and
their number alone decides what it finds. Once nothing is found, nothing ever is. A source of tokens
uses its reader so: whether one look at each character decides, or one test is tried after the other
and each that fails puts its character back, what is put back was read just before, and its place
is free. -/
theorem reader_indexed :
    (∀ (text : List Char) (uses : List Reader.Use),
      let start : Reader := { ahead := text }
      start.Legal uses →
      let i := Reader.index text uses
      let found := (start.after uses).1
      let r := (start.after uses).2
      i ≤ text.length ∧
      (r.read.1 = true ↔ i < text.length) ∧
      (∀ h : i < text.length, r.read.2.current = text[i] ∧ r.read.2.position = i ∧
        Reader.index text (uses ++ [.read]) = i + 1) ∧
      (∀ (j : Nat) (h : j < text.length), i ≤ j →
        (∀ c ∈ (text.take j).drop i, Text.isBlank c = true) → Text.isBlank text[j] = false →
        r.readPastBlanks.1 = true ∧ r.readPastBlanks.2.current = text[j] ∧
          r.readPastBlanks.2.position = j ∧
          Reader.index text (uses ++ [.readPastBlanks]) = j + 1) ∧
      ((∀ c ∈ text.drop i, Text.isBlank c = true) →
        r.readPastBlanks.1 = false ∧
          Reader.index text (uses ++ [.readPastBlanks]) = text.length) ∧
      (found = true →
        r.returned = none ∧ r.putBack.position = r.position ∧
          Reader.index text (uses ++ [.putBack]) + 1 = i) ∧
      ∀ (u : Reader.Use) (more : List Reader.Use), u ≠ .putBack → (r.use u).1 = false →
        start.Legal (uses ++ u :: more) → (start.after (uses ++ u :: more)).1 = false) ∧
    ∀ (settings : Settings) (text : List Char) (k : Nat),
      let start : Reader := { ahead := text }
      let source := TokenSource.advance^[k] (.ofText settings text)
      let looking := (WatchedSource.advance fun s => s.munch (.start s.reader.current))^[k]
        (.ofText settings text)
      let testing := (WatchedSource.advance (Scanner.scan settings.blanks))^[k]
        (.ofText settings text)
      looking.toTokenSource = source ∧
      (testing.current = source.current ∧ testing.ended = source.ended ∧
        testing.reader.unread = source.reader.unread) ∧
      ∀ w ∈ [looking, testing], start.Legal w.uses ∧ (start.after w.uses).2 = w.reader ∧
        ∀ before, before ++ [.putBack] <+: w.uses → (start.after before).2.returned = none := by
  constructor
  · intro text uses start hlegal i found r
    have hbehind : Reader.Behind text i (start.after uses) := .after hlegal
    have hrest : r.At i (text.drop i) := hbehind.rest
    refine ⟨hbehind.le, hrest.read_iff, fun h => ?_, fun j hj hij hgap hc => ?_, fun hgap => ?_,
      fun hfound => ?_, fun u more hu hnone hmore => (Reader.after_false hmore hu hnone).1⟩
    · have hnext : Reader.index text (uses ++ [.read]) = min (i + 1) text.length :=
        Reader.index_append _ _ _
      obtain ⟨hcurrent, hposition⟩ := hrest.read_getElem h
      exact ⟨hcurrent, hposition, by omega⟩
    · rw [Reader.index_append]
      exact hrest.readPastBlanks_getElem hj hij hgap hc
    · rw [Reader.index_append]
      exact hrest.readPastBlanks_none hbehind.le hgap
    · have hback : Reader.index text (uses ++ [.putBack]) = i - 1 := Reader.index_append _ _ _
      obtain ⟨hreturned, hpos, -⟩ := hbehind.found hfound
      exact ⟨hreturned, rfl, by omega⟩
  · intro settings text k start source looking testing
    have hstart := WatchedSource.follows_ofText settings text
    have hlooking : looking.Follows text source := hstart.iterate (Scanner.lexes_munch _) k
    have htesting : testing.Follows text source := hstart.iterate (Scanner.lexes_scan _) k
    have hsame : Function.Semiconj WatchedSource.toTokenSource
        (WatchedSource.advance fun s => s.munch (.start s.reader.current)) TokenSource.advance :=
      WatchedSource.advance_munch
    obtain ⟨p, u, hw, hsource⟩ := htesting.place
    refine ⟨hsame.iterate_right k _, ⟨htesting.current, htesting.ended,
      hw.unread.trans hsource.unread.symm⟩, fun w hmem => ?_⟩
    have hw : w.Follows text source := by
      rcases List.mem_cons.mp hmem with rfl | hmem
      · exact hlooking
      · rw [List.mem_singleton.mp hmem]
        exact htesting
    exact ⟨hw.traced.legal, hw.traced.told, fun before => hw.traced.legal.returned⟩

theorem reader_indexed_replayed :
    let text := ['a', ' ', 'b']
    let start : Reader := { ahead := text }
    let uses : List Reader.Use := [.read, .putBack, .read]
    start.Legal uses ∧ Reader.index text uses = 1 ∧
      (start.after uses).2.readPastBlanks.1 = true ∧
      (start.after uses).2.readPastBlanks.2.current = 'b' ∧
      (start.after uses).2.readPastBlanks.2.position = 2 := by
  intro text start uses
  have hread : start.Legal ([] ++ [.read]) := Reader.legal_append.mpr ⟨Reader.legal_nil _, nofun⟩
  have hback : start.Legal ([.read] ++ [.putBack]) :=
    Reader.legal_append.mpr ⟨hread, fun _ => rfl⟩
  have hlegal : start.Legal ([.read, .putBack] ++ [.read]) :=
    Reader.legal_append.mpr ⟨hback, nofun⟩
  obtain ⟨-, -, -, hpast, -⟩ := reader_indexed.1 text uses hlegal
  have hgap : ∀ c ∈ (text.take 2).drop 1, Text.isBlank c = true :=
    List.forall_mem_singleton.mpr rfl
  obtain ⟨hfound, hcurrent, hposition, -⟩ := hpast 2 (by decide) (by decide) hgap rfl
  exact ⟨hlegal, rfl, hfound, hcurrent, hposition⟩

end SqlOutline
