import Mathlib.Algebra.BigOperators.Group.List.Basic
import Mathlib.Algebra.Ring.Nat
import SqlOutline.Proofs.Unescape
import SqlOutline.Report

namespace SqlOutline

namespace Text

variable {t t' u u' : List Char} {w : Nat}

/-- Where a separator stands in neither, what stands before it is told from what stands behind. -/
theorem eq_of_append_cons {c : Char} (ht : c ∉ t) (ht' : c ∉ t')
    (h : t ++ c :: u = t' ++ c :: u') : t = t' ∧ u = u' := by
  induction t generalizing t' with
  | nil =>
    cases t' with
    | nil => exact ⟨rfl, (List.cons.inj h).2⟩
    | cons d t' =>
      obtain ⟨rfl, -⟩ := List.cons.inj h
      exact absurd List.mem_cons_self ht'
  | cons d t ih =>
    cases t' with
    | nil =>
      obtain ⟨rfl, -⟩ := List.cons.inj h
      exact absurd List.mem_cons_self ht
    | cons d' t' =>
      obtain ⟨rfl, hrest⟩ := List.cons.inj h
      obtain ⟨rfl, hu⟩ := ih (fun hc => ht (List.mem_cons_of_mem _ hc))
        (fun hc => ht' (List.mem_cons_of_mem _ hc)) hrest
      exact ⟨rfl, hu⟩

theorem decimal_inj {m n : Nat} (h : decimal m = decimal n) : m = n := by
  rw [← Nat.ofDigitChars_ten_toDigits (n := m), ← Nat.ofDigitChars_ten_toDigits (n := n)]
  exact congrArg (Nat.ofDigitChars 10 · 0) h

theorem isDigit_of_mem_decimal {c : Char} {n : Nat} (h : c ∈ decimal n) : c.isDigit = true :=
  Nat.isDigit_of_mem_toDigits (by decide) (by decide) h

theorem not_mem_decimal {c : Char} (hc : c.isDigit = false) (n : Nat) : c ∉ decimal n := by
  intro h
  rw [isDigit_of_mem_decimal h] at hc
  cases hc

theorem visible_decimal (n : Nat) : Visible (decimal n) := by
  have hdigit : ∀ k < 10, ' ' ≤ k.digitChar ∧ k.digitChar ≤ '~' := by decide
  intro c hc
  obtain ⟨k, hk, rfl⟩ := exists_digitChar (by decide) hc
  exact hdigit k hk

theorem visible_spaces (n : Nat) : Visible (List.replicate n ' ') := by
  intro c hc
  rw [List.eq_of_mem_replicate hc]
  decide

theorem unbroken_flushRight (h : Unbroken t) : Unbroken (flushRight w t) :=
  unbroken_append.mpr ⟨(visible_spaces _).unbroken, h⟩

theorem unbroken_flushLeft (h : Unbroken t) : Unbroken (flushLeft w t) :=
  unbroken_append.mpr ⟨h, (visible_spaces _).unbroken⟩

/-- Padding on the left hides nothing of a text without spaces, however long it is. -/
theorem flushRight_inj (ht : ' ' ∉ t) (ht' : ' ' ∉ t') (h : flushRight w t = flushRight w t') :
    t = t' := by
  have hfilter {s : List Char} (hs : ' ' ∉ s) : (flushRight w s).filter (· ≠ ' ') = s := by
    have hself : s.filter (· ≠ ' ') = s := by
      rw [List.filter_eq_self]
      intro c hc
      simpa using fun hcs : c = ' ' => hs (hcs ▸ hc)
    simpa [flushRight, List.filter_append] using hself
  rw [← hfilter ht, ← hfilter ht', h]

theorem flushLeft_append_cons (w : Nat) (t u : List Char) :
    flushLeft w t ++ ' ' :: u = t ++ ' ' :: (List.replicate (w - t.length) ' ' ++ u) := by
  have hspace (n : Nat) :
      List.replicate n ' ' ++ ' ' :: u = ' ' :: (List.replicate n ' ' ++ u) := by
    induction n with
    | zero => rfl
    | succ n ih => rw [List.replicate_succ, List.cons_append, ih, List.cons_append]
  rw [flushLeft, List.append_assoc, hspace]

/-- A column of a text without spaces ends at the first space, and how many more there are is known
from the text. -/
theorem flushLeft_inj (ht : ' ' ∉ t) (ht' : ' ' ∉ t')
    (h : flushLeft w t ++ ' ' :: u = flushLeft w t' ++ ' ' :: u') : t = t' ∧ u = u' := by
  rw [flushLeft_append_cons, flushLeft_append_cons] at h
  obtain ⟨rfl, h⟩ := eq_of_append_cons ht ht' h
  exact ⟨rfl, List.append_cancel_left h⟩

/-- Lines, each with a line feed behind it. -/
theorem count_lines (ls : List (List Char)) :
    (ls.flatMap (· ++ ['\n'])).count '\n' = ls.length + (ls.map (·.count '\n')).sum := by
  induction ls with
  | nil => rfl
  | cons l ls ih =>
    rw [List.flatMap_cons, List.count_append, ih]
    simp
    omega

theorem getLast?_lines {ls : List (List Char)} (h : ls ≠ []) :
    (ls.flatMap (· ++ ['\n'])).getLast? = some '\n' := by
  obtain ⟨front, l, rfl⟩ := List.eq_nil_or_concat ls |>.resolve_left h
  simp

theorem Unbroken.count {c : Char} (h : Unbroken t) (hc : c = '\n' ∨ c = '\r') : t.count c = 0 := by
  refine List.count_eq_zero.mpr fun hmem => ?_
  rcases hc with rfl | rfl
  · exact (h _ hmem).1 rfl
  · exact (h _ hmem).2 rfl

end Text

open Text

namespace Kind

/-- The names of all kinds, each once. -/
def names : List String :=
  ["Whitespace", "Character", "Identifier", "SystemIdentifier", "Keyword", "Connector",
    "SingleLineComment", "MultilineComment", "IncompleteComment", "Operator", "Variable",
    "SystemVariable", "NumericLiteral", "StringLiteral", "IncompleteString", "MoneyLiteral",
    "BinaryLiteral", "IncompleteIdentifier", "SystemColumnIdentifier"]

theorem getElem?_names (k : Kind) : names[k.ctorIdx]? = some k.name := by
  cases k <;> rfl

theorem mem_names (k : Kind) : k.name ∈ names :=
  List.mem_of_getElem? k.getElem?_names

theorem isAlpha_name (k : Kind) : ∀ c ∈ k.name.toList, c.isAlpha = true := by
  have hnames : ∀ name ∈ names, name.toList.all Char.isAlpha = true := by decide
  exact List.all_eq_true.mp (hnames _ k.mem_names)

theorem not_mem_name {c : Char} (hc : c.isAlpha = false) (k : Kind) : c ∉ k.name.toList := by
  intro h
  rw [k.isAlpha_name c h] at hc
  cases hc

theorem visible_name (k : Kind) : Visible k.name.toList := by
  have hnames : ∀ name ∈ names, Visible name.toList := by decide
  exact hnames _ k.mem_names

/-- Kinds of one name differ only in what they carry. -/
theorem name_inj {k k' : Kind} : k.name = k'.name ↔ k.ctorIdx = k'.ctorIdx := by
  constructor
  · intro h
    have hlt := (List.getElem?_eq_some_iff.mp k.getElem?_names).1
    have hnames : names.Nodup := by decide
    exact (List.getElem?_inj hlt hnames).mp (by rw [getElem?_names, getElem?_names, h])
  · intro h
    have hname := k.getElem?_names
    rw [h, getElem?_names] at hname
    exact (Option.some.inj hname).symm

end Kind

namespace Token

theorem display_eq (t : Token) :
    t.display = "[Type: ".toList ++ (t.kind.name.toList ++ ';' :: (" Text: \"".toList ++
      (asciiLine t.text ++ '"' :: ("; BeginPosition: ".toList ++ (decimal t.start ++ ';' ::
        (" Length: ".toList ++ (decimal t.length ++ [']']))))))) := by
  have htext : "; Text: \"".toList = ';' :: " Text: \"".toList := by decide
  have hstart : "\"; BeginPosition: ".toList = '"' :: "; BeginPosition: ".toList := by decide
  have hlength : "; Length: ".toList = ';' :: " Length: ".toList := by decide
  unfold display
  simp only [htext, hstart, hlength, List.append_assoc, List.cons_append]

theorem line_eq (t : Token) :
    t.line = flushRight 5 (decimal t.start) ++ '.' :: ('.' :: '=' ::
      (flushLeft 5 (decimal t.span.last) ++ ' ' ::
        (flushLeft 22 t.kind.name.toList ++ ' ' :: printableLine t.text))) := by
  have hdots : "..=".toList = ['.', '.', '='] := by decide
  rw [line, hdots, span]
  simp only [List.append_assoc, List.cons_append, List.nil_append]

variable {t u : Token}

theorem of_display (h : t.display = u.display) :
    t.kind.name = u.kind.name ∧ t.text = u.text ∧ t.start = u.start := by
  rw [display_eq, display_eq] at h
  have hname (k : Kind) := k.not_mem_name (c := ';') (by decide)
  have h := List.append_cancel_left h
  obtain ⟨hkind, h⟩ := eq_of_append_cons (hname _) (hname _) h
  have htext := congrArg unescape (List.append_cancel_left h)
  rw [unescape_asciiLine, unescape_asciiLine, Prod.mk.injEq] at htext
  obtain ⟨htext, h⟩ := htext
  have hdigits (n : Nat) := not_mem_decimal (c := ';') (by decide) n
  have h := List.append_cancel_left (List.cons.inj h).2
  obtain ⟨hstart, -⟩ := eq_of_append_cons (hdigits _) (hdigits _) h
  exact ⟨String.toList_injective hkind, htext, decimal_inj hstart⟩

theorem of_line (h : t.line = u.line) :
    t.kind.name = u.kind.name ∧ t.text = u.text ∧ t.start = u.start := by
  rw [line_eq, line_eq] at h
  have hspace (n : Nat) := not_mem_decimal (c := ' ') (by decide) n
  have hname (k : Kind) := k.not_mem_name (c := ' ') (by decide)
  have hdot (n : Nat) : '.' ∉ flushRight 5 (decimal n) := by
    intro hc
    rcases List.mem_append.mp hc with hc | hc
    · cases List.eq_of_mem_replicate hc
    · exact not_mem_decimal (by decide) n hc
  obtain ⟨hstart, h⟩ := eq_of_append_cons (hdot _) (hdot _) h
  obtain ⟨-, h⟩ := flushLeft_inj (hspace _) (hspace _) (List.cons.inj (List.cons.inj h).2).2
  obtain ⟨hkind, h⟩ := flushLeft_inj (hname _) (hname _) h
  have htext := congrArg unescape h
  rw [unescape_printableLine, unescape_printableLine, Prod.mk.injEq] at htext
  exact ⟨String.toList_injective hkind, htext.1,
    decimal_inj (flushRight_inj (hspace _) (hspace _) hstart)⟩

theorem visible_display (t : Token) : Visible t.display := by
  have hname := t.kind.visible_name
  have htext := visible_asciiLine t.text
  have hstart := visible_decimal t.start
  have hlength := visible_decimal t.length
  rw [display_eq]
  simp only [visible_append, visible_cons]
  exact ⟨by decide, hname, by decide, by decide, htext, by decide, by decide, hstart, by decide,
    by decide, hlength, by decide⟩

theorem unbroken_line (t : Token) : Unbroken t.line := by
  have hstart := unbroken_flushRight (w := 5) (visible_decimal t.start).unbroken
  have hlast := unbroken_flushLeft (w := 5) (visible_decimal t.span.last).unbroken
  have hname := unbroken_flushLeft (w := 22) t.kind.visible_name.unbroken
  have htext := (Escapes.printableLine t.text).unbroken
  rw [line_eq]
  simp only [unbroken_append, unbroken_cons]
  exact ⟨hstart, by decide, by decide, by decide, hlast, by decide, hname, by decide, htext⟩

end Token

theorem Span.visible_text (s : Span) : Visible s.text := by
  rw [text, visible_append, visible_append]
  exact ⟨⟨visible_decimal _, by decide⟩, visible_decimal _⟩

theorem Clause.unbroken_line (c : Clause) : Unbroken c.line := by
  have hkind : Visible c.kind.spelling.toList := by cases c.kind <;> decide
  have hspelling := unbroken_flushLeft (w := 14) hkind.unbroken
  have hspan := unbroken_flushLeft (w := 12) c.span.visible_text.unbroken
  have htext := (Escapes.printableLine c.plainText).unbroken
  have hindent : Visible "  ".toList := by decide
  rw [line]
  simp only [unbroken_append, unbroken_cons]
  exact ⟨⟨⟨hindent.unbroken, hspelling⟩, by decide, hspan⟩, by decide, htext⟩

namespace Statement

theorem unbroken_lines (number : Nat) (s : Statement) : ∀ l ∈ s.lines number, Unbroken l := by
  refine List.forall_mem_cons.mpr ⟨?_, fun l hl => ?_⟩
  · have hkind : Visible s.kind.spelling.toList := by cases s.kind <;> decide
    have hnumber := (visible_decimal number).unbroken
    have hspan := s.span.visible_text.unbroken
    simp only [unbroken_append, unbroken_cons]
    exact ⟨⟨⟨by decide, hnumber⟩, by decide, hkind.unbroken⟩, by decide, hspan⟩
  · obtain ⟨c, -, rfl⟩ := List.mem_map.mp hl
    exact c.unbroken_line

theorem count_block (number : Nat) (s : Statement) :
    (s.block number).count '\n' = 1 + s.clauses.length := by
  have hzero : ((s.lines number).map (·.count '\n')).sum = 0 := by
    refine List.sum_eq_zero fun n hn => ?_
    obtain ⟨l, hl, rfl⟩ := List.mem_map.mp hn
    exact (s.unbroken_lines number l hl).count (.inl rfl)
  rw [block, count_lines, hzero, lines, List.length_cons, List.length_map]
  omega

theorem getLast?_block (number : Nat) (s : Statement) : (s.block number).getLast? = some '\n' :=
  getLast?_lines (List.cons_ne_nil _ _)

end Statement

/-- A rendering is a line that loses nothing. From the line that shows a token its kind can be told,
its text and its place, and no line break is in it, whatever the text holds; where the line is to be
ASCII, it is. A statement takes a line for itself and one for each of its clauses. -/
theorem renderings_lossless :
    (∀ t u : Token, t.display = u.display ↔
      t.kind.ctorIdx = u.kind.ctorIdx ∧ t.text = u.text ∧ t.start = u.start) ∧
    (∀ (t : Token), ∀ c ∈ t.display, ' ' ≤ c ∧ c ≤ '~') ∧
    (∀ t u : Token, t.line = u.line ↔
      t.kind.ctorIdx = u.kind.ctorIdx ∧ t.text = u.text ∧ t.start = u.start) ∧
    (∀ (t : Token), ∀ c ∈ t.line, c ≠ '\n' ∧ c ≠ '\r') ∧
    ∀ (number : Nat) (s : Statement), (s.block number).count '\n' = 1 + s.clauses.length ∧
      (s.block number).getLast? = some '\n' := by
  refine ⟨fun t u => ⟨fun h => ?_, fun h => ?_⟩, Token.visible_display,
    fun t u => ⟨fun h => ?_, fun h => ?_⟩, Token.unbroken_line,
    fun number s => ⟨s.count_block number, s.getLast?_block number⟩⟩
  · obtain ⟨hname, h⟩ := Token.of_display h
    exact ⟨Kind.name_inj.mp hname, h⟩
  · obtain ⟨hkind, htext, hstart⟩ := h
    unfold Token.display Token.length
    rw [Kind.name_inj.mpr hkind, htext, hstart]
  · obtain ⟨hname, h⟩ := Token.of_line h
    exact ⟨Kind.name_inj.mp hname, h⟩
  · obtain ⟨hkind, htext, hstart⟩ := h
    unfold Token.line Token.span Token.length
    rw [Kind.name_inj.mpr hkind, htext, hstart]

end SqlOutline
