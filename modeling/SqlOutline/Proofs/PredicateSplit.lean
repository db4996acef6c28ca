import SqlOutline.Predicate
import SqlOutline.Proofs.Delimited
import SqlOutline.Proofs.Delivery
import SqlOutline.Proofs.Placement
import SqlOutline.Proofs.Spelling

namespace SqlOutline
open Parse

inductive Predicate.Part where
  | field | operator | value
  deriving DecidableEq

namespace Token

def isConnective (t : Token) : Bool :=
  t.connective?.isSome

/-- The part of a predicate that a token belongs to, if it joins none. -/
def part (t : Token) : Predicate.Part :=
  match t.kind with
  | .identifier | .systemIdentifier | .punctuation _ => .field
  | .operator => .operator
  | _ => .value

def ofPart (part : Predicate.Part) (ts : List Token) : List Token :=
  ts.filter (·.part = part)

/-- Every token is of one part. -/
theorem perm_parts (ts : List Token) :
    (ofPart .field ts ++ ofPart .operator ts ++ ofPart .value ts).Perm ts := by
  induction ts with
  | nil => exact .nil
  | cons t ts ih =>
    cases h : t.part with
    | field =>
      simpa [ofPart, h] using ih
    | operator =>
      refine .trans ?_ (ih.cons t)
      simp [ofPart, h]
    | value =>
      refine .trans ?_ (ih.cons t)
      simp [ofPart, h, -List.append_assoc]

/-- A connective is known by its letters. -/
theorem connective_spelling {settings : Settings} {text : List Char} {t : Token}
    (ht : t ∈ tokenize settings text) (h : t.isConnective = true) :
    t.connective?.map (·.keyword.spelling.toList) = some (Text.upper t.text) := by
  obtain ⟨p, c, w, -, rfl, -⟩ := lexeme_of_mem_tokensAt ht
  simp only [isConnective, connective?, ofLexeme] at h ⊢
  cases hk : Lexeme.kind settings.quoted (c :: w) with
  | connective joint =>
    rcases Lexeme.upper_of_kind hk (List.cons_ne_nil _ _) with ⟨word, hword, hupper⟩ | ⟨hop, -⟩
    · obtain rfl := List.mem_singleton.mp hword
      exact congrArg some hupper.symm
    · cases hop
  | _ => simp [hk] at h

end Token

namespace Predicate

/-- The predicate that the tokens between two connectives make, behind the first of them. -/
def ofSegment (connective : Option Connective) (ts : List Token) : Predicate where
  connective
  field := [' '].intercalate ((Token.ofPart .field ts).map Token.text)
  operator := [' '].intercalate ((Token.ofPart .operator ts).map Token.text)
  value := [' '].intercalate ((Token.ofPart .value ts).map Token.text)

theorem add_eq (p : Predicate) (t : Token) :
    p.add t = match t.part with
      | .field => { p with field := addWord p.field t.text }
      | .operator => { p with operator := addWord p.operator t.text }
      | .value => { p with value := addWord p.value t.text } := by
  unfold add Token.part
  cases t.kind <;> rfl

theorem foldl_add (p : Predicate) (ts : List Token) :
    ts.foldl add p = {
      connective := p.connective
      field := ((Token.ofPart .field ts).map Token.text).foldl addWord p.field
      operator := ((Token.ofPart .operator ts).map Token.text).foldl addWord p.operator
      value := ((Token.ofPart .value ts).map Token.text).foldl addWord p.value } := by
  induction ts generalizing p with
  | nil => rfl
  | cons t ts ih =>
    rw [List.foldl_cons, ih, add_eq]
    cases h : t.part <;> simp [Token.ofPart, h]

theorem foldl_addWord_of_ne_nil {word : List Char} (h : word ≠ []) (ws : List (List Char)) :
    ws.foldl addWord word = [' '].intercalate (word :: ws) := by
  induction ws generalizing word with
  | nil => simp
  | cons w ws ih =>
    have hadd : addWord word w = word ++ ' ' :: w := if_neg (by simpa using h)
    rw [List.foldl_cons, hadd, ih (by simp)]
    cases ws <;> simp [List.intercalate]

theorem foldl_addWord {ws : List (List Char)} (h : ∀ w ∈ ws, w ≠ []) :
    ws.foldl addWord [] = [' '].intercalate ws := by
  cases ws with
  | nil => rfl
  | cons w ws => exact foldl_addWord_of_ne_nil (h w List.mem_cons_self) ws

theorem foldl_add_begin {ts : List Token} (h : ∀ t ∈ ts, t.text ≠ []) (c : Option Connective) :
    ts.foldl add { connective := c } = ofSegment c ts := by
  have words (part : Part) :
      ∀ w ∈ (Token.ofPart part ts).map Token.text, w ≠ [] := by
    intro w hw
    obtain ⟨t, ht, rfl⟩ := List.mem_map.mp hw
    exact h t (List.mem_of_mem_filter ht)
  rw [foldl_add, foldl_addWord (words _), foldl_addWord (words _), foldl_addWord (words _)]
  rfl

theorem isEmpty_add {t : Token} (h : t.text ≠ []) (p : Predicate) : (p.add t).isEmpty = false := by
  have hword (part : List Char) : addWord part t.text ≠ [] := by
    unfold addWord
    split
    · exact h
    · simp
  rw [add_eq]
  cases t.part <;> simp [isEmpty, hword]

/-- What has been begun goes on to the first connective, and every other predicate from one to the
next. The induction is on the tokens; a connective begins a predicate that is not empty, however
little follows. -/
theorem split_eq {p : Predicate} {ts : List Token} (htexts : ∀ t ∈ ts, t.text ≠ [])
    (h : p.isEmpty = false ∨ ts ≠ []) :
    split p ts = List.zipWith (fun start segment => segment.foldl add start)
      (p :: (ts.filter Token.isConnective).map fun t => { connective := t.connective? })
      (ts.splitOnP Token.isConnective) := by
  induction ts generalizing p with
  | nil =>
    have hp := h.resolve_right fun h => h rfl
    simp [split, hp]
  | cons t ts ih =>
    obtain ⟨ht, hts⟩ := List.forall_mem_cons.mp htexts
    rw [List.splitOnP_cons_eq_if_modifyHead]
    cases hc : t.connective? with
    | some c =>
      have hjoint : t.isConnective = true := by simp [Token.isConnective, hc]
      rw [split, hc, if_pos hjoint, List.filter_cons_of_pos hjoint]
      dsimp only
      rw [ih hts (.inl rfl), List.map_cons, hc]
      rfl
    | none =>
      have hjoint : ¬ t.isConnective = true := by simp [Token.isConnective, hc]
      rw [split, hc, if_neg hjoint, List.filter_cons_of_neg hjoint]
      dsimp only
      rw [ih hts (.inl (isEmpty_add ht p))]
      obtain ⟨segment, segments, hs⟩ :=
        List.exists_cons_of_ne_nil (List.splitOnP_ne_nil Token.isConnective ts)
      rw [hs]
      rfl

end Predicate

section splitOnP

variable {α : Type} (p : α → Bool)

theorem length_splitOnP (xs : List α) : (xs.splitOnP p).length = (xs.filter p).length + 1 := by
  induction xs with
  | nil => rfl
  | cons x xs ih =>
    rw [List.splitOnP_cons_eq_if_modifyHead, List.filter_cons]
    split
    · rw [List.length_cons, ih, List.length_cons]
    · rw [List.length_modifyHead, ih]

theorem of_mem_splitOnP {xs ys : List α} (h : ys ∈ xs.splitOnP p) :
    ∀ y ∈ ys, y ∈ xs ∧ p y = false := by
  induction xs generalizing ys with
  | nil =>
    obtain rfl : ys = [] := by simpa using h
    simp
  | cons x xs ih =>
    have behind {zs : List α} (hz : zs ∈ xs.splitOnP p) : ∀ z ∈ zs, z ∈ x :: xs ∧ p z = false :=
      fun z hz' => ⟨List.mem_cons_of_mem x (ih hz z hz').1, (ih hz z hz').2⟩
    rw [List.splitOnP_cons_eq_if_modifyHead] at h
    obtain ⟨first, rest, hs⟩ := List.exists_cons_of_ne_nil (List.splitOnP_ne_nil p xs)
    rw [hs] at h behind
    split at h
    · rcases List.mem_cons.mp h with rfl | h
      · simp
      · exact behind h
    next hx =>
      rcases List.mem_cons.mp h with rfl | h
      · refine List.forall_mem_cons.mpr ⟨⟨List.mem_cons_self, by simpa using hx⟩, ?_⟩
        exact behind List.mem_cons_self
      · exact behind (List.mem_cons_of_mem _ h)

end splitOnP

namespace Clause

/-- The significant tokens behind the first, which is the lead. -/
def content (c : Clause) : List Token :=
  c.significant.drop 1

def joints (c : Clause) : List Token :=
  c.content.filter Token.isConnective

/-- What stands between the connectives, before the first and behind the last. -/
def segments (c : Clause) : List (List Token) :=
  c.content.splitOnP Token.isConnective

/-- The predicates of a clause are its segments, each with the connective in front of it: one for
each, unless the clause holds nothing. The segments and the connectives are all that it holds, and
every token of a segment goes to one part of its predicate. -/
structure Partitioned (c : Clause) : Prop where
  empty : c.content = [] → c.predicates = []
  predicates : c.content ≠ [] → c.predicates =
    List.zipWith Predicate.ofSegment (none :: c.joints.map Token.connective?) c.segments
  length : c.content ≠ [] → c.predicates.length = c.joints.length + 1
  whole : (List.zipWith (· ++ ·) c.segments (c.joints.map ([·]) ++ [[]])).flatten = c.content
  joined : ∀ t ∈ c.joints,
    t.connective?.map (·.keyword.spelling.toList) = some (Text.upper t.text)
  parted : ∀ ts ∈ c.segments, (∀ t ∈ ts, t.isConnective = false) ∧
    (Token.ofPart .field ts ++ Token.ofPart .operator ts ++ Token.ofPart .value ts).Perm ts

theorem length_segments (c : Clause) : c.segments.length = c.joints.length + 1 :=
  length_splitOnP _ _

theorem content_subset (c : Clause) : c.content ⊆ c.tokens :=
  fun _ ht => List.mem_of_mem_filter (List.mem_of_mem_drop ht)

theorem predicates_eq {c : Clause} (h : ∀ t ∈ c.tokens, t.text ≠ []) (hne : c.content ≠ []) :
    c.predicates =
      List.zipWith Predicate.ofSegment (none :: c.joints.map Token.connective?) c.segments := by
  have htexts : ∀ t ∈ c.content, t.text ≠ [] := fun t ht => h t (c.content_subset ht)
  have hbegin : ({} : Predicate) :: c.joints.map (fun t => { connective := t.connective? }) =
      (none :: c.joints.map Token.connective?).map fun joint => { connective := joint } := by
    simp
  rw [predicates, ← content, Predicate.split_eq htexts (.inr hne), ← joints, hbegin,
    List.zipWith_map_left, ← segments, ← List.map_uncurry_zip_eq_zipWith,
    ← List.map_uncurry_zip_eq_zipWith]
  refine List.map_congr_left fun ⟨joint, ts⟩ hmem => ?_
  have hts := of_mem_splitOnP Token.isConnective (List.of_mem_zip hmem).2
  exact Predicate.foldl_add_begin (fun t ht => htexts t (hts t ht).1) joint

theorem partitioned_of_mem {settings : Settings} {text : List Char} {c : Clause}
    (h : c.tokens ⊆ tokenize settings text) : c.Partitioned := by
  have htexts : ∀ t ∈ c.tokens, t.text ≠ [] := fun t ht =>
    (Token.laid_tokenize settings text).nonempty t (h ht)
  refine ⟨fun hnil => ?_, predicates_eq htexts, fun hne => ?_, List.splitOnP_spec _, fun t ht => ?_,
    fun ts hts => ⟨fun t ht => (of_mem_splitOnP _ hts t ht).2, Token.perm_parts ts⟩⟩
  · rw [predicates, ← content, hnil]
    rfl
  · rw [predicates_eq htexts hne, List.length_zipWith, c.length_segments, List.length_cons,
      List.length_map, Nat.min_self]
  · obtain ⟨hmem, hjoint⟩ := List.mem_filter.mp ht
    exact Token.connective_spelling (h (c.content_subset hmem)) hjoint

end Clause

theorem Statement.tokens_subset {limit : Nat} {s r : Ahead} {st : Statement} {c : Clause}
    (h : (Statement.read limit).Gives s st r) (hc : c ∈ st.clauses) : c.tokens ⊆ s := by
  rw [(Segments.readStatement limit h).split]
  exact fun t ht => List.mem_append_left _ (List.mem_flatMap_of_mem hc ht)

/-- Every statement of an outline was read from what stood ahead. -/
theorem Outline.gives_of_mem {limit : Nat} {s : Ahead} {st : Statement}
    (h : st ∈ (ofAhead limit s).statements) :
    ∃ m r, m <:+ s ∧ (Statement.read limit).Gives m st r := by
  induction hl : s.length using Nat.strongRecOn generalizing s with
  | ind l ih =>
    rcases statements_cases limit s with hnone | ⟨first, r, hread, hlt, hsts⟩
    · rw [hnone] at h
      cases h
    · rw [hsts] at h
      have hsuffix := hread.suffix.trans s.dropNoise_suffix
      rcases List.mem_cons.mp h with rfl | h
      · exact ⟨_, r, s.dropNoise_suffix, hread⟩
      · obtain ⟨m, r', hm, hst⟩ := ih _ (by omega) h rfl
        exact ⟨m, r', hm.trans hsuffix, hst⟩

theorem Outline.tokens_subset {settings : Settings} {text : List Char} {st : Statement} {c : Clause}
    (h : st ∈ (ofText settings text).statements) (hc : c ∈ st.clauses) :
    c.tokens ⊆ tokenize settings text := by
  obtain ⟨m, r, hsuffix, hread⟩ := gives_of_mem h
  have htokens := Statement.tokens_subset hread hc
  exact List.Subset.trans htokens hsuffix.subset

/-- No token of a condition gets lost, and none comes in twice. -/
theorem predicates_partition (settings : Settings) (text : List Char) :
    (∀ (moves : List Move) (st : Statement),
      ((Statement.read settings.depth).run
        (moves.foldl (Move.after settings.depth) (tokenize settings text))).answer = .ok st →
      ∀ c ∈ st.clauses, c.Partitioned) ∧
    ∀ st ∈ (Outline.ofText settings text).statements, ∀ c ∈ st.clauses, c.Partitioned := by
  refine ⟨fun moves st h c hc => ?_, fun st hst c hc => ?_⟩
  · have hsuffix := Move.foldl_after_suffix settings.depth moves (tokenize settings text)
    have htokens := Statement.tokens_subset (Gives.of_answer h) hc
    exact Clause.partitioned_of_mem (List.Subset.trans htokens hsuffix.subset)
  · exact Clause.partitioned_of_mem (Outline.tokens_subset hst hc)

end SqlOutline
