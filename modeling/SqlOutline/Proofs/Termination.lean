import SqlOutline.Proofs.Delivery
import SqlOutline.Proofs.Reading
import SqlOutline.Proofs.Recursion
import SqlOutline.Proofs.Significant

namespace SqlOutline
open Parse Lexeme

namespace Reader

/-- What a lexeme takes and what it leaves are all that was unread. -/
theorem munch_unread (m : Munch) (r : Reader) :
    r.unread = (r.munch m).1 ++ (r.munch m).2.unread := by
  induction hl : r.unread.length using Nat.strongRecOn generalizing r m with
  | ind l ih =>
    rw [munch]
    cases h : r.read.1 with
    | false =>
      obtain ⟨hnil, hnil'⟩ := unread_of_read_false h
      simp [hnil, hnil']
    | true =>
      obtain ⟨hcons, hback⟩ := read_unread h
      simp only [if_true]
      cases m.next r.read.2.current with
      | none => exact hback.symm
      | some m' =>
        have hlen := read_true_length h
        have hrest := ih _ (by omega) m' r.read.2 rfl
        rw [hcons]
        exact congrArg _ hrest

theorem readPastBlanks_unread (r : Reader) :
    ∃ (gap : List Char) (r' : Reader), r.readPastBlanks = r'.read ∧
      r.unread = gap ++ r'.unread ∧ ∀ c ∈ gap, Text.isBlank c = true := by
  induction hl : r.unread.length using Nat.strongRecOn generalizing r with
  | ind l ih =>
    rw [readPastBlanks]
    cases h : r.read.1 with
    | false => exact ⟨[], r, rfl, rfl, by simp⟩
    | true =>
      obtain ⟨hcons, -⟩ := read_unread h
      cases hb : Text.isBlank r.read.2.current with
      | false => exact ⟨[], r, rfl, rfl, by simp⟩
      | true =>
        have hlen := read_true_length h
        obtain ⟨gap, r', hr, hu, hgap⟩ := ih _ (by omega) r.read.2 rfl
        refine ⟨r.read.2.current :: gap, r', hr, by rw [hcons, hu, List.cons_append], ?_⟩
        exact List.forall_mem_cons.mpr ⟨hb, hgap⟩

end Reader

/-- Every move to a token reads that token and, where they are none, the blanks in front of it. -/
theorem TokenSource.move_unread {src : TokenSource} (h : src.move.1 = true) :
    ∃ (gap : List Char) (t : Token), src.move.2.current = some t ∧ t.text ≠ [] ∧
      src.reader.unread = gap ++ t.text ++ src.move.2.reader.unread ∧
      ∀ c ∈ gap, Text.isBlank c = true ∧ src.settings.blanks = false := by
  obtain ⟨gap, r, hr, hu, hgap⟩ : ∃ (gap : List Char) (r : Reader),
      (if src.settings.blanks then src.reader.read else src.reader.readPastBlanks) = r.read ∧
      src.reader.unread = gap ++ r.unread ∧
      ∀ c ∈ gap, Text.isBlank c = true ∧ src.settings.blanks = false := by
    cases hb : src.settings.blanks with
    | true => exact ⟨[], src.reader, rfl, rfl, by simp⟩
    | false =>
      obtain ⟨gap, r, hr, hu, hgap⟩ := src.reader.readPastBlanks_unread
      exact ⟨gap, r, hr, hu, fun c hc => ⟨hgap c hc, rfl⟩⟩
  simp only [move, advance, hr] at h ⊢
  cases he : src.ended with
  | true => simp [he] at h
  | false =>
    cases hread : r.read.1 with
    | false => simp [he, hread] at h
    | true =>
      simp only [Bool.false_eq_true, if_false, if_true]
      refine ⟨gap, _, rfl, List.cons_ne_nil _ _, ?_, hgap⟩
      rw [hu, (Reader.read_unread hread).1, Reader.munch_unread (.start r.read.2.current)]
      simp [Token.ofLexeme]

theorem length_tokensAt_le (settings : Settings) (start : Nat) (text : List Char) :
    (tokensAt settings start text).length ≤ text.length := by
  fun_induction tokensAt settings start text with
  | case1 => exact Nat.le_refl _
  | case2 start c t _ ih => exact Nat.le_succ_of_le ih
  | case3 start c t _ run ih =>
    have hrun := Munch.run_snd_length_le (.start c) t
    rw [List.length_cons, List.length_cons]
    exact Nat.succ_le_succ (Nat.le_trans ih hrun)

/-- What the parse succeeds with has read its own tokens, at least one. What it fails at has read
none that it did not find ahead. -/
structure Parse.Consumes {α : Type} (p : Parse α) (tokens : α → List Token) : Prop where
  gives {s r : Ahead} {a : α} (h : p.Gives s a r) : s = tokens a ++ r ∧ tokens a ≠ []
  fails {s r : Ahead} {e : Fault} (h : p.Fails s e r) : r <:+ s

theorem Parse.Consumes.of_segments {α : Type} {p : Parse α} {tokens : α → List Token}
    (progress : p.Progresses) (h : p.Segments tokens) : p.Consumes tokens where
  gives {s r a} hp := by
    refine ⟨(h hp).split, fun hnil => ?_⟩
    have hlt := hp.length_lt progress
    rw [(h hp).split, hnil] at hlt
    exact absurd hlt (Nat.lt_irrefl _)
  fails hp := hp.suffix

/-- Every statement holds a significant token: that which is not noise before it. -/
theorem Outline.length_statements_le (limit : Nat) (s : Ahead) :
    (ofAhead limit s).statements.length ≤ (Token.significant s).length := by
  induction hl : s.length using Nat.strongRecOn generalizing s with
  | ind l ih =>
    rcases statements_cases limit s with hnone | ⟨st, r, h, hlt, hsts⟩
    · rw [hnone]
      exact Nat.zero_le _
    · have hrest := ih _ (by omega) r rfl
      have hread : (Statement.read limit).Consumes Statement.tokens :=
        .of_segments (.readStatement limit) (Segments.readStatement limit)
      obtain ⟨hsplit, hne⟩ := hread.gives h
      obtain ⟨t, ts, htokens⟩ := List.exists_cons_of_ne_nil hne
      have ht : t.isTrivia = false := by
        have := s.not_noise_of_dropNoise t (by simp [hsplit, htokens])
        simp_all [Ahead.isNoise]
      have hcount := (s.dropNoise_suffix.sublist.filter (!·.isTrivia)).length_le
      rw [hsplit, htokens] at hcount
      simp only [List.cons_append, List.filter_cons, ht, Bool.not_false, if_true,
        List.filter_append, List.length_cons, List.length_append] at hcount
      rw [hsts, List.length_cons]
      simp only [Token.significant] at hrest ⊢
      omega

theorem StatementReader.items_eq (r : StatementReader) :
    ∃ (sts : List Statement) (fault : Option Fault),
      r.items = sts.map .ok ++ fault.toList.map .error ∧
      sts.length ≤ (Token.significant r.ahead).length := by
  unfold items
  split
  · exact ⟨[], none, rfl, Nat.zero_le _⟩
  · exact ⟨_, _, rfl, Outline.length_statements_le _ _⟩

/-- Reading always goes on, and ends, whatever the limit. A move to a token reads that token, which
is never empty. A clause, a query in parentheses and a statement have read their own tokens, at
least one, and a fault gives back none. A query in parentheses is never begun with fewer parentheses
opened than there are queries around it and with it: what would be read otherwise has no part in the
reply. So the limit is not what ends the recursion: without one there are readers of the queries at
each depth, and only one such family, which reads what any limit reads that the parentheses ahead do
not exceed. And no reader has more statements to deliver than significant tokens ahead, and at most
one fault behind them. -/
theorem reading_ends :
    (∀ src : TokenSource, src.move.1 = true →
      ∃ (gap : List Char) (t : Token), src.move.2.current = some t ∧ t.text ≠ [] ∧
        src.reader.unread = gap ++ t.text ++ src.move.2.reader.unread ∧
        ∀ c ∈ gap, Text.isBlank c = true ∧ src.settings.blanks = false) ∧
    (∀ (depth room : Nat) (kind : ClauseKind),
      (clause (Select.readNested depth room) kind).Consumes Clause.tokens ∧
      (∀ s c r, (clause? (Select.readNested depth room) kind).Gives s (some c) r →
        s = c.tokens ++ r) ∧
      (Select.readNested depth room).Consumes Select.tokens) ∧
    (∀ limit, (Statement.read limit).Consumes Statement.tokens) ∧
    (∀ (limit : Nat) (s : Ahead) (other : Nat → Parse Select),
      (Statement.readBy (Select.readWithin (Token.opened s) other 0 limit)).run s =
        (Statement.read limit).run s) ∧
    (∃ sub, Select.Unlimited sub ∧ (∀ sub', Select.Unlimited sub' → sub' = sub) ∧
      ∀ (limit : Nat) (s : Ahead), Token.opened s ≤ limit →
        (Statement.read limit).run s = (Statement.readBy (sub 0)).run s) ∧
    (∀ r : StatementReader, ∃ (sts : List Statement) (fault : Option Fault),
      (∀ k, r.item k = (sts.map .ok ++ fault.toList.map .error)[k]?) ∧
      sts.length ≤ (Token.significant r.ahead).length) ∧
    ∀ (settings : Settings) (text : List Char), (tokenize settings text).length ≤ text.length ∧
      Token.opened (tokenize settings text) ≤ text.length := by
  refine ⟨fun _ => TokenSource.move_unread, fun depth room kind => ⟨?_, fun s c r h => ?_, ?_⟩,
    fun limit => ?_, Statement.read_within, ?_, fun r => ?_, fun settings text => ?_⟩
  · exact .of_segments (.clause _ _) (.clause (Segments.readNested depth room) kind)
  · exact (Segments.clause? (Segments.readNested depth room) kind h).split
  · exact .of_segments (.readNested depth room) (Segments.readNested depth room)
  · exact .of_segments (.readStatement limit) (Segments.readStatement limit)
  · have unlimited := Select.unlimited_readUnlimited
    exact ⟨_, unlimited, fun _ h => h.unique unlimited, fun limit s hs =>
      Statement.read_unlimited unlimited hs⟩
  · obtain ⟨sts, fault, hitems, hle⟩ := r.items_eq
    exact ⟨sts, fault, fun k => by rw [r.item_eq, hitems], hle⟩
  · have hlen := length_tokensAt_le settings 0 text
    exact ⟨hlen, Nat.le_trans List.countP_le_length hlen⟩

end SqlOutline
