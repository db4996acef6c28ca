import SqlOutline.Proofs.Delivery
import SqlOutline.Proofs.Slice
import SqlOutline.Proofs.StatementLimit

namespace SqlOutline
open Parse

/-- The tokens of a text do not depend on the limit. -/
theorem tokenize_depth (settings : Settings) (depth : Nat) (text : List Char) :
    tokenize { settings with depth } text = tokenize settings text := by
  unfold tokenize
  generalize 0 = p
  fun_induction tokensAt settings p text with
  | case1 => simp [tokensAt]
  | case2 p c u hb ih => rw [tokensAt, if_pos hb, ih]
  | case3 p c u hb run ih =>
    rw [tokensAt, if_neg hb]
    exact congrArg _ ih

namespace Outline

/-- The items of `s` with room for `depth` levels of queries, and with room for more. They are the
same, or those with less room end at a query that stands too deep, and the others do not end before
that query. -/
inductive Limited (depth depth' : Nat) (s : Ahead) : Prop where
  | same (items : (ofAhead depth s).items = (ofAhead depth' s).items)
      (other : ∀ l position, .error (.tooDeep l position) ∉ (ofAhead depth s).items) :
      Limited depth depth' s
  | stopped {t : Token} {r : Ahead} {sts : List Statement} {item : Except Fault Statement}
      {rest : List (Except Fault Statement)} (fault : Fails depth s (.tooDeep depth t.start) (t :: r))
      (left : (ofAhead depth s).items = sts.map .ok ++ [.error (.tooDeep depth t.start)])
      (right : (ofAhead depth' s).items = sts.map .ok ++ item :: rest)
      (select : t.isKeyword .select = true)
      (deep : depth + 1 + Token.opened (t :: r) ≤ Token.opened s)
      (beyond : ∀ e m, Fails depth' s e m → m <:+ t :: r) : Limited depth depth' s

variable {depth depth' : Nat} {s : Ahead}

/-- The recursion is on what a statement leaves, as where the outline is made. -/
theorem limited (h : depth ≤ depth') (s : Ahead) : Limited depth depth' s := by
  induction hl : s.length using Nat.strongRecOn generalizing s with
  | ind l ih =>
    have hopened := Token.opened_of_suffix s.dropNoise_suffix
    by_cases hs : s.dropNoise = []
    · refine .same (by rw [items_done hs, items_done hs]) ?_
      rw [items_done hs]
      exact fun _ _ => List.not_mem_nil
    cases Statement.limits_read h s.dropNoise with
    | @gives st m left right =>
      have hlt := Progresses.readStatement depth _ _ left.1
      have hle := s.dropNoise_suffix.length_le
      have hm := Token.opened_of_suffix left.suffix
      rw [left.2] at hlt
      cases ih _ (by omega) m rfl with
      | same items other =>
        refine .same ?_ ?_
        · rw [items_step left, items_step right, items]
        · simpa [items_step left] using other
      | @stopped t r sts item rest fault left' right' select deep beyond =>
        have hleft : (ofAhead depth s).items =
            (st :: sts).map .ok ++ [.error (.tooDeep depth t.start)] := by
          rw [items_step left, left']
          rfl
        have hright : (ofAhead depth' s).items = (st :: sts).map .ok ++ item :: rest := by
          rw [items_step right, right']
          rfl
        refine .stopped (.later left fault) hleft hright select (by omega) fun e r' h => ?_
        cases h with
        | here _ first => exact absurd first right.not_fails
        | later first rest =>
          cases first.1.symm.trans right.1
          cases first.2.symm.trans right.2
          exact beyond _ _ rest
    | fails left right other =>
      refine .same (by rw [items_fault hs left, items_fault hs right]) ?_
      simpa [items_fault hs left, eq_comm] using other
    | @stopped t r left select deep right =>
      obtain ⟨item, rest, hitems⟩ : ∃ item rest, (ofAhead depth' s).items = item :: rest := by
        rcases gives_or_fails (Statement.read depth') s.dropNoise with ⟨st, h⟩ | ⟨e, h⟩
        · exact ⟨_, _, items_step h⟩
        · exact ⟨_, _, items_fault hs h⟩
      have hleft : (ofAhead depth s).items = [].map .ok ++ [.error (.tooDeep depth t.start)] :=
        items_fault hs left
      refine .stopped (.here hs left) hleft hitems select (by omega) fun e m h => ?_
      cases h with
      | here _ first => exact first.2 ▸ right
      | later first rest => exact rest.suffix.trans (first.2 ▸ right)

end Outline

/-- The limit on nesting is a limit and nothing else. With room for more levels of queries a reader
delivers the same, or what it delivers with less room ends with a fault at a SELECT that stands too
deep, in the place of an item of the other reader. A fault of nesting for more room comes no earlier
than one for less, and there is none where no more parentheses are opened than the limit allows. -/
theorem nesting_limit_only (settings : Settings) (text : List Char) (depth : Nat)
    (h : settings.depth ≤ depth) :
    let tokens := tokenize settings text
    let reader := StatementReader.ofText settings text
    let deeper := StatementReader.ofText { settings with depth } text
    (∀ k, reader.item k = reader.items[k]?) ∧ (∀ k, deeper.item k = deeper.items[k]?) ∧
    (reader.items = deeper.items ∨
      ∃ (sts : List Statement) (item : Except Fault Statement) (rest : List (Except Fault Statement)),
        ∃ t ∈ tokens, t.isKeyword .select = true ∧
          reader.items = sts.map .ok ++ [.error (.tooDeep settings.depth t.start)] ∧
          deeper.items = sts.map .ok ++ item :: rest) ∧
    (∀ position', deeper.items.getLast? = some (.error (.tooDeep depth position')) →
      ∃ position ≤ position',
        reader.items.getLast? = some (.error (.tooDeep settings.depth position))) ∧
    (Token.opened tokens ≤ settings.depth →
      ∀ limit position, .error (.tooDeep limit position) ∉ reader.items) := by
  intro tokens reader deeper
  have hreader : reader.items = (Outline.ofAhead settings.depth tokens).items := rfl
  have hdeeper : deeper.items = (Outline.ofAhead depth tokens).items := by
    change (Outline.ofAhead depth (tokenize { settings with depth } text)).items = _
    rw [tokenize_depth]
  refine ⟨reader.item_eq, deeper.item_eq, ?_⟩
  rw [hreader, hdeeper]
  cases Outline.limited h tokens with
  | same items other =>
    refine ⟨.inl items, fun position' hp => ?_, fun _ => other⟩
    rw [← items] at hp
    exact absurd (List.mem_of_getLast? hp) (other _ _)
  | @stopped t r sts item rest fault left right select deep beyond =>
    have ht : t ∈ tokens := fault.suffix.mem List.mem_cons_self
    refine ⟨.inr ⟨sts, item, rest, t, ht, select, left, right⟩, fun position' hp => ?_, fun hd => ?_⟩
    · refine ⟨t.start, ?_, by simp [left]⟩
      -- A fault of nesting has a place of its own on either side, and the one lies behind the other.
      cases Outline.limited (Nat.le_refl depth) tokens with
      | same _ other => exact absurd (List.mem_of_getLast? hp) (other _ _)
      | @stopped t' r' _ _ _ fault' left' =>
        obtain rfl : t'.start = position' := by simpa [left'] using hp
        obtain ⟨front, hfront⟩ := fault.suffix
        exact start_le_of_tokenize hfront.symm rfl t' ((beyond _ _ fault').mem List.mem_cons_self)
    · have := Token.opened_of_suffix fault.suffix
      omega

/-- With room for one level the third query is too deep, and with room for none a query in front of
it. -/
theorem nesting_limit_only_third :
    let text := "SELECT(SELECT(SELECT".toList
    let settings : Settings := { depth := 0 }
    let deeper := StatementReader.ofText { settings with depth := 1 } text
    settings.depth ≤ 1 ∧ deeper.items.getLast? = some (.error (.tooDeep 1 14)) ∧
      ∃ position ≤ 14, (StatementReader.ofText settings text).items.getLast? =
        some (.error (.tooDeep 0 position)) := by
  intro text settings deeper
  have hfault : (Outline.ofAhead 1 deeper.ahead).fault = some (.tooDeep 1 14) := by
    decide +kernel
  have hlast : deeper.items.getLast? = some (.error (.tooDeep 1 14)) := by
    change (Outline.ofAhead 1 deeper.ahead).items.getLast? = _
    rw [Outline.items, hfault]
    exact List.getLast?_concat
  obtain ⟨-, -, -, hposition, -⟩ := nesting_limit_only settings text 1 (Nat.zero_le 1)
  exact ⟨Nat.zero_le 1, hlast, hposition 14 hlast⟩

end SqlOutline
