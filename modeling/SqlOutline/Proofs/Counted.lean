import SqlOutline.Proofs.FlatScan
import SqlOutline.Proofs.Recursion
import SqlOutline.Proofs.SelfContained

namespace SqlOutline
open Parse

/-- What is read of a query depends neither on what follows it nor on the room that is left. -/
theorem Select.ahead_readUnlimited {depth room : Nat} {s r x : Ahead} {q : Select}
    (h : (readNested depth room).Gives (s ++ x) q (r ++ x)) (hs : (s ++ x).Settled) :
    ((readUnlimited 0).run s).ahead = r := by
  have hlt := h.length_lt (.readNested depth room)
  have settled : s.Settled := by
    cases s with
    | nil => simp [Ahead.Settled]
    | cons t s => exact hs
  let J : Coupling := .cut (f := id) (fun _ => rfl) x
  let n := max room (Token.opened s + 1)
  have met : J.Met n (s ++ x) s := ⟨⟨s, rfl, (List.map_id s).symm⟩, hs, settled⟩
  have runs : J.Runs (J.Met n) (readNested depth room) (readNested 0 n) (Select.Alike J.Clauses)
      (J.Met n) := Coupling.runs_readNested fun _ _ _ => Nat.le_max_left _ _
  obtain ⟨q', r', hread, -, ⟨u, hu, rfl⟩, -, -⟩ := runs met h (List.suffix_append r x)
  obtain rfl : r = u := List.append_cancel_right hu
  have agree : (readUnlimited 0).run s = (readNested 0 n).run s :=
    readNested_agree (Nat.le_refl _) (Nat.le_max_right _ _) 0 s (Nat.lt_succ_self _)
  rw [agree, hread.2, List.map_id]

/-- The tokens that a clause counts by. A SELECT in parentheses is read by itself, and its own
tokens never count. If it is read up to its closing parenthesis, the two parentheses do not count
either. If its reader stops before, the clause goes on there, inside the opening one. -/
def Clause.counted : List Token → List Token
  | [] => []
  | t :: ts =>
    let inner := ts.dropWhile Token.isTrivia
    if t.isPunctuation .openParen && Ahead.atKeyword [.select] inner then
      let rest := ((Select.readUnlimited 0).run inner).ahead
      if rest.head?.any (·.isPunctuation .closeParen) then counted rest.tail else t :: counted rest
    else t :: counted ts
termination_by ts => ts.length
decreasing_by
  all_goals
    have hrest := ((Select.readUnlimited 0).forward (ts.dropWhile Token.isTrivia)).length_le
    have hinner := (List.dropWhile_suffix Token.isTrivia (l := ts)).length_le
    simp only [List.length_tail, List.length_cons]
    omega

namespace Clause

variable {depth room : Nat} {kind : ClauseKind} {scope scope' : Scope} {s r x : Ahead}
  {t : Token} {gap ts more : List Token}

theorem counted_cons (h : t.isPunctuation .openParen = false) :
    counted (t :: ts) = t :: counted ts := by
  simp [counted, h]

theorem counted_plain (h : ∀ t ∈ gap, t.isPunctuation .openParen = false) :
    counted (gap ++ ts) = gap ++ counted ts := by
  induction gap with
  | nil => rfl
  | cons t gap ih =>
    rw [List.cons_append, counted_cons (h t List.mem_cons_self),
      ih fun u hu => h u (List.mem_cons_of_mem _ hu)]
    rfl

/-- A query in parentheses does not count. Where its reader stops, counting goes on as reading
does. -/
theorem counted_query {q : Select} (opening : t.isPunctuation .openParen = true)
    (select : Ahead.atKeyword [.select] (s.dropWhile Token.isTrivia) = true)
    (inner : (Select.readNested depth room).Gives (s.dropWhile Token.isTrivia) q (r ++ x)) :
    counted (t :: s.takeWhile Token.isTrivia ++ q.tokens ++ r) =
      if r.head?.any (·.isPunctuation .closeParen) then counted r.tail else t :: counted r := by
  have hsplit : s.dropWhile Token.isTrivia = (q.tokens ++ r) ++ x := by
    rw [(Parse.Segments.readNested depth room inner).split, List.append_assoc]
  have hlt := inner.length_lt (.readNested depth room)
  have settled := Ahead.settled_dropWhile s
  rw [hsplit] at select inner hlt settled
  have hrest := Select.ahead_readUnlimited inner settled
  cases hw : q.tokens ++ r with
  | nil =>
    obtain ⟨-, rfl⟩ := List.append_eq_nil_iff.mp hw
    simp [hw] at hlt
  | cons u w =>
    rw [hw] at select hrest
    have hu : u.isOneOf [.select] = true := select
    have htrivia : u.isTrivia = false := Token.isTrivia_of_isOneOf hu
    have hdrop : (s.takeWhile Token.isTrivia ++ u :: w).dropWhile Token.isTrivia = u :: w := by
      rw [List.dropWhile_append_of_pos (gap_isTrivia s),
        List.dropWhile_cons_of_neg (by simp [htrivia])]
    have hselect : Ahead.atKeyword [.select] (u :: w) = true := hu
    rw [List.append_assoc, hw, List.cons_append, counted]
    simp only [hdrop, opening, hselect, hrest, Bool.and_self, if_true]

/-- What a piece of a clause counts by is what takes its reader from one place to the other. -/
theorem Piece.counted (h : Piece (Select.readNested depth room) scope t s ts scope' (more ++ x))
    (go : kind.rule.stops scope t = false) :
    ∃ own, Clause.counted (ts ++ more) = own ++ Clause.counted more ∧
      kind.rule.Passes scope own scope' := by
  generalize hr : more ++ x = r at h
  cases h with
  | token single => exact ⟨[t], counted_cons single, go, rfl⟩
  | @query _ q close opening select inner closing =>
    subst hr
    have hcount := counted_query (r := close :: more) opening select inner
    refine ⟨[], ?_, rfl⟩
    rw [List.append_assoc, List.singleton_append, hcount]
    simp [closing]
  | @cut _ q opening select inner missing =>
    subst hr
    have hcount := counted_query opening select inner
    have hopen : more.head?.any (·.isPunctuation .closeParen) = false := by
      cases more with
      | nil => rfl
      | cons u more => exact missing u rfl
    refine ⟨[t], ?_, go, rfl⟩
    rw [hcount, hopen]
    rfl
  | group opening other =>
    have settled := Ahead.settled_dropWhile s
    rw [← hr] at settled other
    have hmore : Ahead.atKeyword [.select] (more.dropWhile Token.isTrivia) = false := by
      cases more with
      | nil => rfl
      | cons u more =>
        rw [List.dropWhile_cons_of_neg (by simp [settled u rfl])]
        exact other
    have hgap : (s.takeWhile Token.isTrivia ++ more).dropWhile Token.isTrivia =
        more.dropWhile Token.isTrivia := List.dropWhile_append_of_pos (gap_isTrivia s)
    refine ⟨t :: s.takeWhile Token.isTrivia, ?_, passes_gap opening go s⟩
    rw [List.cons_append, Clause.counted]
    simp only [hgap, hmore, Bool.and_false, Bool.false_eq_true, if_false]
    rw [counted_plain fun u hu => gap_plain s u hu _]
    rfl

end Clause

end SqlOutline
