namespace SqlOutline.Text

/-- Each text comes before the next, character by character. -/
def rising : List (List Char) → Bool
  | s :: t :: ts => s < t && rising (t :: ts)
  | _ => true

theorem pairwise_of_rising {ts : List (List Char)} (h : rising ts = true) :
    ts.Pairwise (· < ·) := by
  fun_induction rising ts with
  | case1 s t ts ih =>
    simp only [Bool.and_eq_true, decide_eq_true_eq] at h
    obtain ⟨hst, hrest⟩ := h
    have hpairs := ih hrest
    refine .cons (fun u hu => ?_) hpairs
    cases hu with
    | head => exact hst
    | tail _ hu => exact List.lt_trans hst (List.rel_of_pairwise_cons hpairs hu)
  | case2 ts hshort =>
    match ts with
    | [] => exact .nil
    | [t] => exact List.pairwise_singleton _ t
    | s :: t :: ts => exact absurd rfl (hshort s t ts)

/-- Whether the text is one of the words, which have to stand in rising order. The word in the middle
tells in which half to go on. -/
def search (t : List Char) (words : List String) : Bool :=
  match h : words.drop (words.length / 2) with
  | [] => false
  | w :: above =>
    if t = w.toList then true
    else if t < w.toList then search t (words.take (words.length / 2))
    else search t above
termination_by words.length
decreasing_by
  all_goals
    have hlength := congrArg List.length h
    simp only [List.length_drop, List.length_cons, List.length_take] at hlength ⊢
    omega

/-- Of rising words a half that is passed over does not hold the text. -/
theorem search_iff {words : List String} (h : (words.map String.toList).Pairwise (· < ·))
    (t : List Char) : search t words = true ↔ ∃ w ∈ words, t = w.toList := by
  fun_induction search t words with
  | case1 words hdrop =>
    have hlength := congrArg List.length hdrop
    simp only [List.length_drop, List.length_nil] at hlength
    have hnil : words = [] := List.length_eq_zero_iff.mp (by omega)
    simp [hnil]
  | case2 words w above hdrop ht =>
    have hw : w ∈ words := List.mem_of_mem_drop (hdrop ▸ List.mem_cons_self)
    simpa using ⟨w, hw, ht⟩
  | case3 words w above hdrop hne hlt ih =>
    have hsplit := List.take_append_drop (words.length / 2) words
    rw [hdrop] at hsplit
    generalize words.take (words.length / 2) = below at hsplit ih ⊢
    subst hsplit
    rw [List.map_append, List.pairwise_append] at h
    obtain ⟨hbelow, habove, -⟩ := h
    rw [ih hbelow]
    constructor
    · intro ⟨v, hv, ht⟩
      exact ⟨v, List.mem_append_left _ hv, ht⟩
    · intro ⟨v, hv, ht⟩
      refine ⟨v, (List.mem_append.mp hv).resolve_right fun hv => ?_, ht⟩
      cases hv with
      | head => exact hne ht
      | tail _ hv =>
        have hwv := List.rel_of_pairwise_cons habove (List.mem_map_of_mem hv)
        exact List.lt_asymm hlt (ht ▸ hwv)
  | case4 words w above hdrop hne hge ih =>
    have hsplit := List.take_append_drop (words.length / 2) words
    rw [hdrop] at hsplit
    generalize words.take (words.length / 2) = below at hsplit
    subst hsplit
    rw [List.map_append, List.pairwise_append] at h
    obtain ⟨-, habove, hpairs⟩ := h
    rw [ih (List.pairwise_cons.mp habove).2]
    constructor
    · intro ⟨v, hv, ht⟩
      exact ⟨v, List.mem_append_right _ (List.mem_cons_of_mem w hv), ht⟩
    · intro ⟨v, hv, ht⟩
      refine ⟨v, ?_, ht⟩
      rcases List.mem_append.mp hv with hv | hv
      · have hvw := hpairs v.toList (List.mem_map_of_mem hv) w.toList List.mem_cons_self
        exact absurd (ht ▸ hvw) hge
      · exact (List.mem_cons.mp hv).resolve_left fun he => hne (he ▸ ht)

end SqlOutline.Text
