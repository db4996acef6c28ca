import SqlOutline.Proofs.TokenEnd

namespace SqlOutline
open Lexeme

/-- No mark of a comment starts at the character, where `s` is behind it. -/
def Unmarked (c : Char) (s : List Char) : Prop :=
  ¬ ['/', '*'] <+: c :: s ∧ ¬ ['*', '/'] <+: c :: s

theorem unmarked_cons {c d : Char} {s : List Char} :
    Unmarked c (d :: s) ↔ ¬ (c = '/' ∧ d = '*') ∧ ¬ (c = '*' ∧ d = '/') := by
  simp [Unmarked, List.cons_prefix_cons, eq_comm]

/-- What is behind the mark that opens a comment, up to the mark that closes it: in between stand
other comments, and characters at which no mark starts. -/
inductive CommentBody : List Char → Prop
  | close : CommentBody ['*', '/']
  | char {c : Char} {s : List Char} (unmarked : Unmarked c s) (rest : CommentBody s) :
      CommentBody (c :: s)
  | comment {s t : List Char} (inner : CommentBody s) (rest : CommentBody t) :
      CommentBody ('/' :: '*' :: (s ++ t))

/-- A block comment with all that is in it. -/
inductive Comment : List Char → Prop
  | marks {s : List Char} (body : CommentBody s) : Comment ('/' :: '*' :: s)

namespace CommentBody

variable {s t : List Char} {depth : Nat} {last : Option Char}

theorem eq_cons (h : CommentBody s) : ∃ c t, s = c :: t := by
  cases h <;> exact ⟨_, _, rfl⟩

/-- The lexer goes one comment deeper with each that opens and comes back behind it. The character
before is told apart from the mark that may take it. -/
theorem after (h : CommentBody s) (hdepth : 0 < depth) (hlast : ∀ c ∈ last, Unmarked c s) :
    (Munch.blockComment depth last).after s =
      some (if depth ≤ 1 then .full else .blockComment (depth - 1) none) := by
  induction h generalizing depth last with
  | close =>
    have hopen : last ≠ some '/' := fun h => (unmarked_cons.mp (hlast _ h)).1 ⟨rfl, rfl⟩
    simp [Munch.after, Munch.next, hopen]
  | @char c s unmarked rest ih =>
    obtain ⟨d, t, rfl⟩ := rest.eq_cons
    have hnext : (Munch.blockComment depth last).next c = some (.blockComment depth (some c)) := by
      have hopen : ¬ (last = some '/' ∧ c = '*') := fun h =>
        (unmarked_cons.mp (hlast _ h.1)).1 ⟨rfl, h.2⟩
      have hclose : ¬ (last = some '*' ∧ c = '/') := fun h =>
        (unmarked_cons.mp (hlast _ h.1)).2 ⟨rfl, h.2⟩
      rw [Munch.next, if_neg hopen, if_neg hclose]
    rw [Munch.after, hnext, Option.bind_some]
    exact ih hdepth (by simpa using unmarked)
  | @comment s t inner rest ihs iht =>
    have hopens : (Munch.blockComment depth last).after ['/', '*'] =
        some (.blockComment (depth + 1) none) := by
      have hclose : last ≠ some '*' := fun h => (unmarked_cons.mp (hlast _ h)).2 ⟨rfl, rfl⟩
      simp [Munch.after, Munch.next, hclose]
    have hnone : ∀ c ∈ (none : Option Char), Unmarked c s := by simp
    have hinner := ihs (Nat.add_one_pos depth) hnone
    rw [if_neg (by omega), Nat.add_sub_cancel] at hinner
    have happend : '/' :: '*' :: (s ++ t) = ['/', '*'] ++ (s ++ t) := rfl
    rw [happend, Munch.after_append, hopens, Option.bind_some, Munch.after_append, hinner,
      Option.bind_some]
    exact iht hdepth (by simp)

/-- The check of a finished comment pairs the marks in the same way. -/
theorem closesComment (h : CommentBody s) (hdepth : 0 < depth) (rest : List Char) :
    closesComment depth (s ++ rest) =
      if depth ≤ 1 then rest.isEmpty else Lexeme.closesComment (depth - 1) rest := by
  induction h generalizing depth rest with
  | close => simp [Lexeme.closesComment]
  | @char c s unmarked h ih =>
    obtain ⟨d, t, rfl⟩ := h.eq_cons
    obtain ⟨hopen, hclose⟩ := unmarked_cons.mp unmarked
    rw [← ih hdepth rest]
    exact closesComment_skip hopen hclose depth (t ++ rest)
  | @comment s t inner h ihs iht =>
    have hinner := ihs (Nat.add_one_pos depth) (t ++ rest)
    rw [if_neg (by omega), Nat.add_sub_cancel] at hinner
    rw [← iht hdepth rest, ← hinner, List.cons_append, List.cons_append, List.append_assoc]
    simp [Lexeme.closesComment]

/-- Where the lexer has left all comments it has read the rest of the innermost one, and then the
rest of those around it. The induction is on the length, as what is behind an inner comment is the
rest of the one around it. -/
theorem of_after {w : List Char} (hdepth : 0 < depth)
    (h : (Munch.blockComment depth last).after w = some .full) :
    ∃ s t, last.toList ++ w = s ++ t ∧ CommentBody s ∧
      if depth ≤ 1 then t = [] else (Munch.blockComment (depth - 1) none).after t = some .full := by
  induction hl : w.length using Nat.strongRecOn generalizing depth last w with
  | ind l ih =>
    cases w with
    | nil => cases h
    | cons c w =>
      rw [List.length_cons] at hl
      obtain ⟨m, hm, hw⟩ := Option.bind_eq_some_iff.mp h
      simp only [Munch.next] at hm
      split at hm
      next hopen =>
        obtain ⟨rfl, rfl⟩ := hopen
        cases hm
        obtain ⟨s, u, hsu, hs, hu⟩ := ih _ (by omega) (Nat.add_one_pos depth) hw rfl
        obtain rfl : w = s ++ u := hsu
        rw [List.length_append] at hl
        rw [if_neg (by omega), Nat.add_sub_cancel] at hu
        obtain ⟨t, v, htv, ht, hv⟩ := ih _ (by omega) hdepth hu rfl
        obtain rfl : u = t ++ v := htv
        refine ⟨'/' :: '*' :: (s ++ t), v, ?_, .comment hs ht, hv⟩
        simp
      split at hm
      next hclose =>
        obtain ⟨rfl, rfl⟩ := hclose
        cases hm
        refine ⟨['*', '/'], w, rfl, .close, ?_⟩
        split
        next hout =>
          rw [if_pos hout] at hw
          cases w with
          | nil => rfl
          | cons => cases hw
        next hin => rwa [if_neg hin] at hw
      next hopen hclose =>
        cases hm
        obtain ⟨s, t, hst, hs, ht⟩ := ih _ (by omega) hdepth hw rfl
        obtain ⟨d, s, rfl⟩ := hs.eq_cons
        obtain ⟨rfl, rfl⟩ : c = d ∧ w = s ++ t := List.cons.inj hst
        cases last with
        | none => exact ⟨c :: s, t, rfl, hs, ht⟩
        | some b =>
          have hb : Unmarked b (c :: s) := by
            rw [Option.some.injEq] at hopen hclose
            exact unmarked_cons.mpr ⟨hopen, hclose⟩
          exact ⟨b :: c :: s, t, rfl, .char hb hs, ht⟩

end CommentBody

/-- The lexer stays among comments until it has left them all. -/
theorem Lexeme.Munch.after_blockComment {depth : Nat} {last : Option Char} {w : List Char}
    {m : Munch} (h : (blockComment depth last).after w = some m) :
    m = .full ∨ ∃ depth' last', m = .blockComment depth' last' := by
  induction w generalizing depth last with
  | nil =>
    cases h
    exact .inr ⟨depth, last, rfl⟩
  | cons c w ih =>
    obtain ⟨m₁, hm, hw⟩ := Option.bind_eq_some_iff.mp h
    simp only [next] at hm
    split at hm
    · cases hm
      exact ih hw
    split at hm
    · cases hm
      split at hw
      · cases w with
        | nil =>
          cases hw
          exact .inl rfl
        | cons => cases hw
      · exact ih hw
    · cases hm
      exact ih hw

theorem CommentBody.lexed {s : List Char} (h : CommentBody s) (rest : List Char) :
    (Munch.blockComment 1 none).run (s ++ rest) = (s, rest) ∧
      (Munch.blockComment 1 none).exit (s ++ rest) = .full := by
  have hnone : ∀ c ∈ (none : Option Char), Unmarked c s := by simp
  have hafter := h.after Nat.one_pos hnone
  have hfull : Munch.full.run rest = ([], rest) ∧ Munch.full.exit rest = .full := by
    cases rest <;> exact ⟨rfl, rfl⟩
  rw [Munch.run_append_of_after hafter, Munch.exit_append_of_after hafter]
  exact ⟨by rw [if_pos (Nat.le_refl 1), hfull.1, List.append_nil], hfull.2⟩

/-- Behind the mark that opens a comment the lexer takes in the rest of the comment, if there is
one, and all of the text if there is none. The check of the finished lexeme agrees. -/
theorem Lexeme.Munch.run_blockComment (u : List Char) :
    (∃ s rest, u = s ++ rest ∧ CommentBody s ∧ (blockComment 1 none).run u = (s, rest) ∧
      (blockComment 1 none).exit u = .full ∧ closesComment 1 s = true) ∨
    (∀ s, CommentBody s → ¬ s <+: u) ∧ (blockComment 1 none).run u = (u, []) ∧
      (∃ depth last, (blockComment 1 none).exit u = .blockComment depth last) ∧
      closesComment 1 u = false := by
  have hrun := (blockComment 1 none).run_append u
  have hexit := (blockComment 1 none).after_run u
  rcases after_blockComment hexit with hfull | ⟨depth, last, hopen⟩
  · rw [hfull] at hexit
    obtain ⟨s, t, hst, hs, ht⟩ := CommentBody.of_after Nat.one_pos hexit
    obtain rfl : t = [] := ht
    obtain hst : ((blockComment 1 none).run u).1 = s := by simpa using hst
    rw [hst] at hrun
    have hcloses : closesComment 1 s = true := by simpa using hs.closesComment Nat.one_pos []
    exact .inl ⟨s, _, hrun.symm, hs, Prod.ext hst rfl, hfull, hcloses⟩
  · have hrest : ((blockComment 1 none).run u).2 = [] := by
      have hnext := (blockComment 1 none).next_exit u
      rw [hopen] at hnext
      refine List.head?_eq_none_iff.mp (Option.eq_none_iff_forall_not_mem.mpr fun c hc => ?_)
      have hc := hnext c hc
      simp only [next] at hc
      split at hc
      · cases hc
      split at hc <;> cases hc
    rw [hrest, List.append_nil] at hrun
    rw [hrun, hopen] at hexit
    have hmark : (blockComment 1 none).Shape ['/', '*'] := ⟨[], rfl, fun _ => rfl⟩
    have hcloses : closesComment 1 u = false := closesComment_of_shape (hmark.after hexit)
    refine .inr ⟨?_, Prod.ext hrun hrest, ⟨depth, last, hopen⟩, hcloses⟩
    rintro s hs ⟨rest, rfl⟩
    rw [(hs.lexed rest).2] at hopen
    cases hopen

/-- The mark that opens a comment is no other lexeme. -/
theorem Lexeme.Munch.run_comment (u : List Char) :
    (start '/').run ('*' :: u) =
      ('*' :: ((blockComment 1 none).run u).1, ((blockComment 1 none).run u).2) ∧
    (start '/').exit ('*' :: u) = (blockComment 1 none).exit u := by
  have hmark : (start '/').after ['*'] = some (.blockComment 1 none) := rfl
  exact ⟨run_append_of_after hmark u, exit_append_of_after hmark u⟩

theorem Comment.wrap {s : List Char} (h : Comment s) :
    Comment ('/' :: '*' :: (s ++ ['*', '/'])) := by
  obtain ⟨hbody⟩ := h
  exact .marks (.comment hbody .close)

/-- A text starts with one comment at most. -/
theorem Comment.eq_of_starts {s s' u : List Char} (h : Comment s) (h' : Comment s') (hs : s <+: u)
    (hs' : s' <+: u) : s = s' := by
  obtain @⟨body, hbody⟩ := h
  obtain @⟨body', hbody'⟩ := h'
  obtain ⟨rest, rfl⟩ := hs
  obtain ⟨rest', he⟩ := hs'
  have he : body' ++ rest' = body ++ rest := (List.cons.inj (List.cons.inj he).2).2
  have hrun := (hbody'.lexed rest').1
  rw [he, (hbody.lexed rest).1] at hrun
  rw [(Prod.mk.inj hrun).1]

theorem Comment.not_starts_iff {u : List Char} :
    (∀ s, Comment s → ¬ s <+: '/' :: '*' :: u) ↔ ∀ s, CommentBody s → ¬ s <+: u := by
  refine ⟨fun h s hs hu => h _ (.marks hs) ?_, ?_⟩
  · exact List.cons_prefix_cons.mpr ⟨rfl, List.cons_prefix_cons.mpr ⟨rfl, hu⟩⟩
  · rintro h _ ⟨hs⟩ hu
    exact h _ hs (List.cons_prefix_cons.mp (List.cons_prefix_cons.mp hu).2).2

/-- A token that starts as a comment is one, or it is all that is left of the text. -/
theorem comment_or_rest {settings : Settings} {text u : List Char} {t : Token}
    (ht : t ∈ tokenize settings text) (hrest : text.drop t.start = '/' :: '*' :: u) :
    (Comment t.text ∧ t.text <+: text.drop t.start ∧ t.kind = .blockComment) ∨
      (∀ s, Comment s → ¬ s <+: text.drop t.start) ∧ t.text = text.drop t.start ∧
        t.kind = .incompleteComment := by
  obtain ⟨c, v, hcv, hlexeme, -⟩ := run_of_mem_tokenize ht
  rw [hrest] at hcv ⊢
  obtain ⟨rfl, rfl⟩ := List.cons.inj hcv
  rw [(Munch.run_comment u).1] at hlexeme
  rw [hlexeme, Comment.not_starts_iff]
  simp only [Token.ofLexeme, kind_of_comment]
  rcases Munch.run_blockComment u with
    ⟨s, rest, rfl, hs, hrun, -, hcloses⟩ | ⟨hnone, hrun, -, hcloses⟩
  · rw [hrun, hcloses]
    exact .inl ⟨.marks hs, ⟨rest, rfl⟩, rfl⟩
  · rw [hrun, hcloses]
    exact .inr ⟨hnone, rfl, rfl⟩

theorem tokenize_comment (settings : Settings) {s : List Char} (h : Comment s) :
    tokenize settings s = [⟨.blockComment, 0, s⟩] := by
  obtain @⟨s, hbody⟩ := h
  have hslash : Text.isBlank '/' = false := rfl
  have hrun := hbody.lexed []
  rw [List.append_nil] at hrun
  have hcloses : closesComment 1 s = true := by simpa using hbody.closesComment Nat.one_pos []
  simp only [tokenize, tokensAt, hslash, Bool.false_and, Bool.false_eq_true, if_false,
    (Munch.run_comment s).1, hrun.1, Token.ofLexeme, kind_of_comment, hcloses, if_true]

/-- Block comments nest. Where a text goes on with a comment, with all those in it, that comment is
the token, and no other comment starts there. Where it does not, the token is all that is left, and
it is incomplete. Between two more marks a comment is again one comment. -/
theorem comments_nest (settings : Settings) (text : List Char) :
    (∀ t ∈ tokenize settings text, ['/', '*'] <+: t.text →
      let rest := text.drop t.start
      (∀ s, Comment s → s <+: rest → t.text = s ∧ t.kind = .blockComment) ∧
      ((∀ s, Comment s → ¬ s <+: rest) → t.text = rest ∧ t.kind = .incompleteComment)) ∧
    ∀ s, Comment s → tokenize settings ('/' :: '*' :: (s ++ ['*', '/'])) =
      [⟨.blockComment, 0, '/' :: '*' :: (s ++ ['*', '/'])⟩] := by
  refine ⟨fun t ht hmark => ?_, fun s hs => tokenize_comment settings hs.wrap⟩
  obtain ⟨u, hu⟩ := hmark.trans (starts_of_mem_tokenize ht)
  rcases comment_or_rest ht hu.symm with ⟨hcomment, hstarts, hkind⟩ | ⟨hnone, htext, hkind⟩
  · exact ⟨fun s hs hrest => ⟨hcomment.eq_of_starts hs hstarts hrest, hkind⟩,
      fun hnone => absurd hstarts (hnone _ hcomment)⟩
  · exact ⟨fun s hs hrest => absurd hrest (hnone s hs), fun _ => ⟨htext, hkind⟩⟩

/-- The slash behind the first mark is none of another mark, and neither is the star in the inner
comment. The second comment has no mark to close it, as no character belongs to two. -/
theorem comments_nest_marks :
    let inner := "/*/ /***/ */".toList
    let text := inner ++ " //*/".toList
    tokenize {} text = [⟨.blockComment, 0, inner⟩, ⟨.operator, 13, ['/']⟩,
        ⟨.incompleteComment, 14, "/*/".toList⟩] ∧
      Comment inner ∧ (∀ s, Comment s → ¬ s <+: "/*/".toList) ∧
      tokenize {} ("/*".toList ++ inner ++ "*/".toList) =
        [⟨.blockComment, 0, "/*/*/ /***/ */*/".toList⟩] := by
  intro inner text
  have htokens : tokenize {} text = [⟨.blockComment, 0, inner⟩, ⟨.operator, 13, ['/']⟩,
      ⟨.incompleteComment, 14, "/*/".toList⟩] := by
    decide +kernel
  have hinner : Comment inner := by
    refine .marks (.char ?_ (.char ?_ (.comment (.char ?_ .close) (.char ?_ .close))))
    all_goals exact unmarked_cons.mpr (by decide)
  obtain ⟨hread, hwrap⟩ := comments_nest {} text
  refine ⟨htokens, hinner, fun s hs hrest => ?_, hwrap inner hinner⟩
  have hmem : (⟨.incompleteComment, 14, "/*/".toList⟩ : Token) ∈ tokenize {} text := by
    rw [htokens]
    simp
  have hkind := ((hread _ hmem (by decide)).1 s hs hrest).2
  cases hkind

end SqlOutline
