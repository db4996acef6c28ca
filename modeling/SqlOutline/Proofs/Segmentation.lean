import SqlOutline.Proofs.Splits
import SqlOutline.Proofs.StatementSegments

namespace SqlOutline

/-- What can be asked of the tokens ahead, in any order and any number of times. -/
inductive Move where
  | skip
  | parse
  deriving DecidableEq

/-- The tokens left after a move. A fault leaves those that stood there when it arose. -/
def Move.after (depth : Nat) (s : Ahead) : Move → Ahead
  | .skip => s.dropNoise
  | .parse => ((Statement.read depth).run s).ahead

theorem Move.after_suffix (depth : Nat) (s : Ahead) (move : Move) : move.after depth s <:+ s := by
  cases move with
  | skip => exact s.dropNoise_suffix
  | parse => exact (Statement.read depth).forward s

/-- No order of moves brings back a token or changes one. -/
theorem Move.foldl_after_suffix (depth : Nat) (moves : List Move) (s : Ahead) :
    moves.foldl (after depth) s <:+ s := by
  induction moves generalizing s with
  | nil => exact List.suffix_refl s
  | cons move moves ih => exact (ih (move.after depth s)).trans (move.after_suffix depth s)

/-- Noise behind a statement starts with the semicolon that ended it. -/
theorem Reads.semicolon_of_noise {s r : Ahead} {ts : List Token} (h : Reads s ts r)
    (hne : ts ≠ []) {t : Token} {rest : List Token} (hr : r = t :: rest)
    (hn : Ahead.isNoise t = true) : t.isPunctuation .semicolon = true := by
  have ht := h.settled.resolve_left hne t (by simp [hr])
  simpa [Ahead.isNoise, ht] using hn

/-- The tokens of statements, each with those that stand between it and the next. -/
def Statement.spread (statements : List Statement) (gaps : List (List Token)) : List Token :=
  (List.zipWith (fun s gap => s.tokens ++ gap) statements gaps).flatten

/-- What is read of a stream is all of it. Behind a statement noise starts with a semicolon, if any
stands there. -/
theorem Outline.Splits.eq_spread {depth : Nat} {s : Ahead} {noise : List Token}
    {sts : List Statement} {gaps : List (List Token)} (h : Splits depth s noise sts gaps) :
    gaps.length = sts.length ∧ s = noise ++ Statement.spread sts gaps ∧
      (∀ gap ∈ noise :: gaps, ∀ t ∈ gap, Ahead.isNoise t = true) ∧
      ∀ gap ∈ gaps, ∀ t ∈ gap.head?, t.isPunctuation .semicolon = true := by
  induction h with
  | @done s hs =>
    obtain ⟨noise, hn, all, -⟩ := s.dropNoise_split
    rw [hs, List.append_nil] at hn
    exact ⟨rfl, by simp [Statement.spread], by simpa [hn] using all, by simp⟩
  | @step s r noise st sts gaps first _ ih =>
    obtain ⟨hl, hr, all, semis⟩ := ih
    have hread := Parse.Segments.readStatement depth first
    have hne : st.tokens ≠ [] := by
      intro he
      have hs := hread.split
      rw [he, List.nil_append] at hs
      have hlt := Parse.Progresses.readStatement depth _ _ first.1
      rw [first.2, hs] at hlt
      exact Nat.lt_irrefl _ hlt
    refine ⟨congrArg Nat.succ hl, ?_, ?_, ?_⟩
    · calc s = s.takeWhile Ahead.isNoise ++ (st.tokens ++ r) := by
            rw [← hread.split]
            exact List.takeWhile_append_dropWhile.symm
        _ = s.takeWhile Ahead.isNoise ++ (st.tokens ++ (noise ++ Statement.spread sts gaps)) :=
          congrArg (fun r => s.takeWhile Ahead.isNoise ++ (st.tokens ++ r)) hr
        _ = s.takeWhile Ahead.isNoise ++ Statement.spread (st :: sts) (noise :: gaps) := by
          simp [Statement.spread]
    · intro gap hg
      rcases List.mem_cons.mp hg with rfl | hg
      · exact List.all_eq_true.mp List.all_takeWhile
      · exact all gap hg
    · intro gap hg t ht
      rcases List.mem_cons.mp hg with rfl | hg
      · obtain ⟨us, rfl⟩ := List.head?_eq_some_iff.mp ht
        exact hread.semicolon_of_noise hne hr (all _ List.mem_cons_self t List.mem_cons_self)
      · exact semis gap hg t ht

theorem Outline.ofAhead_spread (depth : Nat) (s : Ahead) (h : (ofAhead depth s).fault = none) :
    ∃ noise gaps, gaps.length = (ofAhead depth s).statements.length ∧
      s = noise ++ Statement.spread (ofAhead depth s).statements gaps ∧
      (∀ gap ∈ noise :: gaps, ∀ t ∈ gap, Ahead.isNoise t = true) ∧
      ∀ gap ∈ gaps, ∀ t ∈ gap.head?, t.isPunctuation .semicolon = true := by
  have hresult : (ofAhead depth s).result = .ok (ofAhead depth s).statements := by
    rw [result, h]
  obtain ⟨noise, gaps, hs⟩ := result_eq_ok_iff.mp hresult
  exact ⟨noise, gaps, hs.eq_spread⟩

/-- Parsing cuts the tokens of a text into statements and noise, and neither loses nor moves one. In
whatever order statements and noise are asked for, what is unread is the end of the text; a statement
takes exactly its own tokens, and a fault takes some of them. -/
theorem tokens_segmented (settings : Settings) (text : List Char) :
    (∀ moves : List Move,
      let unread := moves.foldl (Move.after settings.depth) (tokenize settings text)
      let reply := (Statement.read settings.depth).run unread
      unread <:+ tokenize settings text ∧
      (∃ noise, unread = noise ++ unread.dropNoise ∧ (∀ t ∈ noise, Ahead.isNoise t = true) ∧
        ∀ t ∈ unread.dropNoise.head?, Ahead.isNoise t = false) ∧
      (∀ statement, reply.answer = .ok statement →
        statement.tokens ++ reply.ahead = unread ∧
        ∀ t ∈ statement.tokens, t.isPunctuation .semicolon = false) ∧
      ∀ fault, reply.answer = .error fault → reply.ahead <:+ unread) ∧
    ∀ statements, (Outline.ofText settings text).result = .ok statements →
      ∃ noise gaps, gaps.length = statements.length ∧
        tokenize settings text = noise ++ Statement.spread statements gaps ∧
        (∀ gap ∈ noise :: gaps, ∀ t ∈ gap, Ahead.isNoise t = true) ∧
        ∀ gap ∈ gaps, ∀ t ∈ gap.head?, t.isPunctuation .semicolon = true := by
  refine ⟨fun moves => ⟨?_, ?_, ?_, ?_⟩, fun statements h => ?_⟩
  · exact Move.foldl_after_suffix _ _ _
  · exact Ahead.dropNoise_split _
  · intro statement h
    have hread := Parse.Segments.readStatement settings.depth (.of_answer h)
    exact ⟨hread.split.symm, hread.noSemicolon⟩
  · exact fun _ _ => (Statement.read settings.depth).forward _
  · unfold Outline.result at h
    split at h
    next => cases h
    next hf =>
      cases h
      exact Outline.ofAhead_spread _ _ hf

end SqlOutline
