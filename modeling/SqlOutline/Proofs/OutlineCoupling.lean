import SqlOutline.Proofs.Splits
import SqlOutline.Proofs.StatementFaults

namespace SqlOutline
open Parse

theorem Ahead.isNoise_congr {t t' : Token} (h : t'.kind = t.kind) : isNoise t' = isNoise t := by
  unfold isNoise Token.isTrivia Token.isPunctuation
  rw [h]

/-- The noise in front starts with all the trivia in front. -/
theorem Ahead.noise_of_trivia (s : Ahead) :
    s.takeWhile isNoise = s.takeWhile Token.isTrivia ++
        (s.dropWhile Token.isTrivia).takeWhile isNoise ∧
      s.dropNoise = dropNoise (s.dropWhile Token.isTrivia) := by
  induction s with
  | nil => exact ⟨rfl, rfl⟩
  | cons t s ih =>
    by_cases ht : t.isTrivia = true
    · have hn : isNoise t = true := by simp [isNoise, ht]
      simp only [dropNoise, List.takeWhile_cons_of_pos hn, List.dropWhile_cons_of_pos hn,
        List.takeWhile_cons_of_pos ht, List.dropWhile_cons_of_pos ht] at ih ⊢
      exact ⟨congrArg _ ih.1, ih.2⟩
    · rw [List.takeWhile_cons_of_neg ht, List.dropWhile_cons_of_neg ht]
      exact ⟨rfl, rfl⟩

namespace Coupling

variable {J : Coupling} {n depth : Nat} {s s' r : Ahead} {e : Fault}

/-- Noise is passed over on both sides. -/
theorem Faithful.noise (hJ : J.Faithful) (hs : J.rel n s s') (live : J.live s.dropNoise) :
    J.same (s.takeWhile Ahead.isNoise) (s'.takeWhile Ahead.isNoise) ∧
      J.Met n s.dropNoise s'.dropNoise := by
  induction hl : s.length using Nat.strongRecOn generalizing s s' with
  | ind l ih =>
    obtain ⟨htake, hdrop⟩ := s.noise_of_trivia
    obtain ⟨htake', hdrop'⟩ := s'.noise_of_trivia
    rw [hdrop] at live
    obtain ⟨same, met⟩ := Met.of_gap hs (J.live_of_suffix (Ahead.dropNoise_suffix _) live)
    have hlen := (List.dropWhile_suffix Token.isTrivia (l := s)).length_le
    rw [htake, hdrop, htake', hdrop']
    generalize (s.dropWhile Token.isTrivia : Ahead) = s at *
    generalize (s'.dropWhile Token.isTrivia : Ahead) = s' at *
    suffices key : J.same (s.takeWhile Ahead.isNoise) (s'.takeWhile Ahead.isNoise) ∧
        J.Met n (Ahead.dropNoise s) (Ahead.dropNoise s') from ⟨J.same_append same key.1, key.2⟩
    rcases hJ met (J.live_of_suffix (Ahead.dropNoise_suffix s) live) with
      ⟨rfl, rfl⟩ | ⟨t, t', m, m', rfl, rfl, hk, one, rel⟩
    · exact ⟨J.same_nil, met⟩
    · by_cases ht : Ahead.isNoise t = true
      · have ht' := (Ahead.isNoise_congr hk).trans ht
        simp only [Ahead.dropNoise, List.takeWhile_cons_of_pos ht, List.dropWhile_cons_of_pos ht,
          List.takeWhile_cons_of_pos ht', List.dropWhile_cons_of_pos ht'] at live ⊢
        simp only [List.length_cons] at hlen
        obtain ⟨hsame, hmet⟩ := ih m.length (by omega) rel live rfl
        exact ⟨J.same_append one hsame, hmet⟩
      · have ht' : ¬ Ahead.isNoise t' = true := by rwa [Ahead.isNoise_congr hk]
        simp only [Ahead.dropNoise, List.takeWhile_cons_of_neg ht, List.dropWhile_cons_of_neg ht,
          List.takeWhile_cons_of_neg ht', List.dropWhile_cons_of_neg ht']
        exact ⟨J.same_nil, met⟩

/-- Streams that stay live to the end have outlines that are alike, noise included. -/
theorem Faithful.splits (hJ : J.Faithful) (live : ∀ s, J.live s) {noise : List Token}
    {sts : List Statement} {gaps : List (List Token)} (h : Outline.Splits depth s noise sts gaps)
    (hs : J.rel (depth + 1) s s') :
    ∃ noise' sts' gaps', Outline.Splits depth s' noise' sts' gaps' ∧ J.same noise noise' ∧
      List.Forall₂ (Statement.Alike J.Clauses) sts sts' ∧ List.Forall₂ J.same gaps gaps' := by
  induction h generalizing s' with
  | @done s hnoise =>
    obtain ⟨same, met⟩ := hJ.noise hs (live _)
    rw [hnoise] at met
    have hnoise' : s'.dropNoise = [] := by
      rcases hJ met (live _) with ⟨-, h⟩ | ⟨t, t', m, m', h, -⟩
      · exact h
      · cases h
    have hall : ∀ u : Ahead, u.dropNoise = [] → u.takeWhile Ahead.isNoise = u := by
      intro u hu
      have := List.takeWhile_append_dropWhile (p := Ahead.isNoise) (l := u)
      rwa [show u.dropWhile Ahead.isNoise = [] from hu, List.append_nil] at this
    rw [hall s hnoise, hall s' hnoise'] at same
    exact ⟨s', [], [], .done hnoise', same, .nil, .nil⟩
  | step first _ ih =>
    obtain ⟨same, met⟩ := hJ.noise hs (live _)
    obtain ⟨st', r', hst, alike, hr⟩ := runs_readStatement (fun _ _ _ => Nat.le_refl depth) met first
      (live _)
    obtain ⟨noise', sts', gaps', hrest, hnoise, hsts, hgaps⟩ := ih hr.rel
    exact ⟨_, _, _, .step hst hrest, same, .cons alike hsts, .cons hnoise hgaps⟩

/-- Where the outline of the first stream comes to a fault that is live, that of the second comes to
its like. -/
theorem Faithful.fails (hJ : J.Faithful) (h : Outline.Fails depth s e r) (live : J.live r)
    (hs : J.rel (depth + 1) s s') :
    ∃ (want : Want) (r' : Ahead), e = want.fault r.head? ∧
      Outline.Fails depth s' (want.fault r'.head?) r' ∧ J.Met (depth + 1) r r' ∧
        (r = [] → ∃ expected, want = .token expected) := by
  induction h generalizing s' with
  | @here s r e start first =>
    have live' := J.live_of_suffix first.suffix live
    obtain ⟨-, met⟩ := hJ.noise hs live'
    have start' : s'.dropNoise ≠ [] := by
      rcases hJ met live' with ⟨h, -⟩ | ⟨t, t', m, m', -, h, -⟩
      · exact absurd h start
      · simp [h]
    obtain ⟨want, r', he, hf, hr, hend⟩ := faults_readStatement hJ depth met first live
    exact ⟨want, r', he, .here start' hf, hr, hend⟩
  | @later s m r st e first rest ih =>
    have hm := J.live_of_suffix rest.suffix live
    obtain ⟨-, met⟩ := hJ.noise hs (J.live_of_suffix first.suffix hm)
    obtain ⟨st', m', hst, -, hmet⟩ := runs_readStatement (fun _ _ _ => Nat.le_refl depth) met first hm
    obtain ⟨want, r', he, hf, hr⟩ := ih live hmet.rel
    exact ⟨want, r', he, .later hst hf, hr⟩

/-- Streams that stay live to the end come to statements that are alike, or to faults for want of the
same. -/
theorem Faithful.result (hJ : J.Faithful) (live : ∀ s, J.live s) (hs : J.rel (depth + 1) s s') :
    (∃ sts sts', (Outline.ofAhead depth s).result = .ok sts ∧
        (Outline.ofAhead depth s').result = .ok sts' ∧
        List.Forall₂ (Statement.Alike J.Clauses) sts sts') ∨
      ∃ (want : Want) (r r' : Ahead), (Outline.ofAhead depth s).result = .error (want.fault r.head?) ∧
        (Outline.ofAhead depth s').result = .error (want.fault r'.head?) ∧
        J.Met (depth + 1) r r' ∧ (r = [] → ∃ expected, want = .token expected) := by
  rcases Outline.splits_or_fails depth s with ⟨noise, sts, gaps, h⟩ | ⟨e, r, h⟩
  · obtain ⟨noise', sts', gaps', h', -, hsts, -⟩ := hJ.splits live h hs
    exact .inl ⟨sts, sts', h.result, h'.result, hsts⟩
  · obtain ⟨want, r', rfl, h', met, hend⟩ := hJ.fails h (live r) hs
    exact .inr ⟨want, r, r', h.result, h'.result, met, hend⟩

end Coupling

end SqlOutline
