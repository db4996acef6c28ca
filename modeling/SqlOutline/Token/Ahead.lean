import SqlOutline.Token

namespace SqlOutline

/-- The tokens not read yet, the one to be read first in front. -/
abbrev Ahead := List Token

namespace Ahead

def current (s : Ahead) : Option Token :=
  s.head?

def atKeyword (ks : List Keyword) (s : Ahead) : Bool :=
  s.head?.any (·.isOneOf ks)

def atPunctuation (p : Punctuation) (s : Ahead) : Bool :=
  s.head?.any (·.isPunctuation p)

/-- The whitespace and comments in front, and what follows them. -/
def trivia (s : Ahead) : List Token × Ahead :=
  (s.takeWhile Token.isTrivia, s.dropWhile Token.isTrivia)

/-- What may stand between statements. -/
def isNoise (t : Token) : Bool :=
  t.isTrivia || t.isPunctuation .semicolon

def dropNoise (s : Ahead) : Ahead :=
  s.dropWhile isNoise

theorem dropNoise_suffix (s : Ahead) : s.dropNoise <:+ s :=
  List.dropWhile_suffix _

theorem not_noise_of_dropNoise (s : Ahead) : ∀ t ∈ s.dropNoise.head?, isNoise t = false := by
  intro t ht
  have h := List.head?_dropWhile_not isNoise s
  rw [show s.dropWhile isNoise = s.dropNoise from rfl, ht] at h
  simpa using h

theorem dropNoise_of_head {s : Ahead} (h : ∀ t ∈ s.head?, isNoise t = false) :
    s.dropNoise = s := by
  cases s with
  | nil => rfl
  | cons t s => exact List.dropWhile_cons_of_neg (by simp [h t rfl])

/-- The noise in front ends at the first token that is none. -/
theorem dropNoise_split (s : Ahead) :
    ∃ noise, s = noise ++ s.dropNoise ∧ (∀ t ∈ noise, isNoise t = true) ∧
      ∀ t ∈ s.dropNoise.head?, isNoise t = false :=
  ⟨s.takeWhile isNoise, List.takeWhile_append_dropWhile.symm,
    List.all_eq_true.mp List.all_takeWhile, s.not_noise_of_dropNoise⟩

end Ahead

end SqlOutline
