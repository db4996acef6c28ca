import SqlOutline.Fault
import SqlOutline.Token.Ahead

namespace SqlOutline

/-- What a parse leaves behind. It stands where it stopped, also after a fault. -/
structure Reply (α : Type) where
  answer : Except Fault α
  ahead : Ahead
  log : List Event

/-- A reading of the tokens ahead. It only ever moves forward. -/
structure Parse (α : Type) where
  run : Ahead → Reply α
  forward : ∀ s, (run s).ahead <:+ s

namespace Reply

/-- Goes on with an answer where it was reached. A fault ends everything. -/
def andThen {α β : Type} (r : Reply α) (f : α → Ahead → Reply β) : Reply β :=
  match r.answer with
  | .ok a =>
    let r' := f a r.ahead
    { r' with log := r.log ++ r'.log }
  | .error e => ⟨.error e, r.ahead, r.log⟩

theorem andThen_forward {α β : Type} {r : Reply α} {f : α → Ahead → Reply β} {s : Ahead}
    (h : r.ahead <:+ s) (hf : ∀ a, r.answer = .ok a → (f a r.ahead).ahead <:+ r.ahead) :
    (r.andThen f).ahead <:+ s := by
  unfold andThen
  split
  · exact (hf _ (by assumption)).trans h
  · exact h

end Reply

namespace Parse

variable {α β σ : Type}

instance : Monad Parse where
  pure a := ⟨fun s => ⟨.ok a, s, []⟩, fun s => List.suffix_refl s⟩
  bind p f := ⟨fun s => (p.run s).andThen fun a => (f a).run, fun s =>
    Reply.andThen_forward (p.forward s) fun a _ => (f a).forward _⟩

theorem run_pure (a : α) (s : Ahead) : (pure a : Parse α).run s = ⟨.ok a, s, []⟩ := rfl

theorem run_bind (p : Parse α) (f : α → Parse β) (s : Ahead) :
    (p >>= f).run s = (p.run s).andThen fun a => (f a).run := rfl

/-- The token that is read next. -/
def current : Parse (Option Token) :=
  ⟨fun s => ⟨.ok s.current, s, []⟩, fun s => List.suffix_refl s⟩

def atKeyword (ks : List Keyword) : Parse Bool :=
  ⟨fun s => ⟨.ok (s.atKeyword ks), s, []⟩, fun s => List.suffix_refl s⟩

/-- Reads the next token if it is as wanted. -/
def take? (wanted : Token → Bool) : Parse (Option Token) where
  run
    | [] => ⟨.ok none, [], []⟩
    | t :: s => if wanted t then ⟨.ok (some t), s, []⟩ else ⟨.ok none, t :: s, []⟩
  forward s := by
    cases s with
    | nil => exact List.suffix_refl _
    | cons t s =>
      dsimp only
      split
      · exact List.suffix_cons t s
      · exact List.suffix_refl _

/-- Reads the whitespace and comments that stand next. -/
def trivia : Parse (List Token) :=
  ⟨fun s => ⟨.ok s.trivia.1, s.trivia.2, []⟩, fun _ => List.dropWhile_suffix _⟩

def log (e : Event) : Parse Unit :=
  ⟨fun s => ⟨.ok (), s, [e]⟩, fun s => List.suffix_refl s⟩

/-- Every fault is logged where it arises, and nowhere else. -/
def fail (fault : Ahead → Fault) : Parse α :=
  ⟨fun s => ⟨.error (fault s), s, [.failed (fault s)]⟩, fun s => List.suffix_refl s⟩

/-- The fault of finding the next token, or none, where something else has to stand. -/
def failExpecting (expected : String) : Parse α :=
  fail fun s =>
    match s.current with
    | some t => .unexpectedToken expected t.text t.start
    | none => .unexpectedEnd expected

def expect (expected : String) (wanted : Token → Bool) : Parse Token := do
  match ← take? wanted with
  | some t => pure t
  | none => failExpecting expected

theorem run_expect_nil (expected : String) (wanted : Token → Bool) :
    (expect expected wanted).run [] =
      ⟨.error (.unexpectedEnd expected), [], [.failed (.unexpectedEnd expected)]⟩ := rfl

theorem run_expect_cons (expected : String) (wanted : Token → Bool) (t : Token) (s : Ahead) :
    (expect expected wanted).run (t :: s) =
      if wanted t then ⟨.ok t, s, []⟩
      else
        let fault := .unexpectedToken expected t.text t.start
        ⟨.error fault, t :: s, [.failed fault]⟩ := by
  simp only [expect, run_bind, take?]
  split <;> rfl

/-- Reads piece after piece, each with the token in front of it, until a token stops it. What one
piece finds out is known to the next, and what the last one found out is part of the answer. -/
def collectFrom (stops : σ → Token → Bool) (piece : σ → Token → Parse (List α × σ)) :
    σ → Ahead → Reply (List α × σ)
  | st, [] => ⟨.ok ([], st), [], []⟩
  | st, t :: s =>
    if stops st t then ⟨.ok ([], st), t :: s, []⟩
    else
      let reply := (piece st t).run s
      match reply.answer with
      | .error e => ⟨.error e, reply.ahead, reply.log⟩
      | .ok (xs, st') =>
        let rest := collectFrom stops piece st' reply.ahead
        ⟨rest.answer.map fun r => (xs ++ r.1, r.2), rest.ahead, reply.log ++ rest.log⟩
termination_by _ s => s.length
decreasing_by exact Nat.lt_succ_of_le ((piece st t).forward s).length_le

theorem collectFrom_forward (stops : σ → Token → Bool) (piece : σ → Token → Parse (List α × σ))
    (st : σ) (s : Ahead) : (collectFrom stops piece st s).ahead <:+ s := by
  fun_induction collectFrom stops piece st s with
  | case1 => exact List.suffix_refl _
  | case2 => exact List.suffix_refl _
  | case3 st t s _ reply => exact ((piece st t).forward s).trans (List.suffix_cons t s)
  | case4 st t s _ reply _ _ _ rest ih =>
    exact ih.trans (((piece st t).forward s).trans (List.suffix_cons t s))

def collect (stops : σ → Token → Bool) (piece : σ → Token → Parse (List α × σ)) (st : σ) :
    Parse (List α × σ) :=
  ⟨collectFrom stops piece st, collectFrom_forward stops piece st⟩

/-- Reads an item after each keyword of `ks` that stands next. -/
def each (ks : List Keyword) (item : Token → Parse α) : Parse (List α) := do
  let (items, _) ← collect (fun _ t => !t.isOneOf ks) (fun _ t => return ([← item t], ())) ()
  pure items

end Parse

end SqlOutline
