import SqlOutline.Proofs.Congruence
import SqlOutline.Proofs.Mirror
import SqlOutline.Proofs.Parentheses

namespace SqlOutline
open Parse

/-- The replies leave and log the same. They come to the same fault, or to answers that `out`
relates. -/
inductive Reply.Agrees {α β : Type} (out : α → β → Prop) : Reply α → Reply β → Prop where
  | ok {a : α} {b : β} (s : Ahead) (log : List Event) (h : out a b) :
      Agrees out ⟨.ok a, s, log⟩ ⟨.ok b, s, log⟩
  | error (e : Fault) (s : Ahead) (log : List Event) :
      Agrees out ⟨.error e, s, log⟩ ⟨.error e, s, log⟩

namespace Reply.Agrees

variable {α α' β β' : Type} {out : α → β → Prop} {out' : α' → β' → Prop}

theorem of_eq {R : α → α → Prop} (hR : ∀ a, R a a) {r r' : Reply α} (h : r = r') :
    r.Agrees R r' := by
  subst h
  obtain ⟨answer, s, log⟩ := r
  cases answer with
  | ok a => exact .ok s log (hR a)
  | error e => exact .error e s log

theorem eq {R : α → α → Prop} (hR : ∀ ⦃a b⦄, R a b → b = a) {r r' : Reply α} (h : r.Agrees R r') :
    r = r' := by
  cases h with
  | ok s log h => rw [hR h]
  | error => rfl

theorem andThen {r : Reply α} {r' : Reply β} {f : α → Ahead → Reply α'} {g : β → Ahead → Reply β'}
    (h : r.Agrees out r') (hf : ∀ a b, out a b → (f a r.ahead).Agrees out' (g b r.ahead)) :
    (r.andThen f).Agrees out' (r'.andThen g) := by
  cases h with
  | @ok a b s log hab =>
    have hf := hf a b hab
    simp only [Reply.andThen] at hf ⊢
    generalize f a s = q, g b s = q' at hf ⊢
    cases hf with
    | ok s log h => exact .ok s _ h
    | error e s log => exact .error e s _
  | error e s log => exact .error e s log

end Reply.Agrees

theorem Reply.andThen_congr {α β : Type} {r : Reply α} {f g : α → Ahead → Reply β}
    (h : ∀ a, f a r.ahead = g a r.ahead) : r.andThen f = r.andThen g := by
  unfold andThen
  split <;> simp only [h]

/-- The two parses agree wherever fewer than `n` parentheses are opened ahead. -/
def Parse.AgreeBelow {α : Type} (n : Nat) (p q : Parse α) : Prop :=
  ∀ s, Token.opened s < n → p.run s = q.run s

namespace Parse.AgreeBelow

variable {α β σ : Type} {n : Nat} {p q : Parse α}

theorem refl (n : Nat) (p : Parse α) : p.AgreeBelow n p :=
  fun _ _ => rfl

theorem bind {f g : α → Parse β} (hp : p.AgreeBelow n q) (hf : ∀ a, (f a).AgreeBelow n (g a)) :
    (p >>= f).AgreeBelow n (q >>= g) := by
  intro s hs
  rw [run_bind, run_bind, ← hp s hs]
  exact Reply.andThen_congr fun a =>
    hf a _ (Nat.lt_of_le_of_lt (Token.opened_of_suffix (p.forward s)) hs)

/-- Of a piece it is enough to know what it does behind the token that begins it. -/
theorem collect {stops : σ → Token → Bool} {piece piece' : σ → Token → Parse (List α × σ)}
    (h : ∀ st t s, Token.opened (t :: s) < n → (piece st t).run s = (piece' st t).run s) (st : σ) :
    (Parse.collect stops piece st).AgreeBelow n (Parse.collect stops piece' st) := by
  intro s hs
  induction st, s using collect_induction stops with
  | nil st => rw [run_collect_nil, run_collect_nil]
  | stop st t s stop => rw [run_collect_of_stops stop, run_collect_of_stops stop]
  | step st t s go ih =>
    rw [run_collect_cons go, run_collect_cons go, run_bind, run_bind, ← h st t s hs]
    refine Reply.andThen_congr fun x => ?_
    have hsuffix := (piece st t).forward s
    have hle := Token.opened_of_suffix (hsuffix.trans (List.suffix_cons t s))
    rw [run_bind, run_bind, ih x.2 _ hsuffix (Nat.lt_of_le_of_lt hle hs)]

theorem each {ks : List Keyword} {item item' : Token → Parse α}
    (h : ∀ t, (item t).AgreeBelow n (item' t)) :
    (Parse.each ks item).AgreeBelow n (Parse.each ks item') := by
  refine bind (collect (fun _ t s hs => ?_) ()) fun _ => refl n _
  have hle := Token.opened_of_suffix (List.suffix_cons t s)
  exact bind (h t) (fun _ => refl n _) s (Nat.lt_of_le_of_lt hle hs)

/-- Behind an opening parenthesis one fewer is ahead. -/
theorem bind_openParen {f g : Option Token → Parse α}
    (missing : (f none).AgreeBelow (n + 1) (g none))
    (found : ∀ t, (f (some t)).AgreeBelow n (g (some t))) :
    (take? (·.isPunctuation .openParen) >>= f).AgreeBelow (n + 1)
      (take? (·.isPunctuation .openParen) >>= g) := by
  intro s hs
  cases s with
  | nil => simp only [run_bind, take?, Reply.andThen, missing [] hs]
  | cons t s =>
    by_cases ho : t.isPunctuation .openParen = true
    · rw [Token.opened_cons, if_pos ho] at hs
      simp only [run_bind, take?, ho, if_true, Reply.andThen,
        found t s (Nat.lt_of_succ_lt_succ hs)]
    · simp only [run_bind, take?, ho, if_false, Reply.andThen, missing (t :: s) hs,
        Bool.false_eq_true]

section clause

variable {sub sub' : Parse Select} (hsub : sub.AgreeBelow n sub')
include hsub

/-- A clause asks for a query behind an opening parenthesis only, and there one fewer is ahead. -/
theorem piece {scope : Scope} {t : Token} {s : Ahead} (hs : Token.opened (t :: s) < n + 1) :
    (Clause.piece sub scope t).run s = (Clause.piece sub' scope t).run s := by
  unfold Clause.piece
  split
  next ho =>
    rw [Token.opened_cons, if_pos ho] at hs
    refine bind (refl n _) (fun gap => ?_) s (Nat.lt_of_succ_lt_succ hs)
    refine bind (refl n _) fun b => ?_
    cases b with
    | true => exact bind hsub fun _ => refl n _
    | false => exact refl n _
  next => rfl

theorem following (kind : ClauseKind) (lead : Token) :
    (Clause.following sub kind lead).AgreeBelow (n + 1) (Clause.following sub' kind lead) :=
  bind (refl _ _) fun _ => bind (collect (fun _ _ _ hs => piece hsub hs) {}) fun _ => refl _ _

theorem clause (kind : ClauseKind) :
    (Parse.clause sub kind).AgreeBelow (n + 1) (Parse.clause sub' kind) :=
  bind (refl _ _) fun _ => following hsub kind _

theorem clause? (kind : ClauseKind) :
    (Parse.clause? sub kind).AgreeBelow (n + 1) (Parse.clause? sub' kind) := by
  refine bind (refl _ _) fun t => ?_
  cases t with
  | none => exact refl _ _
  | some t => exact bind (following hsub kind t) fun _ => refl _ _

theorem clauses (kind : ClauseKind) :
    (Parse.clauses sub kind).AgreeBelow (n + 1) (Parse.clauses sub' kind) :=
  each fun t => following hsub kind t

theorem readOperand (core : (Select.readCore sub).AgreeBelow (n + 1) (Select.readCore sub'))
    (operator : Clause) :
    (Select.readOperand sub operator).AgreeBelow (n + 1) (Select.readOperand sub' operator) := by
  refine bind_openParen (bind core fun _ => refl _ _) fun paren => ?_
  refine bind (refl n _) fun gap => bind (refl n _) fun b => ?_
  cases b with
  | true => exact bind hsub fun _ => refl n _
  | false => exact refl n _

theorem readOperations (core : (Select.readCore sub).AgreeBelow (n + 1) (Select.readCore sub')) :
    (Select.readOperations sub).AgreeBelow (n + 1) (Select.readOperations sub') :=
  each fun t => bind (following hsub _ t) fun operator => readOperand hsub core operator

end clause

end Parse.AgreeBelow

/-- Agreement of replies to streams with fewer than `n` parentheses ahead is a congruence, if the
queries in parentheses agree on what has one fewer. -/
def Parse.AgreeBelow.congruence {n : Nat} {sub sub' : Parse Select} (hsub : sub.AgreeBelow n sub') :
    Congruence Eq sub sub' where
  Rel p q out := ∀ s, Token.opened s < n + 1 → (p.run s).Agrees out (q.run s)
  pure h s _ := .ok s [] h
  bind {_ _ _ _ p _ _ _ _ _} hp hf s hs := (hp s hs).andThen fun a b hab =>
    hf a b hab _ (Nat.lt_of_le_of_lt (Token.opened_of_suffix (p.forward s)) hs)
  failExpecting expected s _ := .error _ s _
  ite_atKeyword {_ _ ks _ _ _ _ _} _ hp hp' s hs := by
    rw [run_bind, run_bind]
    refine Reply.Agrees.andThen (.of_eq (R := Eq) (fun _ => rfl) rfl) fun b _ hb => ?_
    subst hb
    cases b with
    | true => exact hp s hs
    | false => exact hp' s hs
  clause kind s hs := .of_eq (fun _ => rfl) (clause hsub kind s hs)
  clause? kind s hs := .of_eq (Clause.rel_option_self (fun _ => rfl)) (clause? hsub kind s hs)
  clauses kind s hs := .of_eq (fun _ => List.forall₂_refl _) (clauses hsub kind s hs)
  operations core s hs :=
    have hcore : (Select.readCore sub).AgreeBelow (n + 1) (Select.readCore sub') := fun s hs =>
      (core s hs).eq fun _ _ h => (h.eq_map (g := id) fun _ _ h => h.symm).trans (Core.map_id _)
    .of_eq (SetOperation.alike_self fun _ => rfl) (readOperations hsub hcore s hs)

namespace Parse.AgreeBelow

variable {n : Nat} {sub sub' : Parse Select} (hsub : sub.AgreeBelow n sub')
include hsub

theorem of_congruence {α : Type} {R : α → α → Prop} (hR : ∀ ⦃a b⦄, R a b → b = a)
    {p q : Parse α} (h : (congruence hsub).Rel p q R) : p.AgreeBelow (n + 1) q :=
  fun s hs => (h s hs).eq hR

theorem readSelect (w : Option Clause) :
    (Select.read sub w).AgreeBelow (n + 1) (Select.read sub' w) :=
  of_congruence hsub
    (fun _ _ h => (h.eq_map (g := id) fun _ _ h => h.symm).trans (Select.map_id _))
    ((congruence hsub).read (Clause.rel_option_self (fun _ => rfl) w))

theorem readMain (w : Option Clause) :
    (Statement.readMain sub w).AgreeBelow (n + 1) (Statement.readMain sub' w) := by
  have hw := Clause.rel_option_self (R := Eq) (fun _ => rfl) w
  have same : ∀ {p q : Parse Statement}, (congruence hsub).Rel p q (Statement.Alike Eq) →
      p.AgreeBelow (n + 1) q := of_congruence hsub fun _ _ h =>
    (h.eq_map (g := id) fun _ _ h => h.symm).trans (Statement.map_id _)
  refine bind (refl _ _) fun t => ?_
  cases t with
  | none => exact refl _ _
  | some t =>
    dsimp only
    split
    · exact same ((congruence hsub).map ((congruence hsub).read hw) fun _ _ h => .select h)
    · exact same ((congruence hsub).map ((congruence hsub).readInsert hw) fun _ _ h => .insert h)
    · exact same ((congruence hsub).map ((congruence hsub).readUpdate hw) fun _ _ h => .update h)
    · exact same ((congruence hsub).map ((congruence hsub).readDelete hw) fun _ _ h => .delete h)
    · exact same ((congruence hsub).map ((congruence hsub).readMerge hw) fun _ _ h => .merge h)
    · exact refl _ _

end Parse.AgreeBelow

end SqlOutline
