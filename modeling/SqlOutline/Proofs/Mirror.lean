import SqlOutline.Proofs.SelfContained
import SqlOutline.Proofs.Splits

namespace SqlOutline
open Parse

/-- Neither trivia nor a keyword nor punctuation. The grammar passes over such a token, unless it
looks for a name there. -/
def Kind.isInert : Kind → Bool
  | .keyword _ | .punctuation _ => false
  | k => !k.isTrivia

/-- The tokens keep their texts and places, and no kinds change but inert ones, to inert ones. -/
structure Token.Relabels (f : Token → Token) : Prop where
  start (t : Token) : (f t).start = t.start
  text (t : Token) : (f t).text = t.text
  kind (t : Token) : (f t).kind = t.kind ∨ t.kind.isInert = true ∧ (f t).kind.isInert = true

namespace Token.Relabels

variable {f : Token → Token} (hf : Relabels f)
include hf

theorem span (t : Token) : (f t).span = t.span := by
  rw [Token.span, Token.span, length, length, hf.start, hf.text]

/-- What is the same of every inert kind stays the same. -/
theorem congr {v : Kind → Bool} (hv : ∀ k, k.isInert = true → v k = false) (t : Token) :
    v (f t).kind = v t.kind := by
  rcases hf.kind t with h | ⟨h, h'⟩
  · rw [h]
  · rw [hv _ h, hv _ h']

theorem isTrivia (t : Token) : (f t).isTrivia = t.isTrivia :=
  hf.congr (fun k hk => by cases k <;> simp_all [Kind.isInert]) t

theorem isPunctuation (p : Punctuation) (t : Token) : (f t).isPunctuation p = t.isPunctuation p :=
  hf.congr (v := fun k => k = .punctuation p)
    (fun k hk => by cases k <;> simp_all [Kind.isInert]) t

theorem isKeyword (k : Keyword) (t : Token) : (f t).isKeyword k = t.isKeyword k :=
  hf.congr (v := fun kind => kind = .keyword k)
    (fun kind hk => by cases kind <;> simp_all [Kind.isInert]) t

theorem isOneOf (ks : List Keyword) (t : Token) : (f t).isOneOf ks = t.isOneOf ks := by
  simp only [Token.isOneOf, hf.isKeyword]

theorem trivia_map (s : Ahead) :
    (s.map f).takeWhile Token.isTrivia = (s.takeWhile Token.isTrivia).map f ∧
      (s.map f).dropWhile Token.isTrivia = (s.dropWhile Token.isTrivia).map f := by
  have hp : Token.isTrivia ∘ f = Token.isTrivia := funext hf.isTrivia
  rw [List.takeWhile_map, List.dropWhile_map, hp]
  exact ⟨rfl, rfl⟩

theorem atKeyword (ks : List Keyword) (s : Ahead) :
    Ahead.atKeyword ks (s.map f) = s.atKeyword ks := by
  cases s with
  | nil => rfl
  | cons t s => exact hf.isOneOf ks t

end Token.Relabels

/-- No DELETE stands ahead, and so no clause that looks for a name. -/
def Ahead.NoDelete (s : Ahead) : Prop :=
  ∀ t ∈ s, t.isKeyword .delete = false

theorem Ahead.NoDelete.suffix {r s : Ahead} (h : s.NoDelete) (hr : r <:+ s) : r.NoDelete :=
  fun t ht => h t (hr.subset ht)

/-- The second reply leaves what the first leaves with its tokens put through `f`. Both come to the
same fault, or to answers that `out` relates. -/
inductive Reply.Mirrors {α β : Type} (f : Token → Token) (out : α → β → Prop) :
    Reply α → Reply β → Prop where
  | ok {a : α} {b : β} (s : Ahead) (log log' : List Event) (h : out a b) :
      Mirrors f out ⟨.ok a, s, log⟩ ⟨.ok b, s.map f, log'⟩
  | error (e : Fault) (s : Ahead) (log log' : List Event) :
      Mirrors f out ⟨.error e, s, log⟩ ⟨.error e, s.map f, log'⟩

namespace Reply.Mirrors

variable {α α' β β' : Type} {f : Token → Token} {out : α → β → Prop} {out' : α' → β' → Prop}

theorem mono {r : Reply α} {r' : Reply β} {out' : α → β → Prop} (h : r.Mirrors f out r')
    (ho : ∀ a b, out a b → out' a b) : r.Mirrors f out' r' := by
  cases h with
  | ok s log log' hab => exact .ok s log log' (ho _ _ hab)
  | error e s log log' => exact .error e s log log'

theorem andThen {r : Reply α} {r' : Reply β} {k : α → Ahead → Reply α'} {k' : β → Ahead → Reply β'}
    (h : r.Mirrors f out r')
    (hk : ∀ a b, out a b → (k a r.ahead).Mirrors f out' (k' b (r.ahead.map f))) :
    (r.andThen k).Mirrors f out' (r'.andThen k') := by
  cases h with
  | @ok a b s log log' hab =>
    have hk := hk a b hab
    simp only [Reply.andThen] at hk ⊢
    generalize k a s = q, k' b (s.map f) = q' at hk ⊢
    cases hk with
    | ok s log log' h => exact .ok s _ _ h
    | error e s log log' => exact .error e s _ _
  | error e s log log' => exact .error e s log log'

end Reply.Mirrors

/-- Where no DELETE stands, `q` replies to the tokens put through `f` as `p` does to the tokens
themselves. -/
def Parse.Mirrors {α β : Type} (f : Token → Token) (p : Parse α) (q : Parse β) (out : α → β → Prop) :
    Prop :=
  ∀ s : Ahead, s.NoDelete → (p.run s).Mirrors f out (q.run (s.map f))

namespace Parse.Mirrors

variable {α α' β β' σ : Type} {f : Token → Token} {p : Parse α} {q : Parse β} {out : α → β → Prop}
  {out' : α' → β' → Prop}

theorem gives (h : Mirrors f p q out) {s r : Ahead} {a : α} (hs : s.NoDelete) (hp : p.Gives s a r) :
    ∃ b, q.Gives (s.map f) b (r.map f) ∧ out a b := by
  have hm := h s hs
  obtain ⟨ha, rfl⟩ := hp
  unfold Gives
  generalize p.run s = u, q.run (s.map f) = v at *
  cases hm with
  | ok s log log' hab =>
    cases ha
    exact ⟨_, ⟨rfl, rfl⟩, hab⟩
  | error => cases ha

theorem fails (h : Mirrors f p q out) {s r : Ahead} {e : Fault} (hs : s.NoDelete)
    (hp : p.Fails s e r) : q.Fails (s.map f) e (r.map f) := by
  have hm := h s hs
  obtain ⟨ha, rfl⟩ := hp
  unfold Fails
  generalize p.run s = u, q.run (s.map f) = v at *
  cases hm with
  | ok => cases ha
  | error =>
    cases ha
    exact ⟨rfl, rfl⟩

theorem pure {a : α} {b : β} (h : out a b) :
    Mirrors f (Pure.pure a : Parse α) (Pure.pure b : Parse β) out :=
  fun s _ => .ok s [] [] h

theorem bind {k : α → Parse α'} {k' : β → Parse β'} (hp : Mirrors f p q out)
    (hk : ∀ a b, out a b → Mirrors f (k a) (k' b) out') :
    Mirrors f (p >>= k) (q >>= k') out' :=
  fun s hs => (hp s hs).andThen fun a b hab => hk a b hab _ (hs.suffix (p.forward s))

theorem map {g : α → α'} {g' : β → β'} (hp : Mirrors f p q out)
    (hg : ∀ a b, out a b → out' (g a) (g' b)) : Mirrors f (g <$> p) (g' <$> q) out' :=
  hp.bind fun a b hab => .pure (hg a b hab)

theorem log (e e' : Event) : Mirrors f (Parse.log e) (Parse.log e') fun _ _ => True :=
  fun s _ => .ok s _ _ trivial

theorem fail {fault : Ahead → Fault} (h : ∀ s : Ahead, fault (s.map f) = fault s) :
    Mirrors f (Parse.fail fault : Parse α) (Parse.fail fault : Parse β) out := by
  intro s _
  simp only [Parse.fail, h]
  exact .error _ s _ _

theorem current : Mirrors f Parse.current Parse.current fun t u => u = t.map f :=
  fun s _ => .ok s _ _ List.head?_map

theorem take? {wanted : Token → Bool} (hw : ∀ t, wanted (f t) = wanted t) :
    Mirrors f (Parse.take? wanted) (Parse.take? wanted) fun t u =>
      u = t.map f ∧ ∀ v ∈ t, wanted v = true ∧ v.isKeyword .delete = false := by
  intro s hs
  cases s with
  | nil => exact .ok [] _ _ (by simp)
  | cons t s =>
    simp only [Parse.take?, List.map_cons, hw]
    split
    · exact .ok s _ _ (by simp_all [Ahead.NoDelete])
    · exact .ok (t :: s) _ _ (by simp)

section Relabels

variable (hf : Token.Relabels f)
include hf

theorem failExpecting (expected : String) :
    Mirrors f (Parse.failExpecting expected : Parse α) (Parse.failExpecting expected : Parse β) out := by
  refine .fail fun s => ?_
  cases s with
  | nil => rfl
  | cons t s => simp [Ahead.current, hf.start, hf.text]

theorem trivia : Mirrors f Parse.trivia Parse.trivia fun ts us => us = ts.map f := by
  intro s _
  obtain ⟨htake, hdrop⟩ := hf.trivia_map s
  simp only [Parse.trivia, Ahead.trivia, htake, hdrop]
  exact .ok _ _ _ rfl

theorem atKeyword (ks : List Keyword) :
    Mirrors f (Parse.atKeyword ks) (Parse.atKeyword ks) Eq :=
  fun s _ => .ok s _ _ (hf.atKeyword ks s).symm

theorem ite_atKeyword {ks : List Keyword} {p p' : Parse α} {q q' : Parse β}
    (hp : Mirrors f p q out) (hp' : Mirrors f p' q' out) :
    Mirrors f (Parse.atKeyword ks >>= fun b => if b = true then p else p')
      (Parse.atKeyword ks >>= fun b => if b = true then q else q') out := by
  apply bind (atKeyword hf ks)
  rintro b _ rfl
  cases b with
  | true => exact hp
  | false => exact hp'

theorem expect {wanted : Token → Bool} (hw : ∀ t, wanted (f t) = wanted t) (expected : String) :
    Mirrors f (Parse.expect expected wanted) (Parse.expect expected wanted) fun t u =>
      u = f t ∧ wanted t = true ∧ t.isKeyword .delete = false := by
  apply bind (take? hw)
  rintro t _ ⟨rfl, ht⟩
  cases t with
  | none => exact failExpecting hf expected
  | some t => exact .pure ⟨rfl, ht t rfl⟩

end Relabels

/-- Pieces that are read one after the other mirror each other if each does, from states that `rel`
relates. -/
theorem collect {stops stops' : σ → Token → Bool} {piece : σ → Token → Parse (List α × σ)}
    {piece' : σ → Token → Parse (List β × σ)} {R : α → β → Prop} (rel : σ → σ → Prop)
    (hstops : ∀ st st' t, rel st st' → stops' st' (f t) = stops st t)
    (hpiece : ∀ st st' t, rel st st' → stops st t = false → t.isKeyword .delete = false →
      Mirrors f (piece st t) (piece' st' (f t)) fun x y => List.Forall₂ R x.1 y.1 ∧ rel x.2 y.2)
    {st st' : σ} (h : rel st st') :
    Mirrors f (Parse.collect stops piece st) (Parse.collect stops' piece' st') fun x y =>
      List.Forall₂ R x.1 y.1 ∧ rel x.2 y.2 := by
  intro s hs
  induction st, s using collect_induction stops generalizing st' with
  | nil st =>
    rw [List.map_nil, run_collect_nil, run_collect_nil]
    exact .ok [] _ _ ⟨.nil, h⟩
  | stop st t s stop =>
    rw [List.map_cons, run_collect_of_stops stop,
      run_collect_of_stops ((hstops st st' t h).trans stop)]
    exact .ok (t :: s) _ _ ⟨.nil, h⟩
  | step st t s go ih =>
    obtain ⟨ht, hs⟩ := List.forall_mem_cons.mp hs
    rw [List.map_cons, run_collect_cons go, run_collect_cons ((hstops st st' t h).trans go)]
    refine (hpiece st st' t h go ht s hs).andThen fun x y hxy => ?_
    have hsuffix := (piece st t).forward s
    refine (ih _ _ hsuffix hxy.2 (Ahead.NoDelete.suffix hs hsuffix)).andThen fun z w hzw => ?_
    exact .ok _ _ _ ⟨List.rel_append hxy.1 hzw.1, hzw.2⟩

theorem each {ks : List Keyword} {item : Token → Parse α} {item' : Token → Parse β}
    {R : α → β → Prop} (hf : Token.Relabels f)
    (h : ∀ t, t.isOneOf ks = true → t.isKeyword .delete = false → Mirrors f (item t) (item' (f t)) R) :
    Mirrors f (Parse.each ks item) (Parse.each ks item') (List.Forall₂ R) := by
  have items : Mirrors f
      (Parse.collect (fun _ t => !t.isOneOf ks) (fun _ t => return ([← item t], ())) ())
      (Parse.collect (fun _ t => !t.isOneOf ks) (fun _ t => return ([← item' t], ())) ())
      fun x y => List.Forall₂ R x.1 y.1 ∧ True := by
    refine collect (fun _ _ => True) (fun _ _ t _ => by rw [hf.isOneOf]) (fun _ _ t _ go ht => ?_) trivial
    refine bind (h t (by simpa using go) ht) fun a b hab => ?_
    exact .pure ⟨.cons hab .nil, trivial⟩
  exact items.bind fun x y hxy => .pure hxy.1

end Parse.Mirrors

/-- The second clause is the first with its tokens put through `f`. -/
def Clause.Image (f : Token → Token) (c d : Clause) : Prop :=
  d = c.map f

namespace Clause.Image

variable {f : Token → Token} {c d : Clause}

theorem push (h : Image f c d) (ts : List Token) : Image f (c.push ts) (d.push (ts.map f)) := by
  subst h
  simp [Image, Clause.map, Clause.push]

theorem tokens {cs ds : List Clause} (h : List.Forall₂ (Image f) cs ds) :
    ds.flatMap Clause.tokens = (cs.flatMap Clause.tokens).map f := by
  rw [eq_map_of_forall₂ (fun _ _ h => h) h, List.flatMap_map, List.map_flatMap]
  rfl

end Clause.Image

/-- The same parentheses and CASE blocks are open at both places. -/
structure Scope.Level (s s' : Scope) : Prop where
  parens : s'.parens = s.parens
  cases : s'.cases = s.cases

theorem Scope.after_inert {t : Token} (h : t.kind.isInert = true) (s : Scope) :
    s.Level (s.after t) := by
  unfold after
  split
  case h_1 hk | h_2 hk | h_3 hk | h_4 hk =>
    rw [hk] at h
    cases h
  all_goals exact ⟨rfl, rfl⟩

/-- At an inert token stops nothing but a clause that holds keywords only. -/
theorem ClauseRule.stops_inert {t : Token} (h : t.kind.isInert = true) (r : ClauseRule)
    (s : Scope) : r.stops s t = r.keywordsOnly := by
  unfold stops
  cases hk : t.kind <;> simp_all [Kind.isInert]

section clause

variable {f : Token → Token} (hf : Token.Relabels f) {scope scope' : Scope}
include hf

theorem Scope.Level.after (h : scope.Level scope') (t : Token) :
    (scope.after t).Level (scope'.after (f t)) := by
  obtain ⟨hparens, hcases⟩ := h
  rcases hf.kind t with hk | ⟨ht, ht'⟩
  · unfold Scope.after
    rw [hk]
    split <;> exact ⟨by simp [hparens], by simp [hcases]⟩
  · have hleft := Scope.after_inert ht scope
    have hright := Scope.after_inert ht' scope'
    exact ⟨by rw [hright.parens, hparens, hleft.parens], by rw [hright.cases, hcases, hleft.cases]⟩

/-- A clause that looks for no name stops at the same places. -/
theorem ClauseRule.stops_relabel {r : ClauseRule} (hr : r.beforeTarget = [])
    (h : scope.Level scope') (t : Token) : r.stops scope' (f t) = r.stops scope t := by
  rcases hf.kind t with hk | ⟨ht, ht'⟩
  · unfold stops
    rw [hk, h.parens, h.cases]
    split <;> simp [permits, hr]
  · rw [stops_inert ht, stops_inert ht']

end clause

theorem ClauseKind.beforeTarget_eq_nil {kind : ClauseKind} {lead : Token}
    (hl : lead.isOneOf kind.rule.leading = true) (hd : lead.isKeyword .delete = false) :
    kind.rule.beforeTarget = [] := by
  cases kind with
  | delete => simp [rule, Token.isOneOf, hd] at hl
  | _ => rfl

namespace Parse.Mirrors

variable {f : Token → Token} (hf : Token.Relabels f) {sub : Parse Select} {kind : ClauseKind}
  {scope scope' : Scope}

include hf

theorem second (kind : ClauseKind) :
    Mirrors f (Clause.second kind) (Clause.second kind) fun ts us => us = ts.map f := by
  unfold Clause.second
  cases kind.rule.second with
  | none => exact .pure rfl
  | some k =>
    apply bind (trivia hf)
    rintro gap _ rfl
    apply bind (expect hf (hf.isKeyword k) k.spelling)
    rintro t _ ⟨rfl, -⟩
    exact .pure (by simp)

variable (hsub : Mirrors f sub sub (Select.Alike (Clause.Image f)))
include hsub

theorem group (h : scope.Level scope') (t : Token) :
    Mirrors f (Clause.group sub scope t) (Clause.group sub scope' (f t)) fun x y =>
      y.1 = x.1.map f ∧ x.2.Level y.2 := by
  unfold Clause.group
  apply bind (trivia hf)
  rintro gap _ rfl
  apply ite_atKeyword hf
  · apply bind hsub
    intro q q' hq
    have htokens := Clause.Image.tokens hq.clauses
    apply bind (take? (hf.isPunctuation .closeParen))
    rintro close _ ⟨rfl, -⟩
    cases close with
    | none => exact .pure ⟨by simp [Select.tokens, htokens], h.after hf t⟩
    | some close => exact .pure ⟨by simp [Select.tokens, htokens], h⟩
  · exact .pure ⟨by simp, h.after hf t⟩

theorem piece (h : scope.Level scope') (t : Token) :
    Mirrors f (Clause.piece sub scope t) (Clause.piece sub scope' (f t)) fun x y =>
      y.1 = x.1.map f ∧ x.2.Level y.2 := by
  unfold Clause.piece
  rw [hf.isPunctuation]
  split
  · exact group hf hsub h t
  · exact .pure ⟨rfl, h.after hf t⟩

theorem following {lead : Token} (hl : lead.isOneOf kind.rule.leading = true)
    (hd : lead.isKeyword .delete = false) :
    Mirrors f (Clause.following sub kind lead) (Clause.following sub kind (f lead))
      (Clause.Image f) := by
  have hrule := ClauseKind.beforeTarget_eq_nil hl hd
  have body : Mirrors f (Parse.collect kind.rule.stops (Clause.piece sub) {})
      (Parse.collect kind.rule.stops (Clause.piece sub) {}) fun x y =>
        List.Forall₂ (fun t u => u = f t) x.1 y.1 ∧ x.2.Level y.2 := by
    refine collect Scope.Level (fun _ _ t h => ClauseRule.stops_relabel hf hrule h t)
      (fun _ _ t h _ _ s hs => ?_) ⟨rfl, rfl⟩
    refine (piece hf hsub h t s hs).mono fun x y hxy => ⟨?_, hxy.2⟩
    rw [hxy.1]
    simp
  apply bind (second hf kind)
  rintro ts _ rfl
  apply bind body
  rintro x y ⟨hxy, -⟩
  refine .pure ?_
  rw [eq_map_of_forall₂ (fun _ _ h => h) hxy, ← List.map_append]
  rfl

theorem clause (kind : ClauseKind) :
    Mirrors f (Parse.clause sub kind) (Parse.clause sub kind) (Clause.Image f) := by
  apply bind (expect hf (hf.isOneOf _) _)
  rintro t _ ⟨rfl, hl, hd⟩
  exact following hf hsub hl hd

theorem clause? (kind : ClauseKind) :
    Mirrors f (Parse.clause? sub kind) (Parse.clause? sub kind) (Option.Rel (Clause.Image f)) := by
  apply bind (take? (hf.isOneOf _))
  rintro t _ ⟨rfl, ht⟩
  cases t with
  | none => exact .pure .none
  | some t =>
    obtain ⟨hl, hd⟩ := ht t rfl
    exact bind (following hf hsub hl hd) fun _ _ h => .pure (.some h)

theorem clauses (kind : ClauseKind) :
    Mirrors f (Parse.clauses sub kind) (Parse.clauses sub kind) (List.Forall₂ (Clause.Image f)) :=
  each hf fun _ hl hd => following hf hsub hl hd

end Parse.Mirrors

end SqlOutline
