/-!
# Programs with Operations

A program that asks its surroundings to do things. `Prog.op o k` performs the
operation `o` and continues with `k` on the answer, which may be a fault: nothing
about the surroundings is fixed here, so a statement about all answers is a
statement about all surroundings. Faults and exceptions have types of their own,
so that there can be exceptions which only the program itself raises. `perform`
raises a fault of its operation as an exception, and `attempt` is how it is caught.

Reasoning about what a program does, one operation after another, is done against
an automaton. `Follows E p q post` says that every operation `p` performs is an
edge of `E`, starting in the state `q`, whatever the answers are, and that `post`
relates the state `p` ends in to its result. The rules below follow the
constructors, so a proof that a program follows an automaton has the shape of the
program.

`Lockstep` compares two programs instead. It says that they perform the same
operations as long as their answers are related, which is how a value is shown to
have no influence on what is done.

## Main definitions

* `Prog`: Programs.
* `perform`, `ofExcept`, `attempt`, `always`: An operation, a computed result, and
  the two ways to go on after an exception.
* `Follows`: Every operation is an edge of the automaton.
* `Returns`: Every result satisfies a property.
* `Completes`: A run in which no operation fails.
* `Traces`: A run, with the answers.
* `traceOf`: The run with given answers.
* `Lockstep`: Two programs perform the same operations.

## Theorems

* `follows_mono`: The relation to the result may be weakened.
* `follows_bind`, `follows_attempt`, `follows_always`: The rules for composition.
* `follows_quiet`: A program all of whose operations leave the state alone.
* `completes_bind`, `completes_attempt`, `completes_always`: What a complete run consists of.
* `traces_bind`, `traces_attempt`: What a run consists of.
* `lockstep_bind`, `lockstep_attempt`: The rules for two programs.
-/

/-- A program: operations `O` with answers `R` and faults `Y`, exceptions `X` and
    result `A`. -/
inductive Prog (O : Type) (R : O → Type) (Y X A : Type) where
  | ret (a : A)
  | raise (x : X)
  | op (o : O) (k : Except Y (R o) → Prog O R Y X A)

namespace Prog

variable {O : Type} {R : O → Type} {Y X A B Q : Type}

/-- Continue with the result, unless an exception was raised. -/
def andThen : Prog O R Y X A → (A → Prog O R Y X B) → Prog O R Y X B
  | ret a, f => f a
  | raise x, _ => raise x
  | op o k, f => op o fun r => andThen (k r) f

instance : Monad (Prog O R Y X) where
  pure := ret
  bind := andThen

/-- The result of a computation that performs nothing. -/
def ofExcept : Except X A → Prog O R Y X A
  | .ok a => ret a
  | .error x => raise x

/-- Perform an operation. Its faults are raised. -/
def perform (lift : Y → X) (o : O) : Prog O R Y X (R o) := op o fun r => ofExcept (r.mapError lift)

/-- Run a program and hand over what became of it. -/
def attempt : Prog O R Y X A → Prog O R Y X (Except X A)
  | ret a => ret (.ok a)
  | raise x => ret (.error x)
  | op o k => op o fun r => attempt (k r)

/-- Run a program and then another one, whatever became of the first. -/
def always (p : Prog O R Y X A) (last : Prog O R Y X Unit) : Prog O R Y X A := do
  let r ← p.attempt
  last
  ofExcept r

/-- The program among programs that can do more, and whose exceptions are others. -/
def embed {P : Type} {Q' : P → Type} {X' : Type} (lift : X → X') :
    Prog O R Y X A → Prog (O ⊕ P) (Sum.elim R Q') Y X' A
  | ret a => ret a
  | raise x => raise (lift x)
  | op o k => op (.inl o) fun r => embed lift (k r)

/-! ### Following an automaton -/

/-- Every operation of the program is an edge of `E`, for every answer. -/
def Follows (E : Q → (o : O) → Except Y (R o) → Q → Prop) :
    Prog O R Y X A → Q → (Q → Except X A → Prop) → Prop
  | ret a, q, post => post q (.ok a)
  | raise x, q, post => post q (.error x)
  | op o k, q, post => ∀ r, ∃ q', E q o r q' ∧ Follows E (k r) q' post

variable {E : Q → (o : O) → Except Y (R o) → Q → Prop}

theorem follows_mono {p : Prog O R Y X A} {q : Q} {post post' : Q → Except X A → Prop}
    (h : Follows E p q post) (himp : ∀ q r, post q r → post' q r) : Follows E p q post' := by
  induction p generalizing q with
  | ret a => exact himp q _ h
  | raise x => exact himp q _ h
  | op o k ih =>
      intro r
      rcases h r with ⟨q', he, hk⟩
      exact ⟨q', he, ih r hk⟩

theorem follows_bind {p : Prog O R Y X A} {f : A → Prog O R Y X B} {q : Q}
    {M : Q → Except X A → Prop} {post : Q → Except X B → Prop} (h : Follows E p q M)
    (hok : ∀ q a, M q (.ok a) → Follows E (f a) q post)
    (herr : ∀ q x, M q (.error x) → post q (.error x)) : Follows E (p >>= f) q post := by
  induction p generalizing q with
  | ret a => exact hok q a h
  | raise x => exact herr q x h
  | op o k ih =>
      intro r
      rcases h r with ⟨q', he, hk⟩
      exact ⟨q', he, ih r hk⟩

theorem follows_attempt {p : Prog O R Y X A} {q : Q} {post : Q → Except X (Except X A) → Prop}
    (h : Follows E p q fun q r => post q (.ok r)) : Follows E p.attempt q post := by
  induction p generalizing q with
  | ret a => exact h
  | raise x => exact h
  | op o k ih =>
      intro r
      rcases h r with ⟨q', he, hk⟩
      exact ⟨q', he, ih r hk⟩

theorem follows_ofExcept {r : Except X A} {q : Q} {post : Q → Except X A → Prop}
    (h : post q r) : Follows E (ofExcept r : Prog O R Y X A) q post := by
  cases r with
  | ok a => exact h
  | error x => exact h

theorem follows_perform {lift : Y → X} {o : O} {q : Q} {post : Q → Except X (R o) → Prop}
    (h : ∀ r, ∃ q', E q o r q' ∧ post q' (r.mapError lift)) :
    Follows E (perform lift o) q post := by
  intro r
  rcases h r with ⟨q', he, hpost⟩
  exact ⟨q', he, follows_ofExcept hpost⟩

theorem follows_always {p : Prog O R Y X A} {last : Prog O R Y X Unit} {q : Q}
    {M : Q → Except X A → Prop} {post : Q → Except X A → Prop} (h : Follows E p q M)
    (hlast : ∀ q r, M q r → Follows E last q fun q s =>
      match s with
      | .ok _ => post q r
      | .error x => post q (.error x)) : Follows E (always p last) q post := by
  have hp : Follows E p.attempt q fun q s => ∃ r, s = .ok r ∧ M q r :=
    follows_attempt (follows_mono h fun q r hm => ⟨r, rfl, hm⟩)
  refine follows_bind hp ?_ ?_
  · intro q r hm
    rcases hm with ⟨r', hr, hm⟩
    rw [Except.ok.injEq] at hr
    rw [hr]
    exact follows_bind (hlast q r' hm) (fun q _ h => follows_ofExcept h) (fun q x h => h)
  · intro q x hm
    rcases hm with ⟨r', hr, _⟩
    cases hr

/-- A program all of whose operations satisfy `allowed`. -/
def Uses (allowed : O → Prop) : Prog O R Y X A → Prop
  | ret _ => True
  | raise _ => True
  | op o k => allowed o ∧ ∀ r, Uses allowed (k r)

variable {allowed : O → Prop}

theorem uses_mono {allowed' : O → Prop} {p : Prog O R Y X A} (h : Uses allowed p)
    (himp : ∀ o, allowed o → allowed' o) : Uses allowed' p := by
  induction p with
  | ret a => exact trivial
  | raise x => exact trivial
  | op o k ih => exact ⟨himp o h.1, fun r => ih r (h.2 r)⟩

theorem uses_bind {p : Prog O R Y X A} {f : A → Prog O R Y X B} (h : Uses allowed p)
    (hf : ∀ a, Uses allowed (f a)) : Uses allowed (p >>= f) := by
  induction p with
  | ret a => exact hf a
  | raise x => exact trivial
  | op o k ih => exact ⟨h.1, fun r => ih r (h.2 r)⟩

theorem uses_attempt {p : Prog O R Y X A} (h : Uses allowed p) : Uses allowed p.attempt := by
  induction p with
  | ret a => exact trivial
  | raise x => exact trivial
  | op o k ih => exact ⟨h.1, fun r => ih r (h.2 r)⟩

theorem uses_ofExcept (r : Except X A) : Uses allowed (ofExcept r : Prog O R Y X A) := by
  cases r with
  | ok a => exact trivial
  | error x => exact trivial

theorem uses_ofExcept_bind {e : Except X A} {f : A → Prog O R Y X B}
    (h : ∀ a, e = .ok a → Uses allowed (f a)) : Uses allowed (ofExcept e >>= f) := by
  cases e with
  | ok a => exact h a rfl
  | error x => exact trivial

theorem uses_perform {lift : Y → X} {o : O} (h : allowed o) :
    Uses allowed (perform lift o : Prog O R Y X (R o)) :=
  ⟨h, fun _ => uses_ofExcept _⟩

theorem uses_always {p : Prog O R Y X A} {last : Prog O R Y X Unit} (h : Uses allowed p)
    (hlast : Uses allowed last) : Uses allowed (always p last) :=
  uses_bind (uses_attempt h) fun r => uses_bind hlast fun _ => uses_ofExcept r

/-- Every result of the program satisfies `P`. -/
def Returns (P : Except X A → Prop) : Prog O R Y X A → Prop
  | ret a => P (.ok a)
  | raise x => P (.error x)
  | op _ k => ∀ r, Returns P (k r)

theorem returns_mono {P P' : Except X A → Prop} {p : Prog O R Y X A} (h : Returns P p)
    (himp : ∀ r, P r → P' r) : Returns P' p := by
  induction p with
  | ret a => exact himp _ h
  | raise x => exact himp _ h
  | op o k ih => exact fun r => ih r (h r)

theorem returns_true (p : Prog O R Y X A) : Returns (fun _ => True) p := by
  induction p with
  | ret a => exact trivial
  | raise x => exact trivial
  | op o k ih => exact fun r => ih r

theorem returns_bind {p : Prog O R Y X A} {f : A → Prog O R Y X B} {M : Except X A → Prop}
    {P : Except X B → Prop} (h : Returns M p) (hok : ∀ a, M (.ok a) → Returns P (f a))
    (herr : ∀ x, M (.error x) → P (.error x)) : Returns P (p >>= f) := by
  induction p with
  | ret a => exact hok a h
  | raise x => exact herr x h
  | op o k ih => exact fun r => ih r (h r)

theorem returns_attempt {p : Prog O R Y X A} {P : Except X (Except X A) → Prop}
    (h : Returns (fun r => P (.ok r)) p) : Returns P p.attempt := by
  induction p with
  | ret a => exact h
  | raise x => exact h
  | op o k ih => exact fun r => ih r (h r)

theorem returns_ofExcept {P : Except X A → Prop} {r : Except X A} (h : P r) :
    Returns P (ofExcept r : Prog O R Y X A) := by
  cases r with
  | ok a => exact h
  | error x => exact h

theorem returns_perform {lift : Y → X} {o : O} {P : Except X (R o) → Prop}
    (h : ∀ r : Except Y (R o), P (r.mapError lift)) :
    Returns P (perform lift o : Prog O R Y X (R o)) :=
  fun r => returns_ofExcept (h r)

/-- What is known of the results of a program may be added. -/
theorem follows_and {p : Prog O R Y X A} {q : Q} {post : Q → Except X A → Prop}
    {P : Except X A → Prop} (h : Follows E p q post) (hp : Returns P p) :
    Follows E p q fun q r => post q r ∧ P r := by
  induction p generalizing q with
  | ret a => exact ⟨h, hp⟩
  | raise x => exact ⟨h, hp⟩
  | op o k ih =>
      intro r
      rcases h r with ⟨q', he, hk⟩
      exact ⟨q', he, ih r hk (hp r)⟩

/-- Operations that leave the automaton where it is need not be looked at one by
    one. -/
theorem follows_quiet {p : Prog O R Y X A} {q : Q} {P : Except X A → Prop} (h : Uses allowed p)
    (hp : Returns P p) (hstay : ∀ o r, allowed o → E q o r q) :
    Follows E p q fun q' r => q' = q ∧ P r := by
  induction p with
  | ret a => exact ⟨rfl, hp⟩
  | raise x => exact ⟨rfl, hp⟩
  | op o k ih =>
      intro r
      exact ⟨q, hstay o r h.1, ih r (h.2 r) (hp r)⟩

/-! ### Complete runs -/

/-- The program performs these operations, none of which fails, and ends with the result.
    `given` says which answers there are. -/
def Completes (given : (o : O) → R o → Prop) : Prog O R Y X A → List O → Except X A → Prop
  | ret a, os, r => os = [] ∧ r = .ok a
  | raise x, os, r => os = [] ∧ r = .error x
  | op o k, os, r => ∃ b rest, given o b ∧ os = o :: rest ∧ Completes given (k (.ok b)) rest r

variable {given : (o : O) → R o → Prop}

theorem completes_perform {lift : Y → X} {o : O} {os : List O} {r : Except X (R o)} :
    Completes given (perform lift o : Prog O R Y X (R o)) os r ↔
      ∃ b, given o b ∧ os = [o] ∧ r = .ok b := by
  refine ⟨?_, ?_⟩
  · intro ⟨b, rest, hb, hos, hrest, hr⟩
    exact ⟨b, hb, by rw [hos, hrest], hr⟩
  · intro ⟨b, hb, hos, hr⟩
    exact ⟨b, [], hb, hos, rfl, hr⟩

theorem completes_ofExcept {e : Except X A} {os : List O} {r : Except X A} :
    Completes given (ofExcept e : Prog O R Y X A) os r ↔ os = [] ∧ r = e := by
  cases e with
  | ok a => exact Iff.rfl
  | error x => exact Iff.rfl

theorem completes_bind {p : Prog O R Y X A} {f : A → Prog O R Y X B} {os : List O}
    {r : Except X B} : Completes given (p >>= f) os r ↔
      (∃ x, Completes given p os (.error x) ∧ r = .error x) ∨
      ∃ a os₁ os₂, Completes given p os₁ (.ok a) ∧ Completes given (f a) os₂ r ∧ os = os₁ ++ os₂ := by
  induction p generalizing os with
  | ret a =>
      refine ⟨fun h => Or.inr ⟨a, [], os, ⟨rfl, rfl⟩, h, rfl⟩, ?_⟩
      rintro (⟨x, ⟨_, hx⟩, _⟩ | ⟨b, os₁, os₂, ⟨hos₁, hb⟩, hf, hos⟩)
      · cases hx
      · rw [Except.ok.injEq] at hb
        rw [hos, hos₁]
        rw [hb] at hf
        exact hf
  | raise x =>
      refine ⟨fun h => Or.inl ⟨x, ⟨h.1, rfl⟩, h.2⟩, ?_⟩
      rintro (⟨y, ⟨hos, hy⟩, hr⟩ | ⟨b, os₁, os₂, ⟨_, hb⟩, _⟩)
      · rw [Except.error.injEq] at hy
        rw [hy] at hr
        exact ⟨hos, hr⟩
      · cases hb
  | op o k ih =>
      refine ⟨?_, ?_⟩
      · intro ⟨b, rest, hb, hos, hrest⟩
        rcases (ih _).mp hrest with ⟨x, hx, hr⟩ | ⟨a, os₁, os₂, ha, hf, hrest⟩
        · exact Or.inl ⟨x, ⟨b, rest, hb, hos, hx⟩, hr⟩
        · refine Or.inr ⟨a, o :: os₁, os₂, ⟨b, os₁, hb, rfl, ha⟩, hf, ?_⟩
          rw [hos, hrest]
          rfl
      · rintro (⟨x, ⟨b, rest, hb, hos, hx⟩, hr⟩ | ⟨a, os₁, os₂, ⟨b, rest, hb, hos₁, ha⟩, hf, hos⟩)
        · exact ⟨b, rest, hb, hos, (ih _).mpr (Or.inl ⟨x, hx, hr⟩)⟩
        · refine ⟨b, rest ++ os₂, hb, ?_, (ih _).mpr (Or.inr ⟨a, rest, os₂, ha, hf, rfl⟩)⟩
          rw [hos, hos₁]
          rfl

theorem completes_attempt {p : Prog O R Y X A} {os : List O} {r : Except X (Except X A)} :
    Completes given p.attempt os r ↔ ∃ s, r = .ok s ∧ Completes given p os s := by
  induction p generalizing os with
  | ret a =>
      refine ⟨fun h => ⟨.ok a, h.2, h.1, rfl⟩, ?_⟩
      intro ⟨s, hr, hos, hs⟩
      rw [hs] at hr
      exact ⟨hos, hr⟩
  | raise x =>
      refine ⟨fun h => ⟨.error x, h.2, h.1, rfl⟩, ?_⟩
      intro ⟨s, hr, hos, hs⟩
      rw [hs] at hr
      exact ⟨hos, hr⟩
  | op o k ih =>
      refine ⟨?_, ?_⟩
      · intro ⟨b, rest, hb, hos, hrest⟩
        rcases (ih _).mp hrest with ⟨s, hr, hs⟩
        exact ⟨s, hr, b, rest, hb, hos, hs⟩
      · intro ⟨s, hr, b, rest, hb, hos, hs⟩
        exact ⟨b, rest, hb, hos, (ih _).mpr ⟨s, hr, hs⟩⟩

/-- What is done at the end does not change the result, if it succeeds. -/
theorem completes_always {p : Prog O R Y X A} {last : Prog O R Y X Unit} {os : List O}
    {r : Except X A} : Completes given (always p last) os r ↔ ∃ s os₁ os₂, Completes given p os₁ s ∧
      os = os₁ ++ os₂ ∧ ((∃ x, Completes given last os₂ (.error x) ∧ r = .error x) ∨
        Completes given last os₂ (.ok ()) ∧ r = s) := by
  rw [always, completes_bind]
  refine ⟨?_, ?_⟩
  · rintro (⟨x, hx, _⟩ | ⟨s, os₁, os₂, hs, hlast, hos⟩)
    · rcases completes_attempt.mp hx with ⟨_, hr, _⟩
      cases hr
    · rcases completes_attempt.mp hs with ⟨s', hss, hp⟩
      rw [Except.ok.injEq] at hss
      refine ⟨s', os₁, os₂, hp, hos, ?_⟩
      rcases completes_bind.mp hlast with ⟨x, hx, hr⟩ | ⟨u, os₃, os₄, hu, hend, hos₂⟩
      · exact Or.inl ⟨x, hx, hr⟩
      · rcases completes_ofExcept.mp hend with ⟨hnil, hr⟩
        rw [hnil, List.append_nil] at hos₂
        rw [hos₂]
        exact Or.inr ⟨hu, hr.trans hss⟩
  · intro ⟨s, os₁, os₂, hp, hos, hlast⟩
    refine Or.inr ⟨s, os₁, os₂, completes_attempt.mpr ⟨s, rfl, hp⟩, ?_, hos⟩
    rcases hlast with ⟨x, hx, hr⟩ | ⟨hu, hr⟩
    · exact completes_bind.mpr (Or.inl ⟨x, hx, hr⟩)
    · exact completes_bind.mpr (Or.inr ⟨(), os₂, [], hu, completes_ofExcept.mpr ⟨rfl, hr⟩,
        (List.append_nil _).symm⟩)

/-! ### Runs of one program -/

/-- The program performs these operations, which are answered so, and ends with the result. -/
def Traces : Prog O R Y X A → List ((o : O) × Except Y (R o)) → Except X A → Prop
  | ret a, t, r => t = [] ∧ r = .ok a
  | raise x, t, r => t = [] ∧ r = .error x
  | op o k, t, r => ∃ b rest, t = ⟨o, b⟩ :: rest ∧ Traces (k b) rest r

section Traces

variable {t : List ((o : O) × Except Y (R o))}

theorem traces_perform {lift : Y → X} {o : O} {r : Except X (R o)} :
    Traces (perform lift o : Prog O R Y X (R o)) t r ↔ ∃ b, t = [⟨o, b⟩] ∧ r = b.mapError lift := by
  refine ⟨?_, ?_⟩
  · intro ⟨b, rest, ht, hrest⟩
    refine ⟨b, ?_⟩
    cases b with
    | ok v =>
        rw [ht, hrest.1]
        exact ⟨rfl, hrest.2⟩
    | error y =>
        rw [ht, hrest.1]
        exact ⟨rfl, hrest.2⟩
  · intro ⟨b, ht, hr⟩
    refine ⟨b, [], ht, ?_⟩
    cases b with
    | ok v => exact ⟨rfl, hr⟩
    | error y => exact ⟨rfl, hr⟩

theorem traces_ofExcept {e r : Except X A} :
    Traces (ofExcept e : Prog O R Y X A) t r ↔ t = [] ∧ r = e := by
  cases e with
  | ok a => exact Iff.rfl
  | error x => exact Iff.rfl

theorem traces_bind {p : Prog O R Y X A} {f : A → Prog O R Y X B} {r : Except X B} :
    Traces (p >>= f) t r ↔ (∃ x, Traces p t (.error x) ∧ r = .error x) ∨
      ∃ a t₁ t₂, Traces p t₁ (.ok a) ∧ Traces (f a) t₂ r ∧ t = t₁ ++ t₂ := by
  induction p generalizing t with
  | ret a =>
      refine ⟨fun h => Or.inr ⟨a, [], t, ⟨rfl, rfl⟩, h, rfl⟩, ?_⟩
      rintro (⟨x, ⟨_, hx⟩, _⟩ | ⟨b, t₁, t₂, ⟨ht₁, hb⟩, hf, ht⟩)
      · cases hx
      · cases hb
        rw [ht, ht₁]
        exact hf
  | raise x =>
      refine ⟨fun h => Or.inl ⟨x, ⟨h.1, rfl⟩, h.2⟩, ?_⟩
      rintro (⟨y, ⟨ht, hy⟩, hr⟩ | ⟨b, t₁, t₂, ⟨_, hb⟩, _⟩)
      · cases hy
        exact ⟨ht, hr⟩
      · cases hb
  | op o k ih =>
      refine ⟨?_, ?_⟩
      · intro ⟨b, rest, ht, hrest⟩
        rcases (ih b).mp hrest with ⟨x, hx, hr⟩ | ⟨a, t₁, t₂, ha, hf, hrest⟩
        · exact Or.inl ⟨x, ⟨b, rest, ht, hx⟩, hr⟩
        · refine Or.inr ⟨a, ⟨o, b⟩ :: t₁, t₂, ⟨b, t₁, rfl, ha⟩, hf, ?_⟩
          rw [ht, hrest]
          rfl
      · rintro (⟨x, ⟨b, rest, ht, hx⟩, hr⟩ | ⟨a, t₁, t₂, ⟨b, rest, ht₁, ha⟩, hf, ht⟩)
        · exact ⟨b, rest, ht, (ih b).mpr (Or.inl ⟨x, hx, hr⟩)⟩
        · refine ⟨b, rest ++ t₂, ?_, (ih b).mpr (Or.inr ⟨a, rest, t₂, ha, hf, rfl⟩)⟩
          rw [ht, ht₁]
          rfl

/-- A run that succeeds has succeeded so far. -/
theorem traces_bind_ok {p : Prog O R Y X A} {f : A → Prog O R Y X B} {b : B} :
    Traces (p >>= f) t (.ok b) ↔
      ∃ a t₁ t₂, Traces p t₁ (.ok a) ∧ Traces (f a) t₂ (.ok b) ∧ t = t₁ ++ t₂ := by
  rw [traces_bind]
  refine ⟨?_, Or.inr⟩
  rintro (⟨x, _, hx⟩ | h)
  · cases hx
  · exact h

theorem traces_ofExcept_bind_ok {e : Except X A} {f : A → Prog O R Y X B} {b : B} :
    Traces ((ofExcept e : Prog O R Y X A) >>= f) t (.ok b) ↔
      ∃ a, e = .ok a ∧ Traces (f a) t (.ok b) := by
  cases e with
  | ok a =>
      refine ⟨fun h => ⟨a, rfl, h⟩, ?_⟩
      intro ⟨a', ha, h⟩
      cases ha
      exact h
  | error x =>
      refine ⟨fun h => ?_, ?_⟩
      · cases h.2
      · intro ⟨a', ha, _⟩
        cases ha

theorem traces_attempt {p : Prog O R Y X A} {r : Except X (Except X A)} :
    Traces p.attempt t r ↔ ∃ s, r = .ok s ∧ Traces p t s := by
  induction p generalizing t with
  | ret a =>
      refine ⟨fun h => ⟨.ok a, h.2, h.1, rfl⟩, ?_⟩
      intro ⟨s, hr, ht, hs⟩
      rw [hs] at hr
      exact ⟨ht, hr⟩
  | raise x =>
      refine ⟨fun h => ⟨.error x, h.2, h.1, rfl⟩, ?_⟩
      intro ⟨s, hr, ht, hs⟩
      rw [hs] at hr
      exact ⟨ht, hr⟩
  | op o k ih =>
      refine ⟨?_, ?_⟩
      · intro ⟨b, rest, ht, hrest⟩
        rcases (ih b).mp hrest with ⟨s, hr, hs⟩
        exact ⟨s, hr, b, rest, ht, hs⟩
      · intro ⟨s, hr, b, rest, ht, hs⟩
        exact ⟨b, rest, ht, (ih b).mpr ⟨s, hr, hs⟩⟩

/-- The part of a run that is about the operations of an embedded program. -/
def inner {P : Type} {Q' : P → Type} :
    List ((o : O ⊕ P) × Except Y (Sum.elim R Q' o)) → List ((o : O) × Except Y (R o))
  | [] => []
  | ⟨.inl o, b⟩ :: t => ⟨o, b⟩ :: inner t
  | ⟨.inr _, _⟩ :: t => inner t

/-- Nothing else happened. -/
def Inner {P : Type} {Q' : P → Type} (t : List ((o : O ⊕ P) × Except Y (Sum.elim R Q' o))) : Prop :=
  ∀ e ∈ t, e.1.isLeft = true

theorem inner_append {P : Type} {Q' : P → Type}
    (t t' : List ((o : O ⊕ P) × Except Y (Sum.elim R Q' o))) :
    inner (t ++ t') = inner t ++ inner t' := by
  induction t with
  | nil => rfl
  | cons e t ih =>
      rcases e with ⟨o | p, b⟩
      · exact congrArg (⟨o, b⟩ :: ·) ih
      · exact ih

/-- A run of an embedded program is one of the program. -/
theorem traces_embed {P : Type} {Q' : P → Type} {X' : Type} {lift : X → X'} {p : Prog O R Y X A}
    {t : List ((o : O ⊕ P) × Except Y (Sum.elim R Q' o))} {r : Except X' A}
    (h : Traces (embed lift p) t r) :
    Inner t ∧ ∃ s, Traces p (inner t) s ∧ r = s.mapError lift := by
  induction p generalizing t with
  | ret a =>
      rw [h.1]
      exact ⟨fun e he => (by cases he), .ok a, ⟨rfl, rfl⟩, h.2⟩
  | raise x =>
      rw [h.1]
      exact ⟨fun e he => (by cases he), .error x, ⟨rfl, rfl⟩, h.2⟩
  | op o k ih =>
      rcases h with ⟨b, rest, rfl, hrest⟩
      rcases ih b hrest with ⟨hinner, s, hs, hr⟩
      refine ⟨?_, s, ⟨b, inner rest, rfl, hs⟩, hr⟩
      intro e he
      rcases List.mem_cons.mp he with rfl | he
      · rfl
      · exact hinner e he

/-- The operations of a run are those the program uses. -/
theorem uses_traces {p : Prog O R Y X A} {r : Except X A} (h : Uses allowed p)
    (ht : Traces p t r) : ∀ e ∈ t, allowed e.1 := by
  induction p generalizing t with
  | ret a =>
      rw [ht.1]
      exact fun e he => (by cases he)
  | raise x =>
      rw [ht.1]
      exact fun e he => (by cases he)
  | op o k ih =>
      rcases ht with ⟨b, rest, rfl, hrest⟩
      intro e he
      rcases List.mem_cons.mp he with rfl | he
      · exact h.1
      · exact ih b (h.2 b) hrest e he

/-- An operation that a program does not use comes after it. -/
theorem traces_bind_mem {p : Prog O R Y X A} {f : A → Prog O R Y X B} {r : Except X B}
    {e : (o : O) × Except Y (R o)} (hp : Uses allowed p) (h : Traces (p >>= f) t r) (he : e ∈ t)
    (hnot : ¬ allowed e.1) :
    ∃ a t₁ t₂, Traces p t₁ (.ok a) ∧ Traces (f a) t₂ r ∧ t = t₁ ++ t₂ ∧ e ∈ t₂ := by
  rcases traces_bind.mp h with ⟨x, hx, _⟩ | ⟨a, t₁, t₂, h₁, h₂, ht⟩
  · exact absurd (uses_traces hp hx e he) hnot
  · refine ⟨a, t₁, t₂, h₁, h₂, ht, ?_⟩
    rw [ht, List.mem_append] at he
    rcases he with he | he
    · exact absurd (uses_traces hp h₁ e he) hnot
    · exact he

theorem traces_ofExcept_bind_mem {x : Except X A} {f : A → Prog O R Y X B} {r : Except X B}
    {e : (o : O) × Except Y (R o)} (h : Traces ((ofExcept x : Prog O R Y X A) >>= f) t r)
    (he : e ∈ t) : ∃ a, x = .ok a ∧ Traces (f a) t r := by
  cases x with
  | ok a => exact ⟨a, rfl, h⟩
  | error y =>
      rw [h.1] at he
      cases he

/-- What is known of the results is known of the result of a run. -/
theorem returns_traces {p : Prog O R Y X A} {P : Except X A → Prop} {r : Except X A}
    (h : Returns P p) (ht : Traces p t r) : P r := by
  induction p generalizing t with
  | ret a =>
      rw [ht.2]
      exact h
  | raise x =>
      rw [ht.2]
      exact h
  | op o k ih =>
      rcases ht with ⟨b, rest, _, hrest⟩
      exact ih b (h b) hrest

end Traces

/-- The run in which the operations are answered so. -/
def traceOf (reply : (o : O) → Except Y (R o)) :
    Prog O R Y X A → List ((o : O) × Except Y (R o)) × Except X A
  | ret a => ([], .ok a)
  | raise x => ([], .error x)
  | op o k =>
    let rest := traceOf reply (k (reply o))
    (⟨o, reply o⟩ :: rest.1, rest.2)

theorem traces_traceOf (reply : (o : O) → Except Y (R o)) (p : Prog O R Y X A) :
    Traces p (traceOf reply p).1 (traceOf reply p).2 := by
  induction p with
  | ret a => exact ⟨rfl, rfl⟩
  | raise x => exact ⟨rfl, rfl⟩
  | op o k ih => exact ⟨reply o, _, rfl, ih (reply o)⟩

/-! ### Two programs -/

/-- The two programs perform the same operations and end in related results, as long
    as the answers are related by `S`. -/
def Lockstep (S : (o : O) → Except Y (R o) → Except Y (R o) → Prop) :
    Prog O R Y X A → Prog O R Y X B → (Except X A → Except X B → Prop) → Prop
  | ret a, ret b, post => post (.ok a) (.ok b)
  | raise x, raise y, post => post (.error x) (.error y)
  | op o k, op o' k', post =>
    ∃ h : o' = o, ∀ r r', S o r r' → Lockstep S (k r) (k' (h ▸ r')) post
  | _, _, _ => False

variable {S : (o : O) → Except Y (R o) → Except Y (R o) → Prop}

theorem lockstep_bind {A' B' : Type} {p : Prog O R Y X A} {p' : Prog O R Y X A'}
    {f : A → Prog O R Y X B} {f' : A' → Prog O R Y X B'} {M : Except X A → Except X A' → Prop}
    {post : Except X B → Except X B' → Prop} (h : Lockstep S p p' M)
    (hok : ∀ a a', M (.ok a) (.ok a') → Lockstep S (f a) (f' a') post)
    (herr : ∀ x x', M (.error x) (.error x') → post (.error x) (.error x')) :
    Lockstep S (p >>= f) (p' >>= f') post := by
  induction p generalizing p' with
  | ret a =>
      cases p' with
      | ret a' => exact hok a a' h
      | raise x' => exact h.elim
      | op o' k' => exact h.elim
  | raise x =>
      cases p' with
      | ret a' => exact h.elim
      | raise x' => exact herr x x' h
      | op o' k' => exact h.elim
  | op o k ih =>
      cases p' with
      | ret a' => exact h.elim
      | raise x' => exact h.elim
      | op o' k' =>
          rcases h with ⟨rfl, hk⟩
          exact ⟨rfl, fun r r' hr => ih r (hk r r' hr)⟩

theorem lockstep_attempt {A' : Type} {p : Prog O R Y X A} {p' : Prog O R Y X A'}
    {post : Except X (Except X A) → Except X (Except X A') → Prop}
    (h : Lockstep S p p' fun r r' => post (.ok r) (.ok r')) :
    Lockstep S p.attempt p'.attempt post := by
  induction p generalizing p' with
  | ret a =>
      cases p' with
      | ret a' => exact h
      | raise x' => exact h.elim
      | op o' k' => exact h.elim
  | raise x =>
      cases p' with
      | ret a' => exact h.elim
      | raise x' => exact h
      | op o' k' => exact h.elim
  | op o k ih =>
      cases p' with
      | ret a' => exact h.elim
      | raise x' => exact h.elim
      | op o' k' =>
          rcases h with ⟨rfl, hk⟩
          exact ⟨rfl, fun r r' hr => ih r (hk r r' hr)⟩

theorem lockstep_mono {p : Prog O R Y X A} {p' : Prog O R Y X B}
    {post post' : Except X A → Except X B → Prop} (h : Lockstep S p p' post)
    (himp : ∀ r r', post r r' → post' r r') : Lockstep S p p' post' := by
  induction p generalizing p' with
  | ret a =>
      cases p' with
      | ret b => exact himp _ _ h
      | raise y => exact h.elim
      | op o' k' => exact h.elim
  | raise x =>
      cases p' with
      | ret b => exact h.elim
      | raise y => exact himp _ _ h
      | op o' k' => exact h.elim
  | op o k ih =>
      cases p' with
      | ret b => exact h.elim
      | raise y => exact h.elim
      | op o' k' =>
          rcases h with ⟨rfl, hk⟩
          exact ⟨rfl, fun r r' hr => ih r (hk r r' hr)⟩

/-- A program keeps step with itself when related answers are equal. -/
theorem lockstep_refl {post : Except X A → Except X A → Prop} (p : Prog O R Y X A)
    (hS : Uses (fun o => ∀ r r', S o r r' → r' = r) p) (hpost : ∀ r, post r r) :
    Lockstep S p p post := by
  induction p with
  | ret a => exact hpost _
  | raise x => exact hpost _
  | op o k ih =>
      refine ⟨rfl, ?_⟩
      intro r r' hr
      have heq : r' = r := hS.1 r r' hr
      subst heq
      exact ih r' (hS.2 r')

end Prog
