import Allowly.Base.Program
import Mathlib.Logic.Function.Basic

/-!
# Interleaved Programs

Any number of programs running against shared state, one operation at a time.

A `System` says what the operations do. An operation is answered by a `reply`
chosen from outside; `perform` accepts it or not, and says how the shared state
changes. A program can be started at any time, can be stopped at any point by a
crash, and an operation can start another program, which then runs on its own. The
surroundings may also change the shared state without any program asking.

What happened is kept in the history, newest first, so that a property of a whole
run is a property of the history of the world it reaches. Most properties of runs
say something about an event and what came before it; `Always` is their form.

`invariant` is the induction over runs. It connects the automaton of
`Base.Program` to the shared state: if every program follows the automaton, then
it is enough to look at the edges. `G` relates the shared state and the history to
the states, here roles, the running programs are in.

## Main definitions

* `System`: What the operations do.
* `Event`, `World`: What happened, and where a run has got to.
* `Act`, `System.step`: The moves of a run.
* `System.Reachable`: The worlds a run can reach.
* `Always`: Every event satisfies a property of it and its past.
* `Roles`, `Fits`: The states the running programs are in.
* `Preserves`: What every move has to keep.

## Theorems

* `always_suffix`: An event of a history, with its own past.
* `Preserves.and`: Invariants are established one after another.
* `invariant`: What the edges preserve holds in every reachable world.
-/

namespace Interleave

open Prog

/-- What the operations of a family of programs do to shared state `S`. Programs
    are started by commands `C`. -/
structure System (O : Type) (R : O → Type) (Y X A C S D : Type) where
  /-- The program a command starts. -/
  code : C → Prog O R Y X A
  /-- May the command be started from outside? -/
  admits : C → Bool
  /-- What an operation does, if the answer is possible. The numbers are those of
      the program and of the next one to be started. -/
  perform : Nat → Nat → (o : O) → Except Y (R o) → S → Option S
  /-- The command an operation starts. -/
  spawns : (o : O) → Except Y (R o) → Option C
  /-- What becomes of a program that ended. -/
  finish : Nat → Except X A → S → S
  /-- What a crash leaves behind. -/
  crash : Nat → S → S
  /-- What the surroundings do on their own. -/
  disturb : D → S → Option S

/-- Something that happened. `self` is the program, `root` the one started from
    outside that it belongs to. -/
inductive Event (O : Type) (R : O → Type) (Y X A C D : Type) where
  | began (self root : Nat) (c : C)
  | did (self root : Nat) (o : O) (r : Except Y (R o))
  | ended (self root : Nat) (r : Except X A)
  | crashed (self : Nat)
  | disturbed (d : D)

/-- A running program and the program started from outside it belongs to. -/
structure Running (O : Type) (R : O → Type) (Y X A : Type) where
  root : Nat
  prog : Prog O R Y X A

/-- Where a run has got to. -/
structure World (O : Type) (R : O → Type) (Y X A C S D : Type) where
  shared : S
  live : Nat → Option (Running O R Y X A)
  fresh : Nat
  history : List (Event O R Y X A C D)

/-- A move of a run. The reply is an answer to whatever is asked. -/
inductive Act (O : Type) (R : O → Type) (Y C D : Type) where
  | begin (c : C)
  | answer (self : Nat) (reply : (o : O) → Except Y (R o))
  | finish (self : Nat)
  | crash (self : Nat)
  | disturb (d : D)

variable {O : Type} {R : O → Type} {Y X A C S D : Type}

/-- The world before anything happened. -/
def World.initial (s : S) : World O R Y X A C S D :=
  { shared := s, live := fun _ => none, fresh := 0, history := [] }

/-- A program has started. -/
def System.launch (sys : System O R Y X A C S D) (w : World O R Y X A C S D) (root : Nat) (c : C) :
    World O R Y X A C S D :=
  { shared := w.shared
    live := Function.update w.live w.fresh (some ⟨root, sys.code c⟩)
    fresh := w.fresh + 1
    history := .began w.fresh root c :: w.history }

/-- A program has stopped. -/
def World.stop (w : World O R Y X A C S D) (self : Nat) (s : S) (e : Event O R Y X A C D) :
    World O R Y X A C S D :=
  { shared := s, live := Function.update w.live self none, fresh := w.fresh, history := e :: w.history }

/-- A program has performed an operation and goes on. -/
def World.advance (w : World O R Y X A C S D) (self root : Nat) (s : S) (p : Prog O R Y X A)
    (e : Event O R Y X A C D) : World O R Y X A C S D :=
  { shared := s
    live := Function.update w.live self (some ⟨root, p⟩)
    fresh := w.fresh
    history := e :: w.history }

def System.step (sys : System O R Y X A C S D) (w : World O R Y X A C S D) :
    Act O R Y C D → Option (World O R Y X A C S D)
  | .begin c => if sys.admits c then some (sys.launch w w.fresh c) else none
  | .answer self reply =>
    match w.live self with
    | some ⟨root, .op o k⟩ =>
      match sys.perform self w.fresh o (reply o) w.shared with
      | some s =>
        let w := w.advance self root s (k (reply o)) (.did self root o (reply o))
        match sys.spawns o (reply o) with
        | some c => some (sys.launch w root c)
        | none => some w
      | none => none
    | _ => none
  | .finish self =>
    match w.live self with
    | some ⟨root, .ret a⟩ =>
      some (w.stop self (sys.finish self (.ok a) w.shared) (.ended self root (.ok a)))
    | some ⟨root, .raise x⟩ =>
      some (w.stop self (sys.finish self (.error x) w.shared) (.ended self root (.error x)))
    | _ => none
  | .crash self =>
    match w.live self with
    | some _ => some (w.stop self (sys.crash self w.shared) (.crashed self))
    | none => none
  | .disturb d =>
    match sys.disturb d w.shared with
    | some s => some { w with shared := s, history := .disturbed d :: w.history }
    | none => none

/-- The worlds a run from shared state `s` can reach. -/
inductive System.Reachable (sys : System O R Y X A C S D) (s : S) : World O R Y X A C S D → Prop where
  | start : sys.Reachable s (World.initial s)
  | step (w w' : World O R Y X A C S D) (a : Act O R Y C D) (h : sys.Reachable s w)
      (hs : sys.step w a = some w') : sys.Reachable s w'

/-- A program gets an answer. -/
theorem reachable_answer {sys : System O R Y X A C S D} {s s' : S} {w : World O R Y X A C S D}
    {a root : Nat} {o : O} {k : Except Y (R o) → Prog O R Y X A} (reply : (o : O) → Except Y (R o))
    (h : sys.Reachable s w) (hl : w.live a = some ⟨root, .op o k⟩)
    (hp : sys.perform a w.fresh o (reply o) w.shared = some s')
    (hs : sys.spawns o (reply o) = none) :
    sys.Reachable s (w.advance a root s' (k (reply o)) (.did a root o (reply o))) := by
  refine System.Reachable.step w _ (.answer a reply) h ?_
  simp only [System.step, hl, hp, hs]

/-- The program performs these operations, when they are answered so. -/
def Performs (reply : (o : O) → Except Y (R o)) : List O → Prog O R Y X A → Prop
  | [], _ => True
  | o :: os, p => ∃ k, p = .op o k ∧ Performs reply os (k (reply o))

/-- The surroundings let these operations happen. -/
def System.Allows (sys : System O R Y X A C S D) (a n : Nat) (reply : (o : O) → Except Y (R o)) :
    List O → S → Prop
  | [], _ => True
  | o :: os, s => ∃ s', sys.perform a n o (reply o) s = some s' ∧ sys.spawns o (reply o) = none ∧
      sys.Allows a n reply os s'

/-- A program goes on with operations that are allowed. -/
theorem reachable_performs {sys : System O R Y X A C S D} {s : S} {a root : Nat} {os : List O}
    {reply : (o : O) → Except Y (R o)} {w : World O R Y X A C S D} {p : Prog O R Y X A}
    (h : sys.Reachable s w) (hl : w.live a = some ⟨root, p⟩) (hp : Performs reply os p)
    (ha : sys.Allows a w.fresh reply os w.shared) :
    ∃ w', sys.Reachable s w' ∧ w.history ⊆ w'.history ∧
      ∀ o ∈ os, .did a root o (reply o) ∈ w'.history := by
  induction os generalizing w p with
  | nil => exact ⟨w, h, fun _ hx => hx, fun _ ho => (by cases ho)⟩
  | cons o os ih =>
      rcases hp with ⟨k, rfl, hk⟩
      rcases ha with ⟨s', hs', hspawn, hrest⟩
      have hnext := reachable_answer reply h hl hs' hspawn
      rcases ih hnext (Function.update_self a _ _) hk hrest with ⟨w', hw', hsub, hall⟩
      refine ⟨w', hw', fun x hx => hsub (List.mem_cons_of_mem _ hx), ?_⟩
      intro o' ho'
      rcases List.mem_cons.mp ho' with rfl | ho'
      · exact hsub List.mem_cons_self
      · exact hall o' ho'

/-- Running a list of moves. -/
def System.run (sys : System O R Y X A C S D) :
    World O R Y X A C S D → List (Act O R Y C D) → Option (World O R Y X A C S D)
  | w, [] => some w
  | w, a :: as => (sys.step w a).bind fun w => sys.run w as

theorem reachable_run {sys : System O R Y X A C S D} {s : S} (as : List (Act O R Y C D))
    {w w' : World O R Y X A C S D} (h : sys.Reachable s w) (hrun : sys.run w as = some w') :
    sys.Reachable s w' := by
  induction as generalizing w with
  | nil =>
      rw [System.run, Option.some.injEq] at hrun
      rw [← hrun]
      exact h
  | cons a as ih =>
      rw [System.run, Option.bind_eq_some_iff] at hrun
      rcases hrun with ⟨v, hv, hrun⟩
      exact ih (System.Reachable.step w v a h hv) hrun

/-- The commands that can be started, from outside or by an operation. -/
def System.Starts (sys : System O R Y X A C S D) (c : C) : Prop :=
  sys.admits c = true ∨ ∃ (o : O) (r : Except Y (R o)), sys.spawns o r = some c

/-- Every event of a history satisfies a property of it and what came before. -/
def Always {Ev : Type} (P : Ev → List Ev → Prop) : List Ev → Prop
  | [] => True
  | e :: past => P e past ∧ Always P past

theorem always_suffix {Ev : Type} {P : Ev → List Ev → Prop} {h past : List Ev} {e : Ev}
    (ha : Always P h) (hs : e :: past <:+ h) : P e past := by
  induction h with
  | nil => exact absurd (List.eq_nil_of_suffix_nil hs) (List.cons_ne_nil _ _)
  | cons d h ih =>
      rcases List.suffix_cons_iff.mp hs with heq | hs'
      · rw [List.cons.injEq] at heq
        rw [heq.1, heq.2]
        exact ha.1
      · exact ih ha.2 hs'

theorem always_of_suffix {Ev : Type} {P : Ev → List Ev → Prop} {h : List Ev}
    (hall : ∀ e past, e :: past <:+ h → P e past) : Always P h := by
  induction h with
  | nil => exact trivial
  | cons e h ih =>
      exact ⟨hall e h (List.suffix_refl _), ih fun d past hd =>
        hall d past (hd.trans (List.suffix_cons e h))⟩

/-- A move starts at most one program, and gives it a new number. -/
theorem step_began {sys : System O R Y X A C S D} {w w' : World O R Y X A C S D}
    {m : Act O R Y C D} (hs : sys.step w m = some w') :
    ∃ rest, (∀ a root c, .began a root c ∉ rest) ∧
      (w'.history = rest ++ w.history ∧ w'.fresh = w.fresh ∨
        ∃ root c, w'.history = .began w.fresh root c :: (rest ++ w.history) ∧
          w'.fresh = w.fresh + 1) := by
  have hone : ∀ {e : Event O R Y X A C D}, (∀ a root c, e ≠ .began a root c) →
      ∀ a root c, .began a root c ∉ [e] := by
    intro e he a root c hmem
    rw [List.mem_singleton] at hmem
    exact he a root c hmem.symm
  have hnone : ∀ (a root : Nat) (c : C), .began a root c ∉ ([] : List (Event O R Y X A C D)) :=
    fun _ _ _ => List.not_mem_nil
  cases m with
  | begin c =>
      simp only [System.step] at hs
      split at hs
      · cases hs
        exact ⟨[], hnone, Or.inr ⟨w.fresh, c, rfl, rfl⟩⟩
      · cases hs
  | answer a reply =>
      simp only [System.step] at hs
      split at hs
      · next root o k _ =>
          have hdid := hone (e := .did a root o (reply o)) fun _ _ _ => by nofun
          split at hs
          · split at hs
            · cases hs
              exact ⟨[_], hdid, Or.inr ⟨root, _, rfl, rfl⟩⟩
            · cases hs
              exact ⟨[_], hdid, Or.inl ⟨rfl, rfl⟩⟩
          · cases hs
      · cases hs
  | finish a =>
      simp only [System.step] at hs
      split at hs
      · cases hs
        exact ⟨[_], hone fun _ _ _ => by nofun, Or.inl ⟨rfl, rfl⟩⟩
      · cases hs
        exact ⟨[_], hone fun _ _ _ => by nofun, Or.inl ⟨rfl, rfl⟩⟩
      · cases hs
  | crash a =>
      simp only [System.step] at hs
      split at hs
      · cases hs
        exact ⟨[_], hone fun _ _ _ => by nofun, Or.inl ⟨rfl, rfl⟩⟩
      · cases hs
  | disturb d =>
      simp only [System.step] at hs
      split at hs
      · cases hs
        exact ⟨[_], hone fun _ _ _ => by nofun, Or.inl ⟨rfl, rfl⟩⟩
      · cases hs

/-- The number of a program that started is one of those given out. -/
theorem began_lt {sys : System O R Y X A C S D} {s : S} {w : World O R Y X A C S D}
    (h : sys.Reachable s w) {a root : Nat} {c : C} (hb : .began a root c ∈ w.history) :
    a < w.fresh := by
  induction h with
  | start => cases hb
  | step w w' m _ hs ih =>
      rcases step_began hs with ⟨rest, hrest, ⟨hh, hf⟩ | ⟨r, d, hh, hf⟩⟩
      · rw [hh, List.mem_append] at hb
        rw [hf]
        exact ih (hb.resolve_left (hrest a root c))
      · rw [hh, List.mem_cons, List.mem_append] at hb
        rw [hf]
        rcases hb with hb | hb
        · cases hb
          exact Nat.lt_succ_self _
        · exact Nat.lt_succ_of_lt (ih (hb.resolve_left (hrest a root c)))

theorem suffix_of_not_mem {Ev : Type} {rest h past : List Ev} {e : Ev} (he : e ∉ rest)
    (hs : e :: past <:+ rest ++ h) : e :: past <:+ h := by
  induction rest with
  | nil => exact hs
  | cons d rest ih =>
      rw [List.mem_cons, not_or] at he
      rcases List.suffix_cons_iff.mp hs with heq | hs
      · rw [List.cons.injEq] at heq
        exact absurd heq.1 he.1
      · exact ih he.2 hs

/-- A number is given out once. -/
theorem began_unique {sys : System O R Y X A C S D} {s : S} {w : World O R Y X A C S D}
    (h : sys.Reachable s w) {a root root' : Nat} {c c' : C} {past past' : List (Event O R Y X A C D)}
    (hb : .began a root c :: past <:+ w.history) (hb' : .began a root' c' :: past' <:+ w.history) :
    root = root' ∧ c = c' ∧ past = past' := by
  induction h with
  | start => exact absurd (List.eq_nil_of_suffix_nil hb) (List.cons_ne_nil _ _)
  | step w w' m hw hs ih =>
      rcases step_began hs with ⟨rest, hrest, ⟨hh, _⟩ | ⟨r, d, hh, _⟩⟩
      · rw [hh] at hb hb'
        exact ih (suffix_of_not_mem (hrest a root c) hb) (suffix_of_not_mem (hrest a root' c') hb')
      · rw [hh] at hb hb'
        have hold : ∀ {root : Nat} {c : C} {past : List (Event O R Y X A C D)},
            .began a root c :: past <:+ rest ++ w.history → a ≠ w.fresh ∧
              .began a root c :: past <:+ w.history := by
          intro root c past hsuffix
          have hsuffix := suffix_of_not_mem (hrest a root c) hsuffix
          exact ⟨Nat.ne_of_lt (began_lt hw (hsuffix.subset List.mem_cons_self)), hsuffix⟩
        rcases List.suffix_cons_iff.mp hb with heq | hb
        · rw [List.cons.injEq, Event.began.injEq] at heq
          rcases List.suffix_cons_iff.mp hb' with heq' | hb'
          · rw [List.cons.injEq, Event.began.injEq] at heq'
            exact ⟨heq.1.2.1.trans heq'.1.2.1.symm, heq.1.2.2.trans heq'.1.2.2.symm,
              heq.2.trans heq'.2.symm⟩
          · exact absurd heq.1.1 (hold hb').1
        · rcases List.suffix_cons_iff.mp hb' with heq' | hb'
          · rw [List.cons.injEq, Event.began.injEq] at heq'
            exact absurd heq'.1.1 (hold hb).1
          · exact ih (hold hb).2 (hold hb').2

/-! ### The invariant of programs that follow an automaton -/

/-- The state each running program is in, with the program started from outside
    that it belongs to. -/
abbrev Roles (Q : Type) : Type := Nat → Option (Nat × Q)

section Invariant

variable {Q : Type} (sys : System O R Y X A C S D)
variable (E : Q → (o : O) → Except Y (R o) → Q → Prop) (post : Q → Except X A → Prop)
variable (role : C → Q)

/-- The roles of a world: every program follows the automaton from its role. -/
structure Fits (w : World O R Y X A C S D) (roles : Roles Q) : Prop where
  follows : ∀ a root p, w.live a = some ⟨root, p⟩ →
    ∃ q, roles a = some (root, q) ∧ Follows E p q post
  absent : ∀ a, w.live a = none → roles a = none
  bound : ∀ a, w.fresh ≤ a → w.live a = none

/-- `G` is kept by everything that can happen, as long as `K` holds: by the start of
    a program, by an edge of the automaton, and by the end of a program. -/
structure Preserves (K G : S → Roles Q → List (Event O R Y X A C D) → Prop) : Prop where
  start : ∀ s roles n h c, K s roles h → G s roles h → roles n = none → sys.admits c = true →
    G s (Function.update roles n (some (n, role c))) (.began n n c :: h)
  act : ∀ s roles n h a root q o r s' q', K s roles h → G s roles h → roles a = some (root, q) →
    roles n = none → E q o r q' → sys.perform a n o r s = some s' → sys.spawns o r = none →
    G s' (Function.update roles a (some (root, q'))) (.did a root o r :: h)
  spawn : ∀ s roles n h a root q o r s' q' c, K s roles h → G s roles h →
    roles a = some (root, q) → roles n = none → E q o r q' →
    sys.perform a n o r s = some s' → sys.spawns o r = some c →
    G s' (Function.update (Function.update roles a (some (root, q'))) n (some (root, role c)))
      (.began n root c :: .did a root o r :: h)
  finish : ∀ s roles h a root q r, K s roles h → G s roles h → roles a = some (root, q) →
    post q r → G (sys.finish a r s) (Function.update roles a none) (.ended a root r :: h)
  crash : ∀ s roles h a root q, K s roles h → G s roles h → roles a = some (root, q) →
    G (sys.crash a s) (Function.update roles a none) (.crashed a :: h)
  disturb : ∀ s roles h d s', K s roles h → G s roles h → sys.disturb d s = some s' →
    G s' roles (.disturbed d :: h)

variable {sys E post role}

/-- Invariants are established one after another. -/
theorem Preserves.and {K G : S → Roles Q → List (Event O R Y X A C D) → Prop}
    (hK : Preserves sys E post role (fun _ _ _ => True) K) (hG : Preserves sys E post role K G) :
    Preserves sys E post role (fun _ _ _ => True) (fun s roles h => K s roles h ∧ G s roles h) where
  start s roles n h c _ hs hn hc :=
    ⟨hK.start s roles n h c trivial hs.1 hn hc, hG.start s roles n h c hs.1 hs.2 hn hc⟩
  act s roles n h a root q o r s' q' _ hs ha hn he hp hsp :=
    ⟨hK.act s roles n h a root q o r s' q' trivial hs.1 ha hn he hp hsp,
      hG.act s roles n h a root q o r s' q' hs.1 hs.2 ha hn he hp hsp⟩
  spawn s roles n h a root q o r s' q' c _ hs ha hn he hp hsp :=
    ⟨hK.spawn s roles n h a root q o r s' q' c trivial hs.1 ha hn he hp hsp,
      hG.spawn s roles n h a root q o r s' q' c hs.1 hs.2 ha hn he hp hsp⟩
  finish s roles h a root q r _ hs ha hp :=
    ⟨hK.finish s roles h a root q r trivial hs.1 ha hp,
      hG.finish s roles h a root q r hs.1 hs.2 ha hp⟩
  crash s roles h a root q _ hs ha :=
    ⟨hK.crash s roles h a root q trivial hs.1 ha, hG.crash s roles h a root q hs.1 hs.2 ha⟩
  disturb s roles h d s' _ hs hd :=
    ⟨hK.disturb s roles h d s' trivial hs.1 hd, hG.disturb s roles h d s' hs.1 hs.2 hd⟩

/-- The second invariant may rely on the first. -/
theorem Preserves.next {K G H : S → Roles Q → List (Event O R Y X A C D) → Prop}
    (hG : Preserves sys E post role K G)
    (hH : Preserves sys E post role (fun s roles h => K s roles h ∧ G s roles h) H) :
    Preserves sys E post role K (fun s roles h => G s roles h ∧ H s roles h) where
  start s roles n h c hK hs hn hc :=
    ⟨hG.start s roles n h c hK hs.1 hn hc, hH.start s roles n h c ⟨hK, hs.1⟩ hs.2 hn hc⟩
  act s roles n h a root q o r s' q' hK hs ha hn he hp hsp :=
    ⟨hG.act s roles n h a root q o r s' q' hK hs.1 ha hn he hp hsp,
      hH.act s roles n h a root q o r s' q' ⟨hK, hs.1⟩ hs.2 ha hn he hp hsp⟩
  spawn s roles n h a root q o r s' q' c hK hs ha hn he hp hsp :=
    ⟨hG.spawn s roles n h a root q o r s' q' c hK hs.1 ha hn he hp hsp,
      hH.spawn s roles n h a root q o r s' q' c ⟨hK, hs.1⟩ hs.2 ha hn he hp hsp⟩
  finish s roles h a root q r hK hs ha hp :=
    ⟨hG.finish s roles h a root q r hK hs.1 ha hp,
      hH.finish s roles h a root q r ⟨hK, hs.1⟩ hs.2 ha hp⟩
  crash s roles h a root q hK hs ha :=
    ⟨hG.crash s roles h a root q hK hs.1 ha, hH.crash s roles h a root q ⟨hK, hs.1⟩ hs.2 ha⟩
  disturb s roles h d s' hK hs hd :=
    ⟨hG.disturb s roles h d s' hK hs.1 hd, hH.disturb s roles h d s' ⟨hK, hs.1⟩ hs.2 hd⟩

/-- Invariants that need the same are established side by side. -/
theorem Preserves.both {K G H : S → Roles Q → List (Event O R Y X A C D) → Prop}
    (hG : Preserves sys E post role K G) (hH : Preserves sys E post role K H) :
    Preserves sys E post role K (fun s roles h => G s roles h ∧ H s roles h) where
  start s roles n h c hK hs hn hc :=
    ⟨hG.start s roles n h c hK hs.1 hn hc, hH.start s roles n h c hK hs.2 hn hc⟩
  act s roles n h a root q o r s' q' hK hs ha hn he hp hsp :=
    ⟨hG.act s roles n h a root q o r s' q' hK hs.1 ha hn he hp hsp,
      hH.act s roles n h a root q o r s' q' hK hs.2 ha hn he hp hsp⟩
  spawn s roles n h a root q o r s' q' c hK hs ha hn he hp hsp :=
    ⟨hG.spawn s roles n h a root q o r s' q' c hK hs.1 ha hn he hp hsp,
      hH.spawn s roles n h a root q o r s' q' c hK hs.2 ha hn he hp hsp⟩
  finish s roles h a root q r hK hs ha hp :=
    ⟨hG.finish s roles h a root q r hK hs.1 ha hp, hH.finish s roles h a root q r hK hs.2 ha hp⟩
  crash s roles h a root q hK hs ha :=
    ⟨hG.crash s roles h a root q hK hs.1 ha, hH.crash s roles h a root q hK hs.2 ha⟩
  disturb s roles h d s' hK hs hd :=
    ⟨hG.disturb s roles h d s' hK hs.1 hd, hH.disturb s roles h d s' hK hs.2 hd⟩

/-- What is kept under an assumption is kept under a stronger one. -/
theorem Preserves.weaken {K K' G : S → Roles Q → List (Event O R Y X A C D) → Prop}
    (hG : Preserves sys E post role K G) (hK : ∀ s roles h, K' s roles h → K s roles h) :
    Preserves sys E post role K' G where
  start s roles n h c hs := hG.start s roles n h c (hK s roles h hs)
  act s roles n h a root q o r s' q' hs := hG.act s roles n h a root q o r s' q' (hK s roles h hs)
  spawn s roles n h a root q o r s' q' c hs :=
    hG.spawn s roles n h a root q o r s' q' c (hK s roles h hs)
  finish s roles h a root q r hs := hG.finish s roles h a root q r (hK s roles h hs)
  crash s roles h a root q hs := hG.crash s roles h a root q (hK s roles h hs)
  disturb s roles h d s' hs := hG.disturb s roles h d s' (hK s roles h hs)

/-- An invariant may be written in another way. -/
theorem Preserves.congr {K G H : S → Roles Q → List (Event O R Y X A C D) → Prop}
    (hG : Preserves sys E post role K G) (heq : ∀ s roles h, G s roles h ↔ H s roles h) :
    Preserves sys E post role K H := by
  have hGH : G = H := by
    funext s roles h
    exact propext (heq s roles h)
  rw [← hGH]
  exact hG

theorem fits_launch {w : World O R Y X A C S D} {roles : Roles Q} (root : Nat) (c : C)
    (hcode : Follows E (sys.code c) (role c) post) (h : Fits E post w roles) :
    Fits E post (sys.launch w root c) (Function.update roles w.fresh (some (root, role c))) := by
  refine ⟨?_, ?_, ?_⟩
  · intro a b p hp
    by_cases ha : a = w.fresh
    · subst ha
      simp only [System.launch, Function.update_self, Option.some.injEq, Running.mk.injEq] at hp
      rcases hp with ⟨rfl, rfl⟩
      exact ⟨role c, Function.update_self _ _ _, hcode⟩
    · simp only [System.launch, Function.update_of_ne ha] at hp
      rw [Function.update_of_ne ha]
      exact h.follows a b p hp
  · intro a hp
    by_cases ha : a = w.fresh
    · subst ha
      simp only [System.launch, Function.update_self, reduceCtorEq] at hp
    · simp only [System.launch, Function.update_of_ne ha] at hp
      rw [Function.update_of_ne ha]
      exact h.absent a hp
  · intro a ha
    simp only [System.launch] at ha ⊢
    rw [Function.update_of_ne (by omega)]
    exact h.bound a (by omega)

theorem fits_stop {w : World O R Y X A C S D} {roles : Roles Q} (a : Nat) (s : S)
    (e : Event O R Y X A C D) (h : Fits E post w roles) :
    Fits E post (w.stop a s e) (Function.update roles a none) := by
  refine ⟨?_, ?_, ?_⟩
  · intro b root p hp
    by_cases hb : b = a
    · subst hb
      simp only [World.stop, Function.update_self, reduceCtorEq] at hp
    · simp only [World.stop, Function.update_of_ne hb] at hp
      rw [Function.update_of_ne hb]
      exact h.follows b root p hp
  · intro b hp
    by_cases hb : b = a
    · subst hb
      exact Function.update_self _ _ _
    · simp only [World.stop, Function.update_of_ne hb] at hp
      rw [Function.update_of_ne hb]
      exact h.absent b hp
  · intro b hb
    by_cases hba : b = a
    · subst hba
      exact Function.update_self _ _ _
    · simp only [World.stop, Function.update_of_ne hba] at hb ⊢
      exact h.bound b hb

theorem fits_advance {w : World O R Y X A C S D} {roles : Roles Q} {a root : Nat} {q : Q}
    {p p' : Prog O R Y X A} (s : S) (e : Event O R Y X A C D) (hlive : w.live a = some ⟨root, p⟩)
    (hp : Follows E p' q post) (h : Fits E post w roles) :
    Fits E post (w.advance a root s p' e) (Function.update roles a (some (root, q))) := by
  refine ⟨?_, ?_, ?_⟩
  · intro b broot p'' hb
    by_cases hba : b = a
    · subst hba
      simp only [World.advance, Function.update_self, Option.some.injEq, Running.mk.injEq] at hb
      rcases hb with ⟨rfl, rfl⟩
      exact ⟨q, Function.update_self _ _ _, hp⟩
    · simp only [World.advance, Function.update_of_ne hba] at hb
      rw [Function.update_of_ne hba]
      exact h.follows b broot p'' hb
  · intro b hb
    by_cases hba : b = a
    · subst hba
      simp only [World.advance, Function.update_self, reduceCtorEq] at hb
    · simp only [World.advance, Function.update_of_ne hba] at hb
      rw [Function.update_of_ne hba]
      exact h.absent b hb
  · intro b hb
    by_cases hba : b = a
    · subst hba
      have hnone := h.bound b hb
      rw [hlive] at hnone
      cases hnone
    · simp only [World.advance, Function.update_of_ne hba] at hb ⊢
      exact h.bound b hb

/-- One step keeps the roles and what is preserved. -/
theorem invariant_step {G : S → Roles Q → List (Event O R Y X A C D) → Prop}
    (hcode : ∀ c, sys.Starts c → Follows E (sys.code c) (role c) post)
    (hG : Preserves sys E post role (fun _ _ _ => True) G) {w w' : World O R Y X A C S D}
    {roles : Roles Q} (hf : Fits E post w roles) (hw : G w.shared roles w.history)
    (a : Act O R Y C D) (hs : sys.step w a = some w') :
    ∃ roles', Fits E post w' roles' ∧ G w'.shared roles' w'.history := by
  have hfresh : roles w.fresh = none := hf.absent _ (hf.bound _ (Nat.le_refl _))
  cases a with
  | begin c =>
      simp only [System.step] at hs
      by_cases hc : sys.admits c = true
      · rw [if_pos hc, Option.some.injEq] at hs
        subst hs
        exact ⟨_, fits_launch w.fresh c (hcode c (Or.inl hc)) hf, hG.start _ _ _ _ c trivial hw hfresh hc⟩
      · rw [if_neg hc] at hs
        cases hs
  | answer a reply =>
      simp only [System.step] at hs
      split at hs
      · next root o k hlive =>
          rcases hf.follows a root _ hlive with ⟨q, hq, hfol⟩
          rcases hfol (reply o) with ⟨q', he, hk⟩
          split at hs
          · next s hp =>
              have hadv := fits_advance s (.did a root o (reply o)) hlive hk hf
              split at hs
              · next c hc =>
                  rw [Option.some.injEq] at hs
                  subst hs
                  exact ⟨_, fits_launch root c (hcode c (Or.inr ⟨_, _, hc⟩)) hadv,
                    hG.spawn _ _ _ _ _ _ _ _ _ _ _ c trivial hw hq hfresh he hp hc⟩
              · next hc =>
                  rw [Option.some.injEq] at hs
                  subst hs
                  exact ⟨_, hadv, hG.act _ _ _ _ _ _ _ _ _ _ _ trivial hw hq hfresh he hp hc⟩
          · cases hs
      · cases hs
  | finish a =>
      simp only [System.step] at hs
      split at hs
      · next root v hlive =>
          rw [Option.some.injEq] at hs
          subst hs
          rcases hf.follows a root _ hlive with ⟨q, hq, hfol⟩
          exact ⟨_, fits_stop a _ _ hf, hG.finish _ _ _ _ _ _ _ trivial hw hq hfol⟩
      · next root x hlive =>
          rw [Option.some.injEq] at hs
          subst hs
          rcases hf.follows a root _ hlive with ⟨q, hq, hfol⟩
          exact ⟨_, fits_stop a _ _ hf, hG.finish _ _ _ _ _ _ _ trivial hw hq hfol⟩
      · cases hs
  | crash a =>
      simp only [System.step] at hs
      split at hs
      · next running hlive =>
          rw [Option.some.injEq] at hs
          subst hs
          rcases hf.follows a running.root running.prog hlive with ⟨q, hq, _⟩
          exact ⟨_, fits_stop a _ _ hf, hG.crash _ _ _ _ _ _ trivial hw hq⟩
      · cases hs
  | disturb d =>
      simp only [System.step] at hs
      split at hs
      · next s hd =>
          rw [Option.some.injEq] at hs
          subst hs
          exact ⟨roles, ⟨hf.follows, hf.absent, hf.bound⟩, hG.disturb _ _ _ _ _ trivial hw hd⟩
      · cases hs

/-- What the edges preserve holds in every reachable world. -/
theorem invariant {G : S → Roles Q → List (Event O R Y X A C D) → Prop} {s : S}
    (hcode : ∀ c, sys.Starts c → Follows E (sys.code c) (role c) post)
    (hG : Preserves sys E post role (fun _ _ _ => True) G) (hstart : G s (fun _ => none) [])
    {w : World O R Y X A C S D} (h : sys.Reachable s w) :
    ∃ roles, Fits E post w roles ∧ G w.shared roles w.history := by
  induction h with
  | start =>
      refine ⟨fun _ => none, ⟨?_, fun _ _ => rfl, fun _ _ => rfl⟩, hstart⟩
      intro a root p hp
      cases hp
  | step w w' a _ hs ih =>
      rcases ih with ⟨roles, hf, hw⟩
      exact invariant_step hcode hG hf hw a hs

end Invariant

end Interleave
