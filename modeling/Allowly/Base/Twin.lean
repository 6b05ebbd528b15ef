import Allowly.Base.Interleave
import Mathlib.Data.List.Forall2

/-!
# Two Runs

Two runs of one system, side by side. In both the same programs are started and make
their moves in the same order, and what is answered is related by `S`. When every program
keeps step with itself under such answers, the two worlds stay related: what the programs
share by `T`, and the programs that are running by `Lockstep`.

This is how a value is shown not to get anywhere: `S` relates answers that differ in the
value, and `T` says where it must not show.

## Main definitions

* `Act.Beside`, `System.Twins`: Two runs side by side.
* `Twin`: The two worlds are related.
* `Keeps`: What the shared state has to respect.

## Theorems

* `twins_twin`: Two runs side by side are related.
* `twins_run`: Lists of moves give two runs.
-/

namespace Interleave

open Prog

variable {O : Type} {R : O → Type} {Y X A C S D : Type}

/-- A move and the one the other run makes beside it. -/
def Act.Beside (Rel : (o : O) → Except Y (R o) → Except Y (R o) → Prop) :
    Act O R Y C D → Act O R Y C D → Prop
  | .begin c, .begin c' => c' = c
  | .answer a reply, .answer a' reply' => a' = a ∧ ∀ o, Rel o (reply o) (reply' o)
  | .finish a, .finish a' => a' = a
  | .crash a, .crash a' => a' = a
  | .disturb d, .disturb d' => d' = d
  | _, _ => False

/-- The worlds that two runs from the same state reach side by side. -/
inductive System.Twins (sys : System O R Y X A C S D)
    (Rel : (o : O) → Except Y (R o) → Except Y (R o) → Prop) (s : S) :
    World O R Y X A C S D → World O R Y X A C S D → Prop where
  | start : sys.Twins Rel s (World.initial s) (World.initial s)
  | step (w w' v v' : World O R Y X A C S D) (m m' : Act O R Y C D) (h : sys.Twins Rel s w w')
      (hm : m.Beside Rel m') (hs : sys.step w m = some v) (hs' : sys.step w' m' = some v') :
      sys.Twins Rel s v v'

variable {sys : System O R Y X A C S D} {Rel : (o : O) → Except Y (R o) → Except Y (R o) → Prop}
  {T : S → S → Prop} {post : Except X A → Except X A → Prop}
  {w w' : World O R Y X A C S D}

/-- Two programs at the same place of the two runs. -/
def Aligned (Rel : (o : O) → Except Y (R o) → Except Y (R o) → Prop)
    (post : Except X A → Except X A → Prop) :
    Option (Running O R Y X A) → Option (Running O R Y X A) → Prop
  | none, none => True
  | some p, some p' => p'.root = p.root ∧ Lockstep Rel p.prog p'.prog post
  | _, _ => False

/-- The two worlds are related. -/
structure Twin (Rel : (o : O) → Except Y (R o) → Except Y (R o) → Prop) (T : S → S → Prop)
    (post : Except X A → Except X A → Prop) (w w' : World O R Y X A C S D) : Prop where
  shared : T w.shared w'.shared
  fresh : w'.fresh = w.fresh
  live : ∀ a, Aligned Rel post (w.live a) (w'.live a)

/-- The shared state stays related, and every program keeps step with itself. -/
structure Keeps (sys : System O R Y X A C S D)
    (Rel : (o : O) → Except Y (R o) → Except Y (R o) → Prop) (T : S → S → Prop)
    (post : Except X A → Except X A → Prop) : Prop where
  code : ∀ c, Lockstep Rel (sys.code c) (sys.code c) post
  perform : ∀ {a n : Nat} {o : O} {r r' : Except Y (R o)} {s s' t t' : S}, T s s' → Rel o r r' →
    sys.perform a n o r s = some t → sys.perform a n o r' s' = some t' →
    T t t' ∧ sys.spawns o r' = sys.spawns o r
  finish : ∀ {a : Nat} {r r' : Except X A} {s s' : S}, T s s' → post r r' →
    T (sys.finish a r s) (sys.finish a r' s')
  crash : ∀ {a : Nat} {s s' : S}, T s s' → T (sys.crash a s) (sys.crash a s')
  disturb : ∀ {d : D} {s s' t t' : S}, T s s' → sys.disturb d s = some t →
    sys.disturb d s' = some t' → T t t'

theorem aligned_update {f f' : Nat → Option (Running O R Y X A)}
    (h : ∀ a, Aligned Rel post (f a) (f' a)) (n : Nat) {p q : Option (Running O R Y X A)}
    (hp : Aligned Rel post p q) (a : Nat) :
    Aligned Rel post (Function.update f n p a) (Function.update f' n q a) := by
  by_cases ha : a = n
  · rw [ha, Function.update_self, Function.update_self]
    exact hp
  · rw [Function.update_of_ne ha, Function.update_of_ne ha]
    exact h a

theorem Twin.launch (hk : Keeps sys Rel T post) (h : Twin Rel T post w w') (root : Nat) (c : C) :
    Twin Rel T post (sys.launch w root c) (sys.launch w' root c) := by
  refine ⟨h.shared, ?_, ?_⟩
  · rw [System.launch, System.launch, h.fresh]
  · intro a
    rw [System.launch, System.launch, h.fresh]
    exact aligned_update h.live w.fresh (p := some ⟨root, sys.code c⟩)
      (q := some ⟨root, sys.code c⟩) ⟨rfl, hk.code c⟩ a

/-- The two programs of a number are at the same point of it. -/
theorem Twin.running (h : Twin Rel T post w w') {a root root' : Nat} {p p' : Prog O R Y X A}
    (hp : w.live a = some ⟨root, p⟩) (hp' : w'.live a = some ⟨root', p'⟩) :
    root' = root ∧ Lockstep Rel p p' post := by
  have ha := h.live a
  rw [hp, hp'] at ha
  exact ha

/-- The two programs have ended, in related results. -/
theorem Twin.stop (h : Twin Rel T post w w') {a : Nat} {s s' : S} (hs : T s s')
    (e e' : Event O R Y X A C D) : Twin Rel T post (w.stop a s e) (w'.stop a s' e') :=
  ⟨hs, h.fresh, aligned_update h.live a trivial⟩

/-- What two moves side by side preserve. -/
theorem Twin.step (hk : Keeps sys Rel T post) (h : Twin Rel T post w w') {m m' : Act O R Y C D}
    {v v' : World O R Y X A C S D} (hm : m.Beside Rel m') (hs : sys.step w m = some v)
    (hs' : sys.step w' m' = some v') : Twin Rel T post v v' := by
  cases m with
  | begin c =>
      cases m' with
      | begin c' =>
          have hc : c' = c := hm
          subst hc
          simp only [System.step] at hs hs'
          by_cases hadmit : sys.admits c' = true
          · rw [if_pos hadmit, Option.some.injEq] at hs hs'
            rw [← hs, ← hs', h.fresh]
            exact h.launch hk w.fresh c'
          · rw [if_neg hadmit] at hs
            cases hs
      | _ => exact hm.elim
  | answer a reply =>
      cases m' with
      | answer a' reply' =>
          rcases hm with ⟨rfl, hreply⟩
          simp only [System.step] at hs hs'
          split at hs
          · next root o k hl =>
              split at hs'
              · next root' o' k' hl' =>
                  rcases h.running hl hl' with ⟨rfl, rfl, hlock⟩
                  split at hs
                  · next t ht =>
                      split at hs'
                      · next t' ht' =>
                          rw [h.fresh] at ht'
                          rcases hk.perform h.shared (hreply _) ht ht' with ⟨htt, hspawn⟩
                          have hnext : Twin Rel T post
                              (w.advance a' root' t (k (reply o')) (.did a' root' o' (reply o')))
                              (w'.advance a' root' t' (k' (reply' o')) (.did a' root' o' (reply' o'))) :=
                            ⟨htt, h.fresh, aligned_update h.live a' (p := some ⟨root', k (reply o')⟩)
                              (q := some ⟨root', k' (reply' o')⟩) ⟨rfl, hlock _ _ (hreply _)⟩⟩
                          rw [hspawn] at hs'
                          split at hs
                          · next c hc =>
                              rw [hc] at hs'
                              cases hs
                              cases hs'
                              exact hnext.launch hk root' c
                          · next hc =>
                              rw [hc] at hs'
                              cases hs
                              cases hs'
                              exact hnext
                      · cases hs'
                  · cases hs
              · cases hs'
          · cases hs
      | _ => exact hm.elim
  | finish a =>
      cases m' with
      | finish a' =>
          have ha : a' = a := hm
          subst ha
          simp only [System.step] at hs hs'
          split at hs
          · next root x hl =>
              split at hs'
              · next root' x' hl' =>
                  cases hs
                  cases hs'
                  exact h.stop (hk.finish h.shared (h.running hl hl').2) _ _
              · next root' x' hl' => exact (h.running hl hl').2.elim
              · cases hs'
          · next root x hl =>
              split at hs'
              · next root' x' hl' => exact (h.running hl hl').2.elim
              · next root' x' hl' =>
                  cases hs
                  cases hs'
                  exact h.stop (hk.finish h.shared (h.running hl hl').2) _ _
              · cases hs'
          · cases hs
      | _ => exact hm.elim
  | crash a =>
      cases m' with
      | crash a' =>
          have ha : a' = a := hm
          subst ha
          simp only [System.step] at hs hs'
          split at hs
          · split at hs'
            · cases hs
              cases hs'
              exact h.stop (hk.crash h.shared) _ _
            · cases hs'
          · cases hs
      | _ => exact hm.elim
  | disturb d =>
      cases m' with
      | disturb d' =>
          have hd : d' = d := hm
          subst hd
          simp only [System.step] at hs hs'
          split at hs
          · next t ht =>
              split at hs'
              · next t' ht' =>
                  cases hs
                  cases hs'
                  exact ⟨hk.disturb h.shared ht ht', h.fresh, h.live⟩
              · cases hs'
          · cases hs
      | _ => exact hm.elim

/-- Two runs side by side are related. -/
theorem twins_twin (hk : Keeps sys Rel T post) {s : S} (hT : T s s)
    (h : sys.Twins Rel s w w') : Twin Rel T post w w' := by
  induction h with
  | start => exact ⟨hT, rfl, fun _ => trivial⟩
  | step w w' v v' m m' _ hm hs hs' ih => exact ih.step hk hm hs hs'

/-- Lists of moves give two runs. -/
theorem twins_run {s : S} {ms ms' : List (Act O R Y C D)} {v v' : World O R Y X A C S D}
    (h : sys.Twins Rel s w w') (hms : List.Forall₂ (Act.Beside Rel) ms ms')
    (hrun : sys.run w ms = some v) (hrun' : sys.run w' ms' = some v') : sys.Twins Rel s v v' := by
  induction hms generalizing w w' with
  | nil =>
      rw [System.run, Option.some.injEq] at hrun hrun'
      rw [← hrun, ← hrun']
      exact h
  | cons hm _ ih =>
      rw [System.run, Option.bind_eq_some_iff] at hrun hrun'
      rcases hrun with ⟨u, hu, hrun⟩
      rcases hrun' with ⟨u', hu', hrun'⟩
      exact ih (System.Twins.step w w' u u' _ _ h hm hu hu') hrun hrun'

end Interleave
