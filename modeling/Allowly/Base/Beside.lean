import Allowly.Base.Interleave

/-!
# Beside a Running System

A program that looks at the shared state of a system and leaves it as it is. Before each of
its operations, and after the last one, the system makes any number of moves. What an
operation is answered depends on the state it comes upon.

A property that no move takes back holds from where it was found on. That is how answers
that were given at different times are brought together.

## Main definitions

* `System.Beside`: A run of a program beside one of the system.

## Theorems

* `beside_append`: A run in two parts.
* `beside_cons`: Where an operation was answered.
* `Beside.reachable`, `Beside.lasts`: What is reached, and what is kept.
* `beside_traceOf`: A run while the system stands still.
-/

namespace Interleave

variable {O : Type} {R : O → Type} {Y X A C S D : Type}
variable {P : Type} {Q : P → Type} {Z : Type}

/-- A program has these operations answered, as `sees` has it, while the system goes from one
    world to another. -/
inductive System.Beside (sys : System O R Y X A C S D)
    (sees : S → (o : P) → Except Z (Q o) → Prop) :
    World O R Y X A C S D → List ((o : P) × Except Z (Q o)) → World O R Y X A C S D → Prop where
  | done (w : World O R Y X A C S D) : sys.Beside sees w [] w
  | moved (w w' w'' : World O R Y X A C S D) (t : List ((o : P) × Except Z (Q o)))
      (a : Act O R Y C D) (hs : sys.step w a = some w') (h : sys.Beside sees w' t w'') :
      sys.Beside sees w t w''
  | saw (w w' : World O R Y X A C S D) (t : List ((o : P) × Except Z (Q o))) (o : P)
      (r : Except Z (Q o)) (hr : sees w.shared o r) (h : sys.Beside sees w t w') :
      sys.Beside sees w (⟨o, r⟩ :: t) w'

variable {sys : System O R Y X A C S D} {sees : S → (o : P) → Except Z (Q o) → Prop}
variable {w w' w'' : World O R Y X A C S D} {t u : List ((o : P) × Except Z (Q o))}

/-- A run in two parts. -/
theorem beside_append : sys.Beside sees w (t ++ u) w'' ↔
    ∃ w', sys.Beside sees w t w' ∧ sys.Beside sees w' u w'' := by
  refine ⟨?_, ?_⟩
  · intro h
    generalize htu : t ++ u = l at h
    induction h generalizing t with
    | done v =>
        rw [List.append_eq_nil_iff] at htu
        rw [htu.1, htu.2]
        exact ⟨v, .done v, .done v⟩
    | moved v v' v'' l a hs _ ih =>
        rcases ih htu with ⟨w', ht, hu⟩
        exact ⟨w', .moved v v' w' t a hs ht, hu⟩
    | saw v v' l o r hr h ih =>
        cases t with
        | nil =>
            rw [List.nil_append] at htu
            rw [htu]
            exact ⟨v, .done v, .saw v v' l o r hr h⟩
        | cons e t =>
            rw [List.cons_append, List.cons.injEq] at htu
            rcases ih htu.2 with ⟨w', ht, hu⟩
            rw [htu.1]
            exact ⟨w', .saw v w' t o r hr ht, hu⟩
  · rintro ⟨w', ht, hu⟩
    induction ht with
    | done v => exact hu
    | moved v v' v'' t a hs _ ih => exact .moved v v' _ _ a hs (ih hu)
    | saw v v' t o r hr _ ih => exact .saw v _ _ o r hr (ih hu)

/-- Where an operation was answered. -/
theorem beside_cons {o : P} {r : Except Z (Q o)} (h : sys.Beside sees w (⟨o, r⟩ :: t) w'') :
    ∃ w', sys.Beside sees w [] w' ∧ sees w'.shared o r ∧ sys.Beside sees w' t w'' := by
  generalize hl : (⟨o, r⟩ :: t : List ((o : P) × Except Z (Q o))) = l at h
  induction h with
  | done v => cases hl
  | moved v v' v'' l a hs _ ih =>
      rcases ih hl with ⟨w', hw', hr, ht⟩
      exact ⟨w', .moved v v' w' [] a hs hw', hr, ht⟩
  | saw v v' l o' r' hr h ih =>
      cases hl
      exact ⟨v, .done v, hr, h⟩

/-- A run goes on to what can be reached. -/
theorem System.Beside.reachable {s : S} (h : sys.Beside sees w t w') (hw : sys.Reachable s w) :
    sys.Reachable s w' := by
  induction h with
  | done v => exact hw
  | moved v v' v'' t a hs _ ih => exact ih (.step v v' a hw hs)
  | saw v v' t o r hr _ ih => exact ih hw

/-- What no move takes back is kept. -/
theorem System.Beside.lasts {s : S} {K : World O R Y X A C S D → Prop}
    (h : sys.Beside sees w t w') (hw : sys.Reachable s w)
    (hstep : ∀ v v' a, sys.Reachable s v → sys.step v a = some v' → K v → K v') (hK : K w) :
    K w' := by
  induction h with
  | done v => exact hK
  | moved v v' v'' t a hs _ ih => exact ih (.step v v' a hw hs) (hstep v v' a hw hs hK)
  | saw v v' t o r hr _ ih => exact ih hw hK

/-- A run while the system stands still. -/
theorem beside_traceOf {V B : Type} {reply : (o : P) → Except Z (Q o)}
    (hr : ∀ o, sees w.shared o (reply o)) (p : Prog P Q Z V B) :
    sys.Beside sees w (Prog.traceOf reply p).1 w := by
  induction p with
  | ret b => exact .done w
  | raise x => exact .done w
  | op o k ih => exact .saw w w _ o (reply o) (hr o) (ih (reply o))

end Interleave
