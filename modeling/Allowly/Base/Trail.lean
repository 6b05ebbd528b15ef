import Allowly.Base.Token

/-!
# What Programs Remember of a Run

A state of the automaton often says that something happened before: a request was
answered, a file was written. Such a fact is about the history, stays true when the
history grows, and is made by the steps of the program itself. It is a trail.

What the steps leave in the history can then be said of every event and its past.

## Main definitions

* `Trail`: What the automaton has to satisfy.

## Theorems

* `preserves_trail`: Every running program has its trail.
* `preserves_always`: What every step satisfies, every event satisfies.
-/

namespace Interleave

variable {O : Type} {R : O → Type} {Y X A C S D Q : Type}

section Trail

variable (sys : System O R Y X A C S D) (E : Q → (o : O) → Except Y (R o) → Q → Prop)
variable (role : C → Q) (K : S → Roles Q → List (Event O R Y X A C D) → Prop)
variable (T : Nat → Nat → Q → List (Event O R Y X A C D) → Prop)

/-- `T` says what a program, which belongs to a root, remembers in a state. -/
structure Trail : Prop where
  mono : ∀ a root q e h, T a root q h → T a root q (e :: h)
  start : ∀ n h c, sys.admits c = true → T n n (role c) (.began n n c :: h)
  act : ∀ s roles n h a root q o r s' q', K s roles h → roles a = some (root, q) → T a root q h →
    E q o r q' → sys.perform a n o r s = some s' → T a root q' (.did a root o r :: h)
  spawn : ∀ s roles n h a root q o r s' q' c, K s roles h → roles a = some (root, q) →
    T a root q h → E q o r q' → sys.perform a n o r s = some s' → sys.spawns o r = some c →
    T n root (role c) (.did a root o r :: h)

variable {sys E role K T}

/-- Every running program has its trail. -/
theorem preserves_trail (post : Q → Except X A → Prop) (ht : Trail sys E role K T) :
    Preserves sys E post role K
      (fun _ roles h => ∀ a root q, roles a = some (root, q) → T a root q h) where
  start s roles n h c hK hT hn hc := by
    intro b rb qb hb
    rcases update_some hb with ⟨hbn, hx⟩ | ⟨_, hx⟩
    · cases hx
      rw [hbn]
      exact ht.start n h c hc
    · exact ht.mono b rb qb _ _ (hT b rb qb hx)
  act s roles n h a root q o r s' q' hK hT ha hn he hp hs := by
    intro b rb qb hb
    rcases update_some hb with ⟨hba, hx⟩ | ⟨_, hx⟩
    · cases hx
      rw [hba]
      exact ht.act s roles n h a root q o r s' q' hK ha (hT a root q ha) he hp
    · exact ht.mono b rb qb _ _ (hT b rb qb hx)
  spawn s roles n h a root q o r s' q' c hK hT ha hn he hp hs := by
    intro b rb qb hb
    rcases update_some hb with ⟨hbn, hx⟩ | ⟨_, hx⟩
    · cases hx
      rw [hbn]
      exact ht.mono _ _ _ _ _
        (ht.spawn s roles n h a root q o r s' q' c hK ha (hT a root q ha) he hp hs)
    · rcases update_some hx with ⟨hba, hy⟩ | ⟨_, hy⟩
      · cases hy
        rw [hba]
        exact ht.mono _ _ _ _ _
          (ht.act s roles n h a root q o r s' q' hK ha (hT a root q ha) he hp)
      · exact ht.mono _ _ _ _ _ (ht.mono b rb qb _ _ (hT b rb qb hy))
  finish s roles h a root q r hK hT ha hp := by
    intro b rb qb hb
    rcases update_some hb with ⟨_, hx⟩ | ⟨_, hx⟩
    · cases hx
    · exact ht.mono b rb qb _ _ (hT b rb qb hx)
  crash s roles h a root q hK hT ha := by
    intro b rb qb hb
    rcases update_some hb with ⟨_, hx⟩ | ⟨_, hx⟩
    · cases hx
    · exact ht.mono b rb qb _ _ (hT b rb qb hx)
  disturb s roles h d s' hK hT hd := by
    intro b rb qb hb
    exact ht.mono b rb qb _ _ (hT b rb qb hb)

/-- What every step satisfies, every event satisfies. -/
theorem preserves_always {post : Q → Except X A → Prop}
    {P : Event O R Y X A C D → List (Event O R Y X A C D) → Prop}
    (hbegan : ∀ n root c h, P (.began n root c) h)
    (hdid : ∀ s roles n h a root q o r s' q', K s roles h → roles a = some (root, q) →
      E q o r q' → sys.perform a n o r s = some s' → P (.did a root o r) h)
    (hended : ∀ s roles h a root q r, K s roles h → roles a = some (root, q) → post q r →
      P (.ended a root r) h)
    (hcrashed : ∀ a h, P (.crashed a) h) (hdisturbed : ∀ d h, P (.disturbed d) h) :
    Preserves sys E post role K (fun _ _ h => Always P h) where
  start _ _ n h c _ hP _ _ := ⟨hbegan n n c h, hP⟩
  act s roles n h a root q o r s' q' hK hP ha _ he hp _ :=
    ⟨hdid s roles n h a root q o r s' q' hK ha he hp, hP⟩
  spawn s roles n h a root q o r s' q' c hK hP ha _ he hp _ :=
    ⟨hbegan n root c _, hdid s roles n h a root q o r s' q' hK ha he hp, hP⟩
  finish s roles h a root q r hK hP ha hp := ⟨hended s roles h a root q r hK ha hp, hP⟩
  crash _ _ h a _ _ _ hP _ := ⟨hcrashed a h, hP⟩
  disturb _ _ h d _ _ hP _ := ⟨hdisturbed d h, hP⟩

end Trail

end Interleave
