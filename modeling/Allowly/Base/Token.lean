import Allowly.Base.Interleave

/-!
# Rights That Are Had Once

A right is a state of the automaton in which an event of some kind may still happen.
It is gained under a guard that afterwards never holds again, it goes when it is used,
and a program may hand it on to one that it starts. Then at most one program has the
right at a time, and there is at most one event of its kind in a run.

The guard is a predicate of the shared state that says that the right was gained.

## Main definitions

* `Right`: What the automaton has to satisfy.
* `Held`: The invariant of a right.

## Theorems

* `preserves_held`: The invariant is kept.
-/

namespace Interleave

variable {O : Type} {R : O → Type} {Y X A C S D Q : Type}

section Right

variable (sys : System O R Y X A C S D) (E : Q → (o : O) → Except Y (R o) → Q → Prop)
variable (role : C → Q) (K : S → Roles Q → List (Event O R Y X A C D) → Prop)
variable (has : Q → Bool) (uses : Event O R Y X A C D → Bool) (gained : S → Prop)

/-- `has` says who has the right, `uses` which events use it, and `gained` that it was
    already gained. -/
structure Right : Prop where
  only : ∀ e, uses e = true → ∃ a root o r, e = .did a root o r
  holder : ∀ s roles h a root q, K s roles h → roles a = some (root, q) → has q = true → gained s
  act : ∀ s roles n h a root q o r s' q', K s roles h → roles a = some (root, q) → E q o r q' →
    sys.perform a n o r s = some s' →
    (gained s → gained s') ∧
    (has q' = true → has q = true ∨ ¬ gained s) ∧
    (uses (.did a root o r) = true → (has q = true ∨ ¬ gained s) ∧ gained s' ∧ has q' = false) ∧
    (∀ c, sys.spawns o r = some c → has (role c) = true →
      has q = true ∧ has q' = false ∧ uses (.did a root o r) = false)
  start : ∀ c, sys.admits c = true → has (role c) = false
  finish : ∀ a r s, gained s → gained (sys.finish a r s)
  crash : ∀ a s, gained s → gained (sys.crash a s)
  disturb : ∀ d s s', sys.disturb d s = some s' → gained s → gained s'

/-- At most one program has the right, and it was not used as long as somebody has it
    or it was not gained. -/
structure Held (s : S) (roles : Roles Q) (h : List (Event O R Y X A C D)) : Prop where
  unique : ∀ a b ra rb qa qb, roles a = some (ra, qa) → roles b = some (rb, qb) →
    has qa = true → has qb = true → a = b
  fresh : ∀ a root q, roles a = some (root, q) → has q = true → h.countP uses = 0
  before : ¬ gained s → h.countP uses = 0
  once : h.countP uses ≤ 1

variable {sys E role K has uses gained}

theorem held_initial (s : S) : Held (O := O) (R := R) (Y := Y) (X := X) (A := A) (C := C) (D := D)
    has uses gained s (fun _ => none) [] where
  unique a b ra rb qa qb ha := by cases ha
  fresh a root q ha := by cases ha
  before _ := rfl
  once := Nat.zero_le 1

/-- A role after one was changed. -/
theorem update_some {roles : Roles Q} {a b : Nat} {x : Option (Nat × Q)} {y : Nat × Q}
    (h : Function.update roles a x b = some y) : b = a ∧ x = some y ∨ b ≠ a ∧ roles b = some y := by
  by_cases hb : b = a
  · rw [hb, Function.update_self] at h
    exact Or.inl ⟨hb, h⟩
  · rw [Function.update_of_ne hb] at h
    exact Or.inr ⟨hb, h⟩

/-- Only an operation uses a right. -/
theorem Right.countP_other (hr : Right sys E role K has uses gained) {e : Event O R Y X A C D}
    {h : List (Event O R Y X A C D)} (he : ∀ a root o r, e ≠ .did a root o r) :
    (e :: h).countP uses = h.countP uses := by
  refine List.countP_cons_of_neg fun hu => ?_
  rcases hr.only e hu with ⟨a, root, o, r, heq⟩
  exact he a root o r heq

/-- A program ended, or the surroundings did something. -/
theorem Held.sub {s s' : S} {roles roles' : Roles Q} {h h' : List (Event O R Y X A C D)}
    (hh : Held has uses gained s roles h) (hroles : ∀ b y, roles' b = some y → roles b = some y)
    (hcount : h'.countP uses = h.countP uses) (hgained : gained s → gained s') :
    Held has uses gained s' roles' h' where
  unique a b ra rb qa qb ha hb := hh.unique a b ra rb qa qb (hroles a _ ha) (hroles b _ hb)
  fresh a root q ha hq := by rw [hcount]; exact hh.fresh a root q (hroles a _ ha) hq
  before hn := by rw [hcount]; exact hh.before fun hg => hn (hgained hg)
  once := by rw [hcount]; exact hh.once

/-- A program has started. It may have the right if nobody else has. -/
theorem Held.launch {s : S} {roles : Roles Q} {h h' : List (Event O R Y X A C D)} {n root : Nat}
    {q : Q} (hh : Held has uses gained s roles h) (hcount : h'.countP uses = h.countP uses)
    (hq : has q = true → h.countP uses = 0 ∧ ∀ b rb qb, roles b = some (rb, qb) → has qb = false) :
    Held has uses gained s (Function.update roles n (some (root, q))) h' where
  unique a b ra rb qa qb ha hb hqa hqb := by
    have hno : ∀ c rc qc, roles c = some (rc, qc) → has q = true → has qc = true → False := by
      intro c rc qc hc hhas hqc
      rw [(hq hhas).2 c rc qc hc] at hqc
      cases hqc
    rcases update_some ha with ⟨haa, hxa⟩ | ⟨_, hxa⟩
    · cases hxa
      rcases update_some hb with ⟨hbb, _⟩ | ⟨_, hxb⟩
      · rw [haa, hbb]
      · exact (hno b rb qb hxb hqa hqb).elim
    · rcases update_some hb with ⟨_, hxb⟩ | ⟨_, hxb⟩
      · cases hxb
        exact (hno a ra qa hxa hqb hqa).elim
      · exact hh.unique a b ra rb qa qb hxa hxb hqa hqb
  fresh a ra qa ha hqa := by
    rw [hcount]
    rcases update_some ha with ⟨_, hx⟩ | ⟨_, hx⟩
    · cases hx
      exact (hq hqa).1
    · exact hh.fresh a ra qa hx hqa
  before hn := by rw [hcount]; exact hh.before hn
  once := by rw [hcount]; exact hh.once

/-- A program has performed an operation. -/
theorem Held.act {s s' : S} {roles : Roles Q} {h : List (Event O R Y X A C D)} {n a root : Nat}
    {q q' : Q} {o : O} {r : Except Y (R o)} (hr : Right sys E role K has uses gained)
    (hK : K s roles h) (hh : Held has uses gained s roles h) (ha : roles a = some (root, q))
    (he : E q o r q') (hp : sys.perform a n o r s = some s') :
    Held has uses gained s' (Function.update roles a (some (root, q'))) (.did a root o r :: h) := by
  rcases hr.act s roles n h a root q o r s' q' hK ha he hp with ⟨hgained, hgain, huse, _⟩
  by_cases hu : uses (.did a root o r) = true
  · -- The right was used, and nobody has it any more.
    rcases huse hu with ⟨hright, hs', hq'⟩
    have hzero : h.countP uses = 0 := by
      rcases hright with hq | hn
      · exact hh.fresh a root q ha hq
      · exact hh.before hn
    have hnone : ∀ b rb qb, Function.update roles a (some (root, q')) b = some (rb, qb) →
        has qb = true → False := by
      intro b rb qb hb hqb
      rcases update_some hb with ⟨_, hx⟩ | ⟨hne, hx⟩
      · cases hx
        rw [hq'] at hqb
        cases hqb
      · rcases hright with hq | hn
        · exact hne (hh.unique b a rb root qb q hx ha hqb hq)
        · exact hn (hr.holder s roles h b rb qb hK hx hqb)
    refine ⟨?_, ?_, ?_, ?_⟩
    · intro b c rb rc qb qc hb _ hqb
      exact (hnone b rb qb hb hqb).elim
    · intro b rb qb hb hqb
      exact (hnone b rb qb hb hqb).elim
    · intro hn
      exact absurd hs' hn
    · exact Nat.le_of_eq ((List.countP_cons_of_pos hu).trans (congrArg (· + 1) hzero))
  · have hcount : (Event.did a root o r :: h).countP uses = h.countP uses :=
      List.countP_cons_of_neg hu
    have hother : ∀ b rb qb, roles b = some (rb, qb) → has qb = true → has q' = true → b = a := by
      intro b rb qb hb hqb hq'
      rcases hgain hq' with hq | hn
      · exact hh.unique b a rb root qb q hb ha hqb hq
      · exact absurd (hr.holder s roles h b rb qb hK hb hqb) hn
    refine ⟨?_, ?_, ?_, ?_⟩
    · intro b c rb rc qb qc hb hc hqb hqc
      rcases update_some hb with ⟨hba, hxb⟩ | ⟨_, hxb⟩
      · cases hxb
        rcases update_some hc with ⟨hca, _⟩ | ⟨_, hxc⟩
        · rw [hba, hca]
        · rw [hba, hother c rc qc hxc hqc hqb]
      · rcases update_some hc with ⟨hca, hxc⟩ | ⟨_, hxc⟩
        · cases hxc
          rw [hca, hother b rb qb hxb hqb hqc]
        · exact hh.unique b c rb rc qb qc hxb hxc hqb hqc
    · intro b rb qb hb hqb
      rw [hcount]
      rcases update_some hb with ⟨_, hx⟩ | ⟨_, hx⟩
      · cases hx
        rcases hgain hqb with hq | hn
        · exact hh.fresh a root q ha hq
        · exact hh.before hn
      · exact hh.fresh b rb qb hx hqb
    · intro hn
      rw [hcount]
      exact hh.before fun hg => hn (hgained hg)
    · rw [hcount]
      exact hh.once

/-- Every move keeps the invariant of a right. -/
theorem preserves_held (post : Q → Except X A → Prop) (hr : Right sys E role K has uses gained) :
    Preserves sys E post role K (Held has uses gained) where
  start s roles n h c hK hh hn hc := by
    refine hh.launch (hr.countP_other nofun) fun hq => ?_
    rw [hr.start c hc] at hq
    cases hq
  act s roles n h a root q o r s' q' hK hh ha hn he hp hs := hh.act hr hK ha he hp
  spawn s roles n h a root q o r s' q' c hK hh ha hn he hp hs := by
    refine (hh.act hr hK ha he hp).launch (hr.countP_other nofun) fun hc => ?_
    rcases (hr.act s roles n h a root q o r s' q' hK ha he hp).2.2.2 c hs hc with ⟨hq, hq', hu⟩
    refine ⟨?_, ?_⟩
    · rw [List.countP_cons_of_neg (by rw [hu]; exact Bool.false_ne_true)]
      exact hh.fresh a root q ha hq
    · intro b rb qb hb
      rcases update_some hb with ⟨_, hx⟩ | ⟨hne, hx⟩
      · cases hx
        exact hq'
      · by_contra hqb
        exact hne (hh.unique b a rb root qb q hx ha ((Bool.not_eq_false _).mp hqb) hq)
  finish s roles h a root q r hK hh ha hp := by
    refine hh.sub ?_ (hr.countP_other nofun) (hr.finish a r s)
    intro b y hb
    rcases update_some hb with ⟨_, hx⟩ | ⟨_, hx⟩
    · cases hx
    · exact hx
  crash s roles h a root q hK hh ha := by
    refine hh.sub ?_ (hr.countP_other nofun) (hr.crash a s)
    intro b y hb
    rcases update_some hb with ⟨_, hx⟩ | ⟨_, hx⟩
    · cases hx
    · exact hx
  disturb s roles h d s' hK hh hd :=
    hh.sub (fun _ _ hb => hb) (hr.countP_other nofun) (hr.disturb d s s' hd)

end Right

end Interleave
