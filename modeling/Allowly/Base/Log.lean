import Allowly.Base.Interleave

/-!
# Logs

The automaton whose state is everything a program has done, with the answers. A program
follows it when each of its operations satisfies a property of the log so far, so that
statements about what a program does after what are statements about this automaton.

The answers are never restricted. What is known of them is asked of the log afterwards.

## Main definitions

* `Log`: What was done, and how it was answered.
* `Grows`: One more operation.
* `Logs`: Every operation of a program satisfies the property.

## Theorems

* `follows_log`: A program whose operations can come at any later time.
* `logs_traces`: What holds of every operation holds of those of a run.
-/

namespace Prog

variable {O : Type} {R : O → Type} {Y X A B : Type}

/-- What was done, and how it was answered, oldest first. -/
abbrev Log (O : Type) (R : O → Type) (Y : Type) := List ((o : O) × Except Y (R o))

variable {P : Log O R Y → O → Prop}

/-- One more operation, which satisfies `P` after the log. -/
def Grows (P : Log O R Y → O → Prop) (q : Log O R Y) (o : O) (r : Except Y (R o))
    (q' : Log O R Y) : Prop :=
  P q o ∧ q' = q ++ [⟨o, r⟩]

/-- Every operation of the program satisfies `P` after what came before it. -/
def Logs (P : Log O R Y → O → Prop) (p : Prog O R Y X A) : Prop :=
  Follows (Grows P) p [] fun _ _ => True

/-- What follows a program may depend on its result. -/
theorem uses_bind_returns {allowed : O → Prop} {p : Prog O R Y X A} {f : A → Prog O R Y X B}
    {M : A → Prop} (h : Uses allowed p) (hp : Returns (fun r => ∀ a, r = .ok a → M a) p)
    (hf : ∀ a, M a → Uses allowed (f a)) : Uses allowed (p >>= f) := by
  induction p with
  | ret a => exact hf a (hp a rfl)
  | raise x => exact trivial
  | op o k ih => exact ⟨h.1, fun r => ih r (h.2 r) (hp r)⟩

/-- The operations satisfy `P` whenever they come. The log grows by a run. -/
theorem follows_log {p : Prog O R Y X A} {q : Log O R Y}
    (h : Uses (fun o => ∀ t, P (q ++ t) o) p) :
    Follows (Grows P) p q fun q' r => ∃ t, q' = q ++ t ∧ Traces p t r := by
  induction p generalizing q with
  | ret a => exact ⟨[], (List.append_nil q).symm, rfl, rfl⟩
  | raise x => exact ⟨[], (List.append_nil q).symm, rfl, rfl⟩
  | op o k ih =>
      intro r
      have hP : P q o := by
        have h := h.1 []
        rw [List.append_nil] at h
        exact h
      refine ⟨q ++ [⟨o, r⟩], ⟨hP, rfl⟩, ?_⟩
      have hk : Uses (fun o' => ∀ t, P (q ++ [⟨o, r⟩] ++ t) o') (k r) := by
        refine uses_mono (h.2 r) ?_
        intro o' ho' t
        rw [List.append_assoc]
        exact ho' _
      refine follows_mono (ih r hk) ?_
      intro q' s hs
      rcases hs with ⟨t, hq', ht⟩
      refine ⟨⟨o, r⟩ :: t, ?_, r, t, rfl, ht⟩
      rw [hq', List.append_assoc]
      rfl

/-- The same in front of another program, which starts with the run in the log. -/
theorem follows_log_bind {p : Prog O R Y X A} {f : A → Prog O R Y X B} {q : Log O R Y}
    {post : Log O R Y → Except X B → Prop} (h : Uses (fun o => ∀ t, P (q ++ t) o) p)
    (hok : ∀ t a, Traces p t (.ok a) → Follows (Grows P) (f a) (q ++ t) post)
    (herr : ∀ t x, Traces p t (.error x) → post (q ++ t) (.error x)) :
    Follows (Grows P) (p >>= f) q post := by
  refine follows_bind (follows_log h) ?_ ?_
  · intro q' a ha
    rcases ha with ⟨t, rfl, ht⟩
    exact hok t a ht
  · intro q' x hx
    rcases hx with ⟨t, rfl, ht⟩
    exact herr t x ht

/-- A log only grows. -/
theorem follows_longer {p : Prog O R Y X A} {q : Log O R Y} {post : Log O R Y → Except X A → Prop}
    (h : Follows (Grows P) p q post) : Follows (Grows P) p q fun q' _ => ∃ t, q' = q ++ t := by
  induction p generalizing q with
  | ret a => exact ⟨[], (List.append_nil q).symm⟩
  | raise x => exact ⟨[], (List.append_nil q).symm⟩
  | op o k ih =>
      intro r
      rcases h r with ⟨q', ⟨hP, rfl⟩, hk⟩
      refine ⟨_, ⟨hP, rfl⟩, follows_mono (ih r hk) ?_⟩
      intro q'' s hq''
      rcases hq'' with ⟨t, rfl⟩
      exact ⟨⟨o, r⟩ :: t, List.append_assoc q _ t⟩

/-- What holds of every operation holds of those of a run. -/
theorem follows_traces {p : Prog O R Y X A} {q t : Log O R Y} {r : Except X A}
    {post : Log O R Y → Except X A → Prop} (h : Follows (Grows P) p q post) (ht : Traces p t r) :
    post (q ++ t) r ∧ ∀ before e after, t = before ++ e :: after → P (q ++ before) e.1 := by
  induction p generalizing q t with
  | ret a =>
      rcases ht with ⟨rfl, rfl⟩
      rw [List.append_nil]
      exact ⟨h, fun before e after hsplit => absurd hsplit.symm (by simp)⟩
  | raise x =>
      rcases ht with ⟨rfl, rfl⟩
      rw [List.append_nil]
      exact ⟨h, fun before e after hsplit => absurd hsplit.symm (by simp)⟩
  | op o k ih =>
      rcases ht with ⟨b, rest, rfl, hrest⟩
      rcases h b with ⟨q', ⟨hP, rfl⟩, hk⟩
      rcases ih b hk hrest with ⟨hpost, hall⟩
      refine ⟨?_, ?_⟩
      · rw [List.append_assoc] at hpost
        exact hpost
      · intro before e after hsplit
        cases before with
        | nil =>
            rw [List.nil_append, List.cons.injEq] at hsplit
            rw [← hsplit.1, List.append_nil]
            exact hP
        | cons d before =>
            rw [List.cons_append, List.cons.injEq] at hsplit
            have h := hall before e after hsplit.2
            rw [← hsplit.1]
            rw [List.append_assoc] at h
            exact h

theorem logs_traces {p : Prog O R Y X A} {t : Log O R Y} {r : Except X A} (h : Logs P p)
    (ht : Traces p t r) : ∀ before e after, t = before ++ e :: after → P before e.1 :=
  (follows_traces h ht).2

end Prog

namespace Interleave

open Prog

variable {O : Type} {R : O → Type} {Y X A C S D : Type}

/-- What a program did since it started. -/
def own (a : Nat) : List (Event O R Y X A C D) → Log O R Y
  | [] => []
  | .began b _ _ :: h => if b = a then [] else own a h
  | .did b _ o r :: h => if b = a then own a h ++ [⟨o, r⟩] else own a h
  | .ended .. :: h => own a h
  | .crashed _ :: h => own a h
  | .disturbed _ :: h => own a h

theorem mem_own {a : Nat} {e : (o : O) × Except Y (R o)} {h : List (Event O R Y X A C D)}
    (he : e ∈ own a h) : ∃ root, .did a root e.1 e.2 ∈ h := by
  have hcons : ∀ {d : Event O R Y X A C D} {h : List (Event O R Y X A C D)},
      (∃ root, .did a root e.1 e.2 ∈ h) → ∃ root, .did a root e.1 e.2 ∈ d :: h := by
    intro d h hmem
    rcases hmem with ⟨root, hmem⟩
    exact ⟨root, List.mem_cons_of_mem d hmem⟩
  induction h with
  | nil => cases he
  | cons d h ih =>
      cases d with
      | began b root c =>
          rw [own] at he
          split at he
          · cases he
          · exact hcons (ih he)
      | did b root o r =>
          rw [own] at he
          split at he
          · next hb =>
              rcases List.mem_append.mp he with he | he
              · exact hcons (ih he)
              · rw [List.mem_singleton] at he
                rw [he, hb]
                exact ⟨root, List.mem_cons_self⟩
          · exact hcons (ih he)
      | ended b root r => exact hcons (ih he)
      | crashed b => exact hcons (ih he)
      | disturbed d => exact hcons (ih he)

/-- What holds of a history holds of its past. -/
theorem always_past {Ev : Type} {Q : Ev → List Ev → Prop} {h past : List Ev} (ha : Always Q h)
    (hs : past <:+ h) : Always Q past :=
  always_of_suffix fun _ _ he => always_suffix ha (he.trans hs)

variable {P : Log O R Y → O → Prop}

/-- The operation of an event satisfies `P` after what its program did before. -/
def AfterOwn (P : Log O R Y → O → Prop) (e : Event O R Y X A C D)
    (past : List (Event O R Y X A C D)) : Prop :=
  ∀ a root o r, e = .did a root o r → P (own a past) o

/-- The log of a program is what it did. -/
theorem preserves_own (sys : System O R Y X A C S D) (post : Log O R Y → Except X A → Prop) :
    Preserves sys (Grows P) post (fun _ => []) (fun _ _ _ => True) (fun _ roles h =>
      (∀ a root q, roles a = some (root, q) → q = own a h) ∧ Always (AfterOwn P) h) where
  start s roles n h c _ hG hn hc := by
    refine ⟨?_, nofun, hG.2⟩
    intro a root q ha
    by_cases han : a = n
    · rw [han, Function.update_self] at ha
      cases ha
      rw [own, if_pos han.symm]
    · rw [Function.update_of_ne han] at ha
      rw [own, if_neg (Ne.symm han)]
      exact hG.1 a root q ha
  act s roles n h a root q o r s' q' _ hG ha hn he hp hs := by
    have hq := hG.1 a root q ha
    refine ⟨?_, ?_, hG.2⟩
    · intro b root' q'' hb
      by_cases hba : b = a
      · rw [hba, Function.update_self] at hb
        cases hb
        rw [hba, own, if_pos rfl, ← hq]
        exact he.2
      · rw [Function.update_of_ne hba] at hb
        rw [own, if_neg (Ne.symm hba)]
        exact hG.1 b root' q'' hb
    · intro b root' o' r' heq
      cases heq
      rw [← hq]
      exact he.1
  spawn s roles n h a root q o r s' q' c _ hG ha hn he hp hs := by
    have hq := hG.1 a root q ha
    have hne : a ≠ n := by
      intro han
      rw [han, hn] at ha
      cases ha
    refine ⟨?_, nofun, ?_, hG.2⟩
    · intro b root' q'' hb
      by_cases hbn : b = n
      · rw [hbn, Function.update_self] at hb
        cases hb
        rw [own, if_pos hbn.symm]
      · rw [Function.update_of_ne hbn] at hb
        rw [own, if_neg (Ne.symm hbn)]
        by_cases hba : b = a
        · rw [hba, Function.update_self] at hb
          cases hb
          rw [hba, own, if_pos rfl, ← hq]
          exact he.2
        · rw [Function.update_of_ne hba] at hb
          rw [own, if_neg (Ne.symm hba)]
          exact hG.1 b root' q'' hb
    · intro b root' o' r' heq
      cases heq
      rw [← hq]
      exact he.1
  finish s roles h a root q r _ hG ha hr := by
    refine ⟨?_, nofun, hG.2⟩
    intro b root' q' hb
    by_cases hba : b = a
    · rw [hba, Function.update_self] at hb
      cases hb
    · rw [Function.update_of_ne hba] at hb
      exact hG.1 b root' q' hb
  crash s roles h a root q _ hG ha := by
    refine ⟨?_, nofun, hG.2⟩
    intro b root' q' hb
    by_cases hba : b = a
    · rw [hba, Function.update_self] at hb
      cases hb
    · rw [Function.update_of_ne hba] at hb
      exact hG.1 b root' q' hb
  disturb s roles h d s' _ hG hd := ⟨hG.1, nofun, hG.2⟩

/-- What every operation of the programs satisfies, every event of a run satisfies. -/
theorem logs_reachable {sys : System O R Y X A C S D} {s : S} {w : World O R Y X A C S D}
    (hcode : ∀ c, sys.Starts c → Logs P (sys.code c)) (h : sys.Reachable s w) :
    Always (AfterOwn P) w.history := by
  rcases invariant hcode (preserves_own sys fun _ _ => True) ⟨nofun, trivial⟩ h with
    ⟨roles, _, _, hall⟩
  exact hall

end Interleave
