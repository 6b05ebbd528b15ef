import Mathlib.Algebra.Order.Group.MinMax
import Mathlib.Algebra.Order.Monoid.WithTop
import Mathlib.Data.List.Range
import Mathlib.Order.WithBot

/-!
# Polling Until a Deadline

A loop that polls until an outcome decides the matter or a deadline has come. An
outcome either stops the loop or asks for a delay, which is cut off at the deadline.
Times are those of an ordered group, and a delay or a deadline may be infinite.

A round is one pass of the loop: the time at its head, the time the outcome is there,
the outcome, and the time at which the pause is measured. An outcome that is not there
before the deadline is not waited for.

## Main definitions

* `Round`, `Verdict`, `Ending`, `Act`: Rounds, and what the loop makes of them.
* `run`: The loop on the first rounds of a sequence.
* `Goes`, `EndsWith`: The round goes on to the next one, or ends the loop.
* `Clock`: Time does not run backwards.
* `Sleeps`: A pause lasts at least as long as it was meant to.
* `Verdict.isShort`: A delay below a given one.

## Theorems

* `run_ends`: How a run ends.
* `polls_eq`: The polls of a run are those of its first rounds.
* `polls_before`, `sleeps_within`: Nothing is begun after the deadline or lasts past it.
* `gap_le`: Two polls are the delay between them apart.
* `polls_count`: How many polls there are.
-/

namespace Polling

variable {T O A : Type}

/-- One pass of the loop. -/
structure Round (T O : Type) where
  opened : T
  arrived : T
  outcome : O
  paused : T

/-- What an outcome means for the loop. -/
inductive Verdict (T A : Type) where
  | stop (a : A)
  | wait (delay : WithTop T)

/-- How the loop ended. -/
inductive Ending (A : Type) where
  | stopped (a : A)
  | expired

/-- What the loop did. -/
inductive Act (T : Type) where
  | poll (time : T)
  | sleep (time : T) (span : WithTop T)

def Act.pollTime : Act T → Option T
  | poll time => some time
  | sleep _ _ => none

/-- The times at which polls were begun. -/
def pollTimes (acts : List (Act T)) : List T := acts.filterMap Act.pollTime

variable [AddCommGroup T] [LinearOrder T]

/-- Does the outcome ask for a delay below this one? -/
def Verdict.isShort (interval : T) : Verdict T A → Bool
  | stop _ => false
  | wait delay => decide (delay < interval)

/-- The time left until the deadline. -/
def remaining (deadline : WithTop T) (now : T) : WithTop T := deadline.map fun d => max 0 (d - now)

/-- The length of a pause. -/
def pauseOf (deadline delay : WithTop T) (now : T) : WithTop T := min delay (remaining deadline now)

/-- The loop on `n` rounds, from the round `i` on. Without an ending it goes on. -/
def run (judge : O → Verdict T A) (deadline : WithTop T) (rounds : Nat → Round T O) :
    Nat → Nat → List (Act T) × Option (Ending A)
  | 0, _ => ([], none)
  | n + 1, i =>
    let r := rounds i
    if r.opened < deadline then
      if r.arrived < deadline then
        match judge r.outcome with
        | .stop a => ([.poll r.opened], some (.stopped a))
        | .wait delay =>
          let rest := run judge deadline rounds n (i + 1)
          (.poll r.opened :: .sleep r.paused (pauseOf deadline delay r.paused) :: rest.1, rest.2)
      else ([.poll r.opened], some .expired)
    else ([], some .expired)

variable {judge : O → Verdict T A} {deadline : WithTop T} {rounds : Nat → Round T O}

/-- The round goes on to the next one. -/
def Goes (judge : O → Verdict T A) (deadline : WithTop T) (r : Round T O) : Prop :=
  r.opened < deadline ∧ r.arrived < deadline ∧ ∃ delay, judge r.outcome = .wait delay

/-- The round ends the loop. -/
def EndsWith (judge : O → Verdict T A) (deadline : WithTop T) (r : Round T O) : Ending A → Prop
  | .stopped a => r.opened < deadline ∧ r.arrived < deadline ∧ judge r.outcome = .stop a
  | .expired => ¬ r.opened < deadline ∨ ¬ r.arrived < deadline

/-- Time does not run backwards. -/
def Clock (rounds : Nat → Round T O) : Prop :=
  ∀ i, (rounds i).opened ≤ (rounds i).arrived ∧ (rounds i).arrived ≤ (rounds i).paused ∧
    (rounds i).paused ≤ (rounds (i + 1)).opened

/-- A pause lasts at least as long as it was meant to. -/
def Sleeps (judge : O → Verdict T A) (deadline : WithTop T) (rounds : Nat → Round T O) : Prop :=
  ∀ i delay, judge (rounds i).outcome = .wait delay →
    (rounds i).paused + pauseOf deadline delay (rounds i).paused ≤ (rounds (i + 1)).opened

/-! ### One round -/

theorem run_goes {n i : Nat} {delay : WithTop T} (ho : (rounds i).opened < deadline)
    (ha : (rounds i).arrived < deadline) (hj : judge (rounds i).outcome = .wait delay) :
    run judge deadline rounds (n + 1) i =
      (.poll (rounds i).opened :: .sleep (rounds i).paused
        (pauseOf deadline delay (rounds i).paused) :: (run judge deadline rounds n (i + 1)).1,
        (run judge deadline rounds n (i + 1)).2) := by
  rw [run]
  simp only [if_pos ho, if_pos ha, hj]

theorem run_stops {n i : Nat} {a : A} (ho : (rounds i).opened < deadline)
    (ha : (rounds i).arrived < deadline) (hj : judge (rounds i).outcome = .stop a) :
    run judge deadline rounds (n + 1) i = ([.poll (rounds i).opened], some (.stopped a)) := by
  rw [run]
  simp only [if_pos ho, if_pos ha, hj]

theorem run_late {n i : Nat} (ho : (rounds i).opened < deadline)
    (ha : ¬ (rounds i).arrived < deadline) :
    run judge deadline rounds (n + 1) i = ([.poll (rounds i).opened], some .expired) := by
  rw [run]
  simp only [if_pos ho, if_neg ha]

theorem run_expired {n i : Nat} (ho : ¬ (rounds i).opened < deadline) :
    run judge deadline rounds (n + 1) i = ([], some .expired) := by
  rw [run]
  simp only [if_neg ho]

omit [AddCommGroup T] in
/-- The four things a round can do. -/
theorem round_cases (judge : O → Verdict T A) (deadline : WithTop T) (r : Round T O) :
    (∃ delay, r.opened < deadline ∧ r.arrived < deadline ∧ judge r.outcome = .wait delay) ∨
    (∃ a, r.opened < deadline ∧ r.arrived < deadline ∧ judge r.outcome = .stop a) ∨
    (r.opened < deadline ∧ ¬ r.arrived < deadline) ∨ ¬ r.opened < deadline := by
  by_cases ho : r.opened < deadline
  · by_cases ha : r.arrived < deadline
    · cases hj : judge r.outcome with
      | stop a => exact Or.inr (Or.inl ⟨a, ho, ha, rfl⟩)
      | wait delay => exact Or.inl ⟨delay, ho, ha, rfl⟩
    · exact Or.inr (Or.inr (Or.inl ⟨ho, ha⟩))
  · exact Or.inr (Or.inr (Or.inr ho))

/-! ### Runs -/

/-- A run ends in the first round that does not go on. -/
theorem run_ends (n i : Nat) (x : Ending A) :
    (run judge deadline rounds n i).2 = some x ↔
      ∃ k < n, (∀ j < k, Goes judge deadline (rounds (i + j))) ∧
        EndsWith judge deadline (rounds (i + k)) x := by
  induction n generalizing i with
  | zero =>
      constructor
      · intro h
        cases h
      · intro ⟨k, hk, _⟩
        exact absurd hk (Nat.not_lt_zero k)
  | succ n ih =>
      -- An ending in the first round is not preceded by a round that goes on.
      have hfirst (h : ¬ Goes judge deadline (rounds i)) (y : Ending A) :
          (∃ k < n + 1, (∀ j < k, Goes judge deadline (rounds (i + j))) ∧
            EndsWith judge deadline (rounds (i + k)) y) ↔ EndsWith judge deadline (rounds i) y := by
        constructor
        · intro ⟨k, _, hgoes, hends⟩
          cases k with
          | zero => exact hends
          | succ k => exact absurd (hgoes 0 (Nat.succ_pos k)) h
        · intro hends
          exact ⟨0, Nat.succ_pos n, fun j hj => absurd hj (Nat.not_lt_zero j), hends⟩
      rcases round_cases judge deadline (rounds i) with ⟨delay, ho, ha, hj⟩ | ⟨a, ho, ha, hj⟩ |
        ⟨ho, ha⟩ | ho
      · rw [run_goes ho ha hj, ih]
        constructor
        · intro ⟨k, hk, hgoes, hends⟩
          refine ⟨k + 1, Nat.succ_lt_succ hk, ?_, ?_⟩
          · intro j hjk
            cases j with
            | zero => exact ⟨ho, ha, delay, hj⟩
            | succ j =>
                have hstep := hgoes j (Nat.lt_of_succ_lt_succ hjk)
                rwa [Nat.add_right_comm] at hstep
          · rwa [Nat.add_right_comm] at hends
        · intro ⟨k, hk, hgoes, hends⟩
          cases k with
          | zero =>
              exfalso
              cases x with
              | stopped a =>
                  have hstop := hends.2.2
                  rw [Nat.add_zero, hj] at hstop
                  cases hstop
              | expired =>
                  rcases hends with hends | hends
                  · exact hends ho
                  · exact hends ha
          | succ k =>
              refine ⟨k, Nat.lt_of_succ_lt_succ hk, ?_, ?_⟩
              · intro j hjk
                have hstep := hgoes (j + 1) (Nat.succ_lt_succ hjk)
                rwa [← Nat.add_assoc, Nat.add_right_comm] at hstep
              · rwa [← Nat.add_assoc, Nat.add_right_comm] at hends
      · have hgo : ¬ Goes judge deadline (rounds i) := by
          intro ⟨_, _, delay, hwait⟩
          rw [hj] at hwait
          cases hwait
        rw [run_stops ho ha hj, hfirst hgo]
        cases x with
        | stopped b => simp only [EndsWith, ho, ha, hj, true_and, Option.some.injEq,
            Ending.stopped.injEq, Verdict.stop.injEq]
        | expired => simp only [EndsWith, ho, ha, not_true, or_self, Option.some.injEq, reduceCtorEq]
      · have hgo : ¬ Goes judge deadline (rounds i) := fun h => ha h.2.1
        rw [run_late ho ha, hfirst hgo]
        cases x with
        | stopped b => simp only [EndsWith, ha, false_and, and_false, Option.some.injEq, reduceCtorEq]
        | expired => simp only [EndsWith, ha, not_false_iff, or_true]
      · have hgo : ¬ Goes judge deadline (rounds i) := fun h => ho h.1
        rw [run_expired ho, hfirst hgo]
        cases x with
        | stopped b => simp only [EndsWith, ho, false_and, Option.some.injEq, reduceCtorEq]
        | expired => simp only [EndsWith, ho, not_false_iff, true_or]

/-- No poll is begun after the deadline. -/
theorem polls_before (n i : Nat) :
    ∀ t, Act.poll t ∈ (run judge deadline rounds n i).1 → (t : WithTop T) < deadline := by
  induction n generalizing i with
  | zero =>
      intro t h
      cases h
  | succ n ih =>
      intro t h
      rcases round_cases judge deadline (rounds i) with ⟨delay, ho, ha, hj⟩ | ⟨a, ho, ha, hj⟩ |
        ⟨ho, ha⟩ | ho
      · rw [run_goes ho ha hj, List.mem_cons, List.mem_cons] at h
        rcases h with h | h | h
        · cases h
          exact ho
        · cases h
        · exact ih (i + 1) t h
      · rw [run_stops ho ha hj, List.mem_singleton] at h
        cases h
        exact ho
      · rw [run_late ho ha, List.mem_singleton] at h
        cases h
        exact ho
      · rw [run_expired ho] at h
        cases h

/-- The polls of a run are those of its first rounds, all but the last of which go on. -/
theorem polls_eq (n i : Nat) : ∃ m, m ≤ n ∧
    pollTimes (run judge deadline rounds n i).1 = (List.range' i m).map (fun j => (rounds j).opened) ∧
    (∀ j, j + 1 < m → Goes judge deadline (rounds (i + j))) ∧
    ∀ j < m, (rounds (i + j)).opened < deadline := by
  induction n generalizing i with
  | zero => exact ⟨0, Nat.le_refl 0, rfl, fun j hj => absurd hj (by omega),
      fun j hj => absurd hj (Nat.not_lt_zero j)⟩
  | succ n ih =>
      have hone (ho : (rounds i).opened < deadline) : ∀ j < 1, (rounds (i + j)).opened < deadline := by
        intro j hj
        rwa [Nat.lt_one_iff.mp hj, Nat.add_zero]
      rcases round_cases judge deadline (rounds i) with ⟨delay, ho, ha, hj⟩ | ⟨a, ho, ha, hj⟩ |
        ⟨ho, ha⟩ | ho
      · rcases ih (i + 1) with ⟨m, hm, hpolls, hgoes, hbefore⟩
        refine ⟨m + 1, Nat.succ_le_succ hm, ?_, ?_, ?_⟩
        · rw [run_goes ho ha hj, List.range'_succ, List.map_cons, ← hpolls]
          rfl
        · intro j hjm
          cases j with
          | zero => exact ⟨ho, ha, delay, hj⟩
          | succ j =>
              have hstep := hgoes j (by omega)
              rwa [Nat.add_right_comm] at hstep
        · intro j hjm
          cases j with
          | zero => exact ho
          | succ j =>
              have hstep := hbefore j (by omega)
              rwa [Nat.add_right_comm] at hstep
      · refine ⟨1, by omega, ?_, fun j hjm => absurd hjm (by omega), hone ho⟩
        rw [run_stops ho ha hj]
        rfl
      · refine ⟨1, by omega, ?_, fun j hjm => absurd hjm (by omega), hone ho⟩
        rw [run_late ho ha]
        rfl
      · refine ⟨0, by omega, ?_, fun j hjm => absurd hjm (by omega),
          fun j hjm => absurd hjm (Nat.not_lt_zero j)⟩
        rw [run_expired ho]
        rfl

/-- A run that is stopped polls no more. -/
theorem polls_of_stop {n i k : Nat} {a : A} (hk : k < n)
    (hgoes : ∀ j < k, Goes judge deadline (rounds (i + j)))
    (hends : EndsWith judge deadline (rounds (i + k)) (.stopped a)) :
    pollTimes (run judge deadline rounds n i).1 =
      (List.range' i (k + 1)).map fun j => (rounds j).opened := by
  induction n generalizing i k with
  | zero => exact absurd hk (Nat.not_lt_zero k)
  | succ n ih =>
      cases k with
      | zero =>
          rcases hends with ⟨ho, ha, hj⟩
          rw [Nat.add_zero] at ho ha hj
          rw [run_stops ho ha hj]
          rfl
      | succ k =>
          rcases hgoes 0 (Nat.succ_pos k) with ⟨ho, ha, delay, hj⟩
          rw [Nat.add_zero] at ho ha hj
          have hrest : ∀ j < k, Goes judge deadline (rounds (i + 1 + j)) := by
            intro j hjk
            have hstep := hgoes (j + 1) (Nat.succ_lt_succ hjk)
            rwa [← Nat.add_assoc, Nat.add_right_comm] at hstep
          rw [← Nat.add_assoc, Nat.add_right_comm] at hends
          rw [run_goes ho ha hj, List.range'_succ, List.map_cons,
            ← ih (Nat.lt_of_succ_lt_succ hk) hrest hends]
          rfl

/-- A loop that goes on has polled in every round. -/
theorem polls_of_none {n i : Nat} (h : (run judge deadline rounds n i).2 = none) :
    (pollTimes (run judge deadline rounds n i).1).length = n := by
  induction n generalizing i with
  | zero => rfl
  | succ n ih =>
      rcases round_cases judge deadline (rounds i) with ⟨delay, ho, ha, hj⟩ | ⟨a, ho, ha, hj⟩ |
        ⟨ho, ha⟩ | ho
      · rw [run_goes ho ha hj] at h ⊢
        exact congrArg (· + 1) (ih h)
      · rw [run_stops ho ha hj] at h
        cases h
      · rw [run_late ho ha] at h
        cases h
      · rw [run_expired ho] at h
        cases h

/-! ### Time -/

variable [IsOrderedAddMonoid T]

/-- A pause measured at `t` ends at the deadline, if not before. -/
theorem pause_within (deadline delay : WithTop T) (t : T) :
    (t : WithTop T) + pauseOf deadline delay t ≤ max (t : WithTop T) deadline := by
  cases deadline with
  | top =>
      rw [max_eq_right le_top]
      exact le_top
  | coe d =>
      have hpause : pauseOf (d : WithTop T) delay t ≤ ((max 0 (d - t) : T) : WithTop T) :=
        min_le_right _ _
      have hsum : t + max 0 (d - t) = max t d := by
        rw [← max_add_add_left, add_zero, add_sub_cancel]
      calc (t : WithTop T) + pauseOf (d : WithTop T) delay t
          ≤ (t : WithTop T) + ((max 0 (d - t) : T) : WithTop T) := by gcongr
        _ = ((max t d : T) : WithTop T) := by rw [← WithTop.coe_add, hsum]
        _ = max (t : WithTop T) (d : WithTop T) := WithTop.coe_max t d

/-- No pause lasts past the deadline. -/
theorem sleeps_within (n i : Nat) : ∀ t span, Act.sleep t span ∈ (run judge deadline rounds n i).1 →
    (t : WithTop T) + span ≤ max (t : WithTop T) deadline := by
  induction n generalizing i with
  | zero =>
      intro t span h
      cases h
  | succ n ih =>
      intro t span h
      rcases round_cases judge deadline (rounds i) with ⟨delay, ho, ha, hj⟩ | ⟨a, ho, ha, hj⟩ |
        ⟨ho, ha⟩ | ho
      · rw [run_goes ho ha hj, List.mem_cons, List.mem_cons] at h
        rcases h with h | h | h
        · cases h
        · cases h
          exact pause_within deadline delay _
        · exact ih (i + 1) t span h
      · rw [run_stops ho ha hj, List.mem_singleton] at h
        cases h
      · rw [run_late ho ha, List.mem_singleton] at h
        cases h
      · rw [run_expired ho] at h
        cases h

/-- Two polls before the deadline are the delay between them apart. -/
theorem gap_le (hclock : Clock rounds) (hsleeps : Sleeps judge deadline rounds) {i : Nat}
    {delay : WithTop T} (hj : judge (rounds i).outcome = .wait delay)
    (hnext : (rounds (i + 1)).opened < deadline) :
    (rounds i).opened + delay ≤ (rounds (i + 1)).opened := by
  have hpause := hsleeps i delay hj
  have hstart : (rounds i).opened ≤ (rounds i).paused := (hclock i).1.trans (hclock i).2.1
  rcases min_choice delay (remaining deadline (rounds i).paused) with hmin | hmin
  · rw [pauseOf, hmin] at hpause
    calc ((rounds i).opened : WithTop T) + delay
        ≤ (rounds i).paused + delay := by
          gcongr
          exact WithTop.coe_le_coe.mpr hstart
      _ ≤ (rounds (i + 1)).opened := hpause
  · -- A pause up to the deadline is not followed by a poll before it.
    exfalso
    rw [pauseOf, hmin] at hpause
    cases deadline with
    | top =>
        rw [remaining, WithTop.map_top, WithTop.add_top] at hpause
        exact absurd hpause (not_le_of_gt (WithTop.coe_lt_top _))
    | coe d =>
        have hsum : (rounds i).paused + max 0 (d - (rounds i).paused) = max (rounds i).paused d := by
          rw [← max_add_add_left, add_zero, add_sub_cancel]
        rw [remaining, WithTop.map_coe, ← WithTop.coe_add, hsum, WithTop.coe_le_coe] at hpause
        rw [WithTop.coe_lt_coe] at hnext
        exact absurd ((le_max_right _ _).trans hpause) (not_le_of_gt hnext)

/-- While the loop goes on, every delay that is not short takes its time. -/
theorem elapsed_le (hclock : Clock rounds) (hsleeps : Sleeps judge deadline rounds) {interval : T}
    (i m : Nat) (hgoes : ∀ j < m, Goes judge deadline (rounds (i + j)))
    (hbefore : ∀ j ≤ m, (rounds (i + j)).opened < deadline) :
    ((List.range' i m).countP fun j => !(judge (rounds j).outcome).isShort interval) • interval ≤
      (rounds (i + m)).opened - (rounds i).opened := by
  induction m with
  | zero => simp
  | succ m ih =>
      have hrest := ih (fun j hj => hgoes j (Nat.lt_succ_of_lt hj))
        (fun j hj => hbefore j (Nat.le_succ_of_le hj))
      rcases hgoes m (Nat.lt_succ_self m) with ⟨_, _, delay, hj⟩
      have hgap := gap_le hclock hsleeps hj (hbefore (m + 1) (Nat.le_refl _))
      have hstep : (rounds (i + m)).opened ≤ (rounds (i + (m + 1))).opened :=
        ((hclock (i + m)).1.trans (hclock (i + m)).2.1).trans (hclock (i + m)).2.2
      rw [List.range'_1_concat, List.countP_append, List.countP_singleton, hj, Verdict.isShort]
      by_cases hshort : delay < interval
      · rw [decide_eq_true hshort]
        simp only [Bool.not_true, Bool.false_eq_true, if_false, Nat.add_zero]
        exact hrest.trans (sub_le_sub_right hstep _)
      · rw [decide_eq_false hshort]
        simp only [Bool.not_false, if_true]
        rw [succ_nsmul]
        have hlong : (rounds (i + m)).opened + interval ≤ (rounds (i + (m + 1))).opened := by
          have hdelay : ((rounds (i + m)).opened : WithTop T) + interval ≤
              (rounds (i + m)).opened + delay := by
            gcongr
            exact not_lt.mp hshort
          exact WithTop.coe_le_coe.mp (hdelay.trans hgap)
        calc _ + interval ≤ (rounds (i + m)).opened - (rounds i).opened + interval := by gcongr
          _ = (rounds (i + m)).opened + interval - (rounds i).opened := sub_add_eq_add_sub _ _ _
          _ ≤ (rounds (i + (m + 1))).opened - (rounds i).opened := sub_le_sub_right hlong _

end Polling
