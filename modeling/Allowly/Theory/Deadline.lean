import Allowly.Core.Receipts
import Allowly.Theory.Scenario
import Mathlib.Algebra.Order.Floor.Semiring
import Mathlib.Data.Rat.Floor

/-!
# Polling for a Signed Receipt

The polling loop ends with the first outcome that is neither a pending receipt nor a
passing failure, if that outcome is there before the deadline, and it returns or
raises what that outcome says. It does not give up earlier. It gives up when its
clock reaches the deadline, and not before.

A server that sends `Retry-After` replaces the interval of the caller, also by a
shorter one. Leaving out the polls that were answered so, there are no more polls
than intervals fit into the timeout.

## Main definitions

* `Undecided`: Outcomes after which the loop goes on.
* `Decides`: The first outcome of another kind.
* `verdictOf`: What such an outcome means.
* `ShortAnswer`: A `Retry-After` below the interval.

## Theorems

* `fetch_correct`: What is returned, what is raised, and when.
* `poll_bound`: How far apart the polls are, and how many there are.
-/

namespace Allowly

open Py Polling

/-- A transport error, or an API error of a status that may pass. -/
def isTransient : Exc → Bool
  | .api status .. => isTransientStatus status
  | x => x.isTransport

/-- A pending receipt, or a failure that may pass. -/
def Undecided : Except Exc ReceiptEnvelope → Prop
  | .ok (.pending ..) => True
  | .ok (.signed _) => False
  | .error x => isTransient x = true

/-- The outcome of this round is the first that decides. -/
def Decides (rounds : Nat → PollRound) (k : Nat) : Prop :=
  (∀ j < k, Undecided (rounds j).outcome) ∧ ¬ Undecided (rounds k).outcome

/-- What a deciding outcome means: the receipt, if it is the one that was asked for, or
    an error. -/
def verdictOf (L : Libs) (receiptId : Str) : Except Exc ReceiptEnvelope → Except Exc Json
  | .ok (.signed receipt) => signedReceipt L receiptId receipt
  | .ok (.pending ..) => .error .timeout
  | .error x => .error x

/-- The claims of the receipt name this receipt. -/
def Names (L : Libs) (receipt : Json) (receiptId : Str) : Prop :=
  ∃ claims, L.decodeReceipt receipt = .ok claims ∧ claims.get "receipt_id" = .str receiptId

/-- The delay an undecided outcome asks for. -/
def delayAfter (pollInterval : WithTop ℚ) : Except Exc ReceiptEnvelope → WithTop ℚ
  | .error (.api _ _ _ _ (some seconds)) => retryDelay seconds
  | _ => pollInterval

theorem judge_undecided {L : Libs} {receiptId : Str} {interval : WithTop ℚ}
    {o : Except Exc ReceiptEnvelope} (h : Undecided o) :
    judgePoll L receiptId interval o = .wait (delayAfter interval o) := by
  cases o with
  | ok e =>
      cases e with
      | pending id ready url => rfl
      | signed receipt => exact absurd h id
  | error x =>
      cases x with
      | api status code message fields retryAfter =>
          have hstatus : isTransientStatus status = true := h
          rw [judgePoll, if_pos hstatus]
          cases retryAfter with
          | none => rfl
          | some seconds => rfl
      | httpTimeout => rfl
      | remoteProtocol => rfl
      | transport => rfl
      | _ => cases h

theorem judge_decided {L : Libs} {receiptId : Str} {interval : WithTop ℚ}
    {o : Except Exc ReceiptEnvelope} (h : ¬ Undecided o) :
    judgePoll L receiptId interval o = .stop (verdictOf L receiptId o) := by
  cases o with
  | ok e =>
      cases e with
      | pending id ready url => exact absurd trivial h
      | signed receipt => rfl
  | error x =>
      cases x with
      | api status code message fields retryAfter =>
          have hstatus : ¬ isTransientStatus status = true := h
          rw [judgePoll, if_neg hstatus]
          rfl
      | httpTimeout => exact absurd rfl h
      | remoteProtocol => exact absurd rfl h
      | transport => exact absurd rfl h
      | _ => rfl

/-- A member that is not null is there. -/
theorem has_of_get {j : Json} {k : String} {v : Json} (h : j.get k = v) (hv : v ≠ .null) :
    j.has k = true := by
  cases j with
  | obj ms =>
      rw [Json.get] at h
      rw [Json.has]
      cases hl : Json.lookup (lit k) ms with
      | none =>
          rw [hl] at h
          exact absurd h.symm hv
      | some w => rfl
  | _ => exact absurd h.symm hv

/-- The receipt is returned exactly if it names itself as asked for. -/
theorem signedReceipt_eq_ok {L : Libs} {receiptId : Str} {receipt r : Json} :
    signedReceipt L receiptId receipt = .ok r ↔ r = receipt ∧ Names L receipt receiptId := by
  unfold signedReceipt Names
  cases hdecode : L.decodeReceipt receipt with
  | error text => simp
  | ok claims =>
      simp only [Except.ok.injEq, exists_eq_left']
      by_cases hid : claims.get "receipt_id" = .str receiptId
      · have hhas : claims.has "receipt_id" = true := has_of_get hid (by simp)
        simp [hhas, hid, eq_comm]
      · by_cases hhas : claims.has "receipt_id" = true
        · simp [hhas, hid, protocolError]
        · rw [Bool.not_eq_true] at hhas
          simp [hhas, hid]

section

variable {L : Libs} {receiptId : Str} {interval timeout : WithTop ℚ} {start : ℚ}
  {rounds : Nat → PollRound}

theorem fetchSigned_eq (hi : 0 < interval) (ht : 0 < timeout) (n : Nat) :
    fetchSigned L receiptId interval timeout start rounds n =
      ((run (judgePoll L receiptId interval) (start + timeout) rounds n 0).1,
        (run (judgePoll L receiptId interval) (start + timeout) rounds n 0).2.map fetchEnding) := by
  rw [fetchSigned, if_neg (not_le_of_gt hi), if_neg (not_le_of_gt ht)]

/-- Time has passed when a later round begins. -/
theorem clock_mono (hclock : Clock rounds) {j k : Nat} (h : j < k) :
    (rounds j).arrived ≤ (rounds k).opened := by
  induction k with
  | zero => exact absurd h (Nat.not_lt_zero j)
  | succ k ih =>
      have hstep : (rounds k).arrived ≤ (rounds (k + 1)).opened :=
        (hclock k).2.1.trans (hclock k).2.2
      rcases Nat.lt_succ_iff_lt_or_eq.mp h with hlt | heq
      · exact ((ih hlt).trans (hclock k).1).trans hstep
      · rw [heq]
        exact hstep

/-- Rounds before the deadline whose outcome is undecided go on. -/
theorem goes_of_undecided {deadline : WithTop ℚ} (hclock : Clock rounds) {k : Nat}
    (hundecided : ∀ j < k, Undecided (rounds j).outcome) (hopened : (rounds k).opened < deadline) :
    ∀ j < k, Goes (judgePoll L receiptId interval) deadline (rounds (0 + j)) := by
  intro j hj
  rw [Nat.zero_add]
  have harrived : ((rounds j).arrived : WithTop ℚ) < deadline :=
    lt_of_le_of_lt (WithTop.coe_le_coe.mpr (clock_mono hclock hj)) hopened
  have hstart : ((rounds j).opened : WithTop ℚ) < deadline :=
    lt_of_le_of_lt (WithTop.coe_le_coe.mpr (hclock j).1) harrived
  exact ⟨hstart, harrived, _, judge_undecided (hundecided j hj)⟩

/-- A round that goes on had an undecided outcome. -/
theorem undecided_of_goes {deadline : WithTop ℚ} {r : PollRound}
    (h : Goes (judgePoll L receiptId interval) deadline r) : Undecided r.outcome := by
  rcases h with ⟨_, _, delay, hdelay⟩
  by_contra hdecided
  rw [judge_decided hdecided] at hdelay
  cases hdelay

/-- A deciding outcome that is there before the deadline stops the loop. -/
theorem run_decided {deadline : WithTop ℚ} (hclock : Clock rounds) {k : Nat}
    (hk : Decides rounds k) (harrived : (rounds k).arrived < deadline) {n : Nat} (hn : k < n) :
    pollTimes (run (judgePoll L receiptId interval) deadline rounds n 0).1 =
        (List.range (k + 1)).map (fun j => (rounds j).opened) ∧
      (run (judgePoll L receiptId interval) deadline rounds n 0).2 =
        some (.stopped (verdictOf L receiptId (rounds k).outcome)) := by
  have hopened : ((rounds k).opened : WithTop ℚ) < deadline :=
    lt_of_le_of_lt (WithTop.coe_le_coe.mpr (hclock k).1) harrived
  have hgoes := @goes_of_undecided L receiptId interval _ _ hclock _ hk.1 hopened
  have hends : EndsWith (judgePoll L receiptId interval) deadline (rounds (0 + k))
      (.stopped (verdictOf L receiptId (rounds k).outcome)) := by
    rw [Nat.zero_add]
    exact ⟨hopened, harrived, judge_decided hk.2⟩
  refine ⟨?_, (run_ends n 0 _).mpr ⟨k, hn, hgoes, hends⟩⟩
  rw [polls_of_stop hn hgoes hends, List.range_eq_range']

/-- A loop that was stopped was stopped by a deciding outcome before the deadline. -/
theorem decided_of_run {deadline : WithTop ℚ} {n : Nat} {r : Except Exc Json}
    (h : (run (judgePoll L receiptId interval) deadline rounds n 0).2 = some (.stopped r)) :
    ∃ k < n, Decides rounds k ∧ (rounds k).arrived < deadline ∧
      r = verdictOf L receiptId (rounds k).outcome := by
  rcases (run_ends n 0 _).mp h with ⟨k, hk, hgoes, hends⟩
  rw [Nat.zero_add] at hends
  rcases hends with ⟨_, harrived, hstop⟩
  have hdecided : ¬ Undecided (rounds k).outcome := by
    intro hundecided
    rw [judge_undecided hundecided] at hstop
    cases hstop
  rw [judge_decided hdecided, Verdict.stop.injEq] at hstop
  refine ⟨k, hk, ⟨?_, hdecided⟩, harrived, hstop.symm⟩
  intro j hj
  have hgo := hgoes j hj
  rw [Nat.zero_add] at hgo
  exact undecided_of_goes hgo

/-- A loop that gave up did so because its clock had reached the deadline. -/
theorem expired_of_run {deadline : WithTop ℚ} (hclock : Clock rounds) {n : Nat}
    (h : (run (judgePoll L receiptId interval) deadline rounds n 0).2 = some .expired) :
    ∃ k < n, (∀ j < k, Undecided (rounds j).outcome) ∧ deadline ≤ (rounds k).arrived := by
  rcases (run_ends n 0 _).mp h with ⟨k, hk, hgoes, hends⟩
  rw [Nat.zero_add] at hends
  refine ⟨k, hk, ?_, ?_⟩
  · intro j hj
    have hgo := hgoes j hj
    rw [Nat.zero_add] at hgo
    exact undecided_of_goes hgo
  · rcases hends with hopened | harrived
    · exact (not_lt.mp hopened).trans (WithTop.coe_le_coe.mpr (hclock k).1)
    · exact not_lt.mp harrived

/-- When the clock reaches the deadline first, the loop gives up. -/
theorem run_gives_up {deadline : WithTop ℚ}
    (hlate : ∀ k, Decides rounds k → ¬ (rounds k).arrived < deadline) {i : Nat}
    (hi : deadline ≤ (rounds i).arrived) :
    ∃ n, (run (judgePoll L receiptId interval) deadline rounds n 0).2 = some .expired := by
  -- The first round that does not go on ends the loop, and it is no later than `i`.
  have hexists : ∃ k, ¬ Goes (judgePoll L receiptId interval) deadline (rounds k) :=
    ⟨i, fun h => absurd h.2.1 (not_lt_of_ge hi)⟩
  classical
  have hspec := Nat.find_spec hexists
  have hmin (j : Nat) (hj : j < Nat.find hexists) :
      Goes (judgePoll L receiptId interval) deadline (rounds j) :=
    not_not.mp (Nat.find_min hexists hj)
  refine ⟨Nat.find hexists + 1, (run_ends _ 0 _).mpr ⟨Nat.find hexists, Nat.lt_succ_self _, ?_, ?_⟩⟩
  · intro j hj
    rw [Nat.zero_add]
    exact hmin j hj
  · rw [Nat.zero_add]
    by_contra hnone
    rw [EndsWith, not_or, not_not, not_not] at hnone
    have hundecided : Undecided (rounds (Nat.find hexists)).outcome := by
      by_contra hdecided
      exact hlate _ ⟨fun j hj => undecided_of_goes (hmin j hj), hdecided⟩ hnone.2
    exact hspec ⟨hnone.1, hnone.2, _, judge_undecided hundecided⟩

theorem fetch_eq_some (hi : 0 < interval) (ht : 0 < timeout) {n : Nat} {r : Except Exc Json} :
    (fetchSigned L receiptId interval timeout start rounds n).2 = some r ↔
      (run (judgePoll L receiptId interval) (start + timeout) rounds n 0).2 = some (.stopped r) ∨
      (run (judgePoll L receiptId interval) (start + timeout) rounds n 0).2 = some .expired ∧
        r = .error .timeout := by
  rw [fetchSigned_eq hi ht]
  cases hrun : (run (judgePoll L receiptId interval) (start + timeout) rounds n 0).2 with
  | none => simp
  | some e =>
      cases e with
      | stopped result => simp [fetchEnding]
      | expired => simp [fetchEnding, eq_comm]

/-- Without a deciding outcome the loop goes on until the deadline. -/
theorem fetch_running (hi : 0 < interval) (ht : 0 < timeout) (hclock : Clock rounds) {n : Nat}
    (hundecided : ∀ j, Undecided (rounds j).outcome)
    (hbefore : ∀ k < n, (rounds k).arrived < start + timeout) :
    (fetchSigned L receiptId interval timeout start rounds n).2 = none := by
  cases hresult : (fetchSigned L receiptId interval timeout start rounds n).2 with
  | none => rfl
  | some r =>
      exfalso
      rcases (fetch_eq_some hi ht).mp hresult with hstop | ⟨hexpired, _⟩
      · rcases decided_of_run hstop with ⟨k, _, hk, _⟩
        exact hk.2 (hundecided k)
      · rcases expired_of_run hclock hexpired with ⟨k, hk, _, hreached⟩
        exact absurd (hbefore k hk) (not_lt_of_ge hreached)

end

/-- The receipt or the error of the first deciding outcome before the deadline, or
    `TimeoutError` when the clock reaches the deadline. -/
theorem fetch_correct (L : Libs) (receiptId : Str) (interval timeout : WithTop ℚ) (start : ℚ)
    (rounds : Nat → PollRound) (hi : 0 < interval) (ht : 0 < timeout) (hclock : Clock rounds) :
    (∀ receipt, (∃ n, (fetchSigned L receiptId interval timeout start rounds n).2 =
        some (.ok receipt)) ↔
      ∃ k, Decides rounds k ∧ (rounds k).arrived < start + timeout ∧
        (rounds k).outcome = .ok (.signed receipt) ∧ Names L receipt receiptId) ∧
    (∀ k, Decides rounds k → (rounds k).arrived < start + timeout → ∀ n, k < n →
      (fetchSigned L receiptId interval timeout start rounds n).2 =
        some (verdictOf L receiptId (rounds k).outcome) ∧
      pollTimes (fetchSigned L receiptId interval timeout start rounds n).1 =
        (List.range (k + 1)).map fun j => (rounds j).opened) ∧
    ((∀ k, Decides rounds k → ¬ (rounds k).arrived < start + timeout) →
      (∀ n r, (fetchSigned L receiptId interval timeout start rounds n).2 = some r →
        r = .error .timeout) ∧
      ∀ i, start + timeout ≤ (rounds i).arrived →
        ∃ n, (fetchSigned L receiptId interval timeout start rounds n).2 =
          some (.error .timeout)) ∧
    (∀ n t, Act.poll t ∈ (fetchSigned L receiptId interval timeout start rounds n).1 →
      (t : WithTop ℚ) < start + timeout) ∧
    (∀ n t span, Act.sleep t span ∈ (fetchSigned L receiptId interval timeout start rounds n).1 →
      (t : WithTop ℚ) + span ≤ max (t : WithTop ℚ) (start + timeout)) ∧
    ∀ receipt other, Names L receipt other → other ≠ receiptId →
      ∃ text shown, verdictOf L receiptId (.ok (.signed receipt)) = .error (.protocol text shown) := by
  refine ⟨?_, ?_, ?_, ?_, ?_, ?_⟩
  · intro receipt
    constructor
    · intro ⟨n, hn⟩
      rcases (fetch_eq_some hi ht).mp hn with hstop | ⟨_, htimeout⟩
      · rcases decided_of_run hstop with ⟨k, _, hk, harrived, hverdict⟩
        refine ⟨k, hk, harrived, ?_⟩
        -- Only a signed envelope has a verdict that is a receipt.
        cases houtcome : (rounds k).outcome with
        | error x =>
            rw [houtcome] at hverdict
            cases hverdict
        | ok e =>
            cases e with
            | pending id ready url =>
                rw [houtcome] at hverdict
                cases hverdict
            | signed signed =>
                rw [houtcome] at hverdict
                rcases signedReceipt_eq_ok.mp hverdict.symm with ⟨hreceipt, hnames⟩
                rw [hreceipt]
                exact ⟨rfl, hnames⟩
      · cases htimeout
    · intro ⟨k, hk, harrived, houtcome, hnames⟩
      refine ⟨k + 1, (fetch_eq_some hi ht).mpr (Or.inl ?_)⟩
      rw [(run_decided hclock hk harrived (Nat.lt_succ_self k)).2, houtcome]
      exact congrArg (some ∘ Ending.stopped) (signedReceipt_eq_ok.mpr ⟨rfl, hnames⟩)
  · intro k hk harrived n hn
    have hrun := @run_decided L receiptId interval _ _ hclock _ hk harrived _ hn
    refine ⟨(fetch_eq_some hi ht).mpr (Or.inl hrun.2), ?_⟩
    rw [fetchSigned_eq hi ht]
    exact hrun.1
  · intro hlate
    constructor
    · intro n r hr
      rcases (fetch_eq_some hi ht).mp hr with hstop | ⟨_, htimeout⟩
      · rcases decided_of_run hstop with ⟨k, _, hk, harrived, _⟩
        exact absurd harrived (hlate k hk)
      · exact htimeout
    · intro i hreached
      rcases @run_gives_up L receiptId interval _ _ hlate _ hreached with ⟨n, hn⟩
      exact ⟨n, (fetch_eq_some hi ht).mpr (Or.inr ⟨hn, rfl⟩)⟩
  · intro n t h
    rw [fetchSigned_eq hi ht] at h
    exact polls_before n 0 t h
  · intro n t span h
    rw [fetchSigned_eq hi ht] at h
    exact sleeps_within n 0 t span h
  · intro receipt other hnames hother
    rcases hnames with ⟨claims, hclaims, hid⟩
    have hhas : claims.has "receipt_id" = true := has_of_get hid (by simp)
    have hne : claims.get "receipt_id" ≠ .str receiptId := by
      rw [hid]
      intro h
      exact hother (Json.str.inj h)
    rw [verdictOf, signedReceipt, hclaims]
    simp only [hhas, Bool.true_eq_false, if_false, if_pos hne]
    exact ⟨_, _, rfl⟩

/-- Pending, then unavailable, then signed. -/
def sampleRounds (i : Nat) : PollRound where
  opened := i
  arrived := i
  outcome :=
    if i = 0 then .ok (.pending (lit "rcp_1") none (lit "/v1/receipts/rcp_1"))
    else if i = 1 then .error (.api 503 (lit "unavailable") [] [] none)
    else .ok (.signed (.ofList [("receipt_id", .str (lit "rcp_1"))]))
  paused := i

theorem clock_sample : Clock sampleRounds :=
  fun i => ⟨le_refl _, le_refl _, Nat.cast_le.mpr (Nat.le_succ i)⟩

theorem fetch_correct_sample : ∃ n, (fetchSigned sampleLibs (lit "rcp_1") 1 10 0 sampleRounds n).2 =
    some (.ok (.ofList [("receipt_id", .str (lit "rcp_1"))])) := by
  have hdecides : Decides sampleRounds 2 := by
    refine ⟨?_, fun h => h⟩
    intro j hj
    rcases Nat.lt_succ_iff_lt_or_eq.mp hj with hj | hj
    · rw [Nat.lt_one_iff.mp hj]
      trivial
    · rw [hj]
      rfl
  have hbefore : ((sampleRounds 2).arrived : WithTop ℚ) < ((0 : ℚ) : WithTop ℚ) + 10 := by
    have h : ((2 : ℚ) : WithTop ℚ) < ((10 : ℚ) : WithTop ℚ) := WithTop.coe_lt_coe.mpr (by norm_num)
    rw [WithTop.coe_zero, zero_add]
    exact h
  exact ((fetch_correct sampleLibs (lit "rcp_1") 1 10 0 sampleRounds (by decide) (by decide)
    clock_sample).1 _).mpr ⟨2, hdecides, hbefore, rfl, _, rfl, rfl⟩

/-! ### A clock that stands still -/

/-- An answer that asks to be tried again at once. -/
def retryNow : Except Exc ReceiptEnvelope :=
  .error (.api 429 (lit "rate_limited") [] [] (parseRetryAfter sampleLibs (some (lit "0"))))

theorem retryNow_eq :
    retryNow = .error (.api 429 (lit "rate_limited") [] [] (some (.zero false))) := by
  have h : parseRetryAfter sampleLibs (some (lit "0")) = some (.zero false) := by decide +kernel
  rw [retryNow, h]

/-- A server that keeps asking for that, while no time passes. -/
def stuckRounds (_ : Nat) : PollRound where
  opened := 0
  arrived := 0
  outcome := retryNow
  paused := 0

/-- The loop then neither ends nor gives up. -/
theorem stuck_goes_on : Clock stuckRounds ∧ (∀ k, ¬ Decides stuckRounds k) ∧
    ∀ n, (fetchSigned sampleLibs (lit "rcp_1") 1 1 0 stuckRounds n).2 = none := by
  have hclock : Clock stuckRounds := fun i => ⟨le_refl _, le_refl _, le_refl _⟩
  have hundecided (j : Nat) : Undecided (stuckRounds j).outcome := by
    rw [stuckRounds, retryNow_eq]
    rfl
  refine ⟨hclock, fun k hk => hk.2 (hundecided k), ?_⟩
  intro n
  refine fetch_running (by decide) (by decide) hclock hundecided ?_
  intro k _
  rw [WithTop.coe_zero, zero_add]
  exact WithTop.coe_lt_coe.mpr (by norm_num [stuckRounds])

/-! ### How often the server is asked -/

/-- A passing failure whose `Retry-After` is below the interval. -/
def ShortAnswer (interval : ℚ) : Except Exc ReceiptEnvelope → Bool
  | .error (.api status _ _ _ (some seconds)) =>
    isTransientStatus status && decide (retryDelay seconds < interval)
  | _ => false

theorem isShort_judge (L : Libs) (receiptId : Str) (interval : ℚ)
    (o : Except Exc ReceiptEnvelope) :
    (judgePoll L receiptId interval o).isShort interval = ShortAnswer interval o := by
  have hself : (Verdict.wait (interval : WithTop ℚ) : Verdict ℚ (Except Exc Json)).isShort interval =
      false := by
    rw [Verdict.isShort, decide_eq_false (lt_irrefl _)]
  cases o with
  | ok e =>
      cases e with
      | pending id ready url => exact hself
      | signed receipt => rfl
  | error x =>
      cases x with
      | api status code message fields retryAfter =>
          rw [judgePoll]
          by_cases hstatus : isTransientStatus status = true
          · rw [if_pos hstatus]
            cases retryAfter with
            | none => exact hself
            | some seconds =>
                rw [ShortAnswer, hstatus, Bool.true_and]
                rfl
          · rw [if_neg hstatus]
            rw [Bool.not_eq_true] at hstatus
            cases retryAfter with
            | none => rfl
            | some seconds =>
                rw [ShortAnswer, hstatus, Bool.false_and]
                rfl
      | httpTimeout => exact hself
      | remoteProtocol => exact hself
      | transport => exact hself
      | _ => rfl

/-- Consecutive polls are as far apart as the answer to the first asks for. Without the
    polls that were answered by a shorter `Retry-After`, there are no more than
    intervals fit into the timeout, and one. -/
theorem poll_bound (L : Libs) (receiptId : Str) (interval timeout start : ℚ)
    (rounds : Nat → PollRound) (hi : 0 < interval) (ht : 0 < timeout) (hclock : Clock rounds)
    (hstart : start ≤ (rounds 0).opened)
    (hsleeps : Sleeps (judgePoll L receiptId interval) (start + timeout : ℚ) rounds) :
    (∀ n i, i + 1 < (pollTimes (fetchSigned L receiptId interval timeout start rounds n).1).length →
      ((rounds i).opened : WithTop ℚ) + delayAfter interval (rounds i).outcome ≤
        (rounds (i + 1)).opened) ∧
    (∀ n, ∃ m, pollTimes (fetchSigned L receiptId interval timeout start rounds n).1 =
        (List.range m).map (fun j => (rounds j).opened) ∧
      m ≤ ((List.range m).countP fun j => ShortAnswer interval (rounds j).outcome) +
        ⌈timeout / interval⌉₊ + 1) ∧
    ((∀ i, ShortAnswer interval (rounds i).outcome = false) →
      (fetchSigned L receiptId interval timeout start rounds (⌈timeout / interval⌉₊ + 2)).2 ≠
        none) := by
  have hiTop : (0 : WithTop ℚ) < interval := WithTop.coe_lt_coe.mpr hi
  have htTop : (0 : WithTop ℚ) < timeout := WithTop.coe_lt_coe.mpr ht
  have hdeadline : (start : WithTop ℚ) + timeout = ((start + timeout : ℚ) : WithTop ℚ) :=
    (WithTop.coe_add start timeout).symm
  have hcount (n : Nat) : ∃ m, pollTimes (fetchSigned L receiptId interval timeout start rounds n).1 =
        (List.range m).map (fun j => (rounds j).opened) ∧
      m ≤ ((List.range m).countP fun j => ShortAnswer interval (rounds j).outcome) +
        ⌈timeout / interval⌉₊ + 1 := by
    rw [fetchSigned_eq hiTop htTop, hdeadline]
    rcases @polls_eq _ _ _ _ _ (judgePoll L receiptId interval)
      ((start + timeout : ℚ) : WithTop ℚ) rounds n 0 with
      ⟨m, _, hpolls, hgoes, hbefore⟩
    refine ⟨m, by rw [hpolls, List.range_eq_range'], ?_⟩
    cases m with
    | zero => exact Nat.zero_le _
    | succ m =>
        have htime := @elapsed_le _ _ _ _ _ _ _ _ _ hclock hsleeps interval 0 m
          (fun j hj => hgoes j (Nat.succ_lt_succ hj)) (fun j hj => hbefore j (Nat.lt_succ_of_le hj))
        have hlast := hbefore m (Nat.lt_succ_self m)
        rw [Nat.zero_add, WithTop.coe_lt_coe] at hlast
        rw [Nat.zero_add] at htime
        -- The long delays take less than the timeout.
        simp only [isShort_judge] at htime
        have hlong : (((List.range' 0 m).countP fun j =>
            !ShortAnswer interval (rounds j).outcome : Nat) : ℚ) * interval < timeout := by
          rw [nsmul_eq_mul] at htime
          linarith
        have hfit : ((List.range' 0 m).countP fun j => !ShortAnswer interval (rounds j).outcome) ≤
            ⌈timeout / interval⌉₊ := by
          have hdiv := (lt_div_iff₀ hi).mpr hlong
          exact_mod_cast hdiv.le.trans (Nat.le_ceil _)
        have hall := List.length_eq_countP_add_countP
          (fun j => ShortAnswer interval (rounds j).outcome) (l := List.range' 0 m)
        rw [List.length_range'] at hall
        have hmore : (List.range' 0 m).countP (fun j => ShortAnswer interval (rounds j).outcome) ≤
            (List.range (m + 1)).countP fun j => ShortAnswer interval (rounds j).outcome := by
          rw [List.range_succ, List.countP_append, List.range_eq_range']
          exact Nat.le_add_right _ _
        have hneg : (List.range' 0 m).countP (fun j =>
            decide ¬ ShortAnswer interval (rounds j).outcome = true) =
            (List.range' 0 m).countP fun j => !ShortAnswer interval (rounds j).outcome := by
          congr 1
          funext j
          cases ShortAnswer interval (rounds j).outcome <;> rfl
        omega
  refine ⟨?_, hcount, ?_⟩
  · intro n i hin
    rw [fetchSigned_eq hiTop htTop, hdeadline] at hin
    rcases @polls_eq _ _ _ _ _ (judgePoll L receiptId interval)
      ((start + timeout : ℚ) : WithTop ℚ) rounds n 0 with
      ⟨m, _, hpolls, hgoes, hbefore⟩
    rw [hpolls, List.length_map, List.length_range'] at hin
    have hgo := hgoes i hin
    have hnext := hbefore (i + 1) hin
    rw [Nat.zero_add] at hgo hnext
    exact gap_le hclock hsleeps (judge_undecided (undecided_of_goes hgo)) hnext
  · intro hnone hrunning
    rcases hcount (⌈timeout / interval⌉₊ + 2) with ⟨m, hm, hbound⟩
    have hzero : (List.range m).countP (fun j => ShortAnswer interval (rounds j).outcome) = 0 := by
      rw [List.countP_eq_zero]
      intro j _
      rw [hnone j]
      exact Bool.false_ne_true
    have hlen : (pollTimes (fetchSigned L receiptId interval timeout start rounds
        (⌈timeout / interval⌉₊ + 2)).1).length = ⌈timeout / interval⌉₊ + 2 := by
      rw [fetchSigned_eq hiTop htTop] at hrunning ⊢
      rw [Option.map_eq_none_iff] at hrunning
      exact polls_of_none hrunning
    rw [hm, List.length_map, List.length_range] at hlen
    omega

theorem sleeps_sample :
    Sleeps (judgePoll sampleLibs (lit "rcp_1") (1 : ℚ)) ((0 + 10 : ℚ) : WithTop ℚ) sampleRounds := by
  intro i delay hdelay
  have hundecided : Undecided (sampleRounds i).outcome := by
    by_contra hdecided
    rw [judge_decided hdecided] at hdelay
    cases hdelay
  rw [judge_undecided hundecided, Verdict.wait.injEq] at hdelay
  have hone : delay = ((1 : ℚ) : WithTop ℚ) := by
    rw [← hdelay, sampleRounds]
    by_cases h0 : i = 0
    · rw [if_pos h0]
      rfl
    · rw [if_neg h0]
      by_cases h1 : i = 1
      · rw [if_pos h1]
        rfl
      · rw [if_neg h1]
        rfl
  calc ((sampleRounds i).paused : WithTop ℚ) + pauseOf _ delay _
      ≤ (sampleRounds i).paused + delay := by
        gcongr
        exact min_le_left _ _
    _ = ((i + 1 : ℚ) : WithTop ℚ) := by
        rw [hone, ← WithTop.coe_add]
        rfl
    _ ≤ (sampleRounds (i + 1)).opened := by
        rw [WithTop.coe_le_coe, sampleRounds]
        push_cast
        exact le_refl _

theorem poll_bound_sample :
    (∃ m, pollTimes (fetchSigned sampleLibs (lit "rcp_1") (1 : ℚ) (10 : ℚ) 0 sampleRounds 5).1 =
        (List.range m).map (fun j => (sampleRounds j).opened) ∧
      m ≤ ((List.range m).countP fun j => ShortAnswer 1 (sampleRounds j).outcome) +
        ⌈(10 : ℚ) / 1⌉₊ + 1) :=
  (poll_bound sampleLibs (lit "rcp_1") 1 10 0 sampleRounds (by norm_num) (by norm_num) clock_sample
    (by norm_num [sampleRounds]) sleeps_sample).2.1 5

/-- The server asks to be tried again at once, ten times a second. -/
def hurriedRounds (i : Nat) : PollRound where
  opened := i / 10
  arrived := i / 10
  outcome := retryNow
  paused := i / 10

/-- In half a second it is polled five times, with an interval of a second. -/
theorem polled_too_often : Clock hurriedRounds ∧
    Sleeps (judgePoll sampleLibs (lit "rcp_1") (1 : ℚ)) ((0 + 1 : ℚ) : WithTop ℚ) hurriedRounds ∧
    ⌈(1 : ℚ) / 1⌉₊ + 1 <
      (pollTimes (fetchSigned sampleLibs (lit "rcp_1") (1 : ℚ) (1 : ℚ) 0 hurriedRounds 5).1).length ∧
    (hurriedRounds 1).opened < (hurriedRounds 0).opened + 1 := by
  have hstep (i : Nat) : (hurriedRounds i).paused ≤ (hurriedRounds (i + 1)).opened := by
    rw [hurriedRounds, hurriedRounds]
    push_cast
    linarith
  have hclock : Clock hurriedRounds := fun i => ⟨le_refl _, le_refl _, hstep i⟩
  have hzero : delayAfter (1 : ℚ) retryNow = 0 := by
    have hvalue : (Float64.zero false).value = some 0 := by
      rw [Float64.zero, Float64.value, Float64.num, Option.map_some, dyadic]
      norm_num
    rw [retryNow_eq, delayAfter, retryDelay, hvalue]
    rfl
  have hundecided (j : Nat) : Undecided (hurriedRounds j).outcome := by
    rw [hurriedRounds, retryNow_eq]
    rfl
  refine ⟨hclock, ?_, ?_, by norm_num [hurriedRounds]⟩
  · intro i delay hdelay
    rw [judge_undecided (hundecided i), Verdict.wait.injEq] at hdelay
    calc ((hurriedRounds i).paused : WithTop ℚ) + pauseOf _ delay _
        ≤ (hurriedRounds i).paused + delay := by
          gcongr
          exact min_le_left _ _
      _ = (hurriedRounds i).paused := by
          rw [← hdelay, hurriedRounds, hzero, add_zero]
      _ ≤ (hurriedRounds (i + 1)).opened := WithTop.coe_le_coe.mpr (hstep i)
  · have hrunning : (fetchSigned sampleLibs (lit "rcp_1") (1 : ℚ) (1 : ℚ) 0 hurriedRounds 5).2 =
        none := by
      refine fetch_running (by decide) (by decide) hclock hundecided ?_
      intro k hk
      rw [← WithTop.coe_add, WithTop.coe_lt_coe, hurriedRounds]
      have hcast : (k : ℚ) < 5 := by exact_mod_cast hk
      linarith
    rw [fetchSigned_eq (by decide) (by decide)] at hrunning ⊢
    rw [Option.map_eq_none_iff] at hrunning
    rw [polls_of_none hrunning]
    norm_num

end Allowly
