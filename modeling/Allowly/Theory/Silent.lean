import Allowly.Theory.Protocol

/-!
# Programs without an Effect

The parts of the calls that only ask questions: all their operations are quiet. What
matters about them is what they return, and that they never raise
`ExecutionRecoveryRequired` themselves.

## Main definitions

* `Silent`: Programs whose operations are all quiet.

## Theorems

* `follows_silent`: A silent program leaves the automaton where it is.
* `returns_identityHeaders`: The headers end with the idempotency key.
* `returns_witnessArtifacts`: What is read from the native process is sound.
* `plain_identityHeaders`, `plain_readJson`: These ask for no recovery.
-/

namespace Allowly

open Py Prog

/-- A program whose operations are all quiet. -/
def Silent {A : Type} (p : Call A) : Prop := Uses (fun o => Quiet o = true) p

theorem follows_silent {L : Libs} {A : Type} {p : Call A} {q : Stage} {P : Except Exc A → Prop}
    (h : Silent p) (hp : Returns P p) : Follows (Edge L) p q fun q' r => q' = q ∧ P r :=
  follows_quiet h hp fun o r ho => Edge.quiet q o r ho

theorem silent_bind {A B : Type} {p : Call A} {f : A → Call B} (h : Silent p)
    (hf : ∀ a, Silent (f a)) : Silent (p >>= f) :=
  uses_bind h hf

theorem silent_pure {A : Type} (a : A) : Silent (pure a : Call A) := trivial

theorem silent_raise {A : Type} (x : Exc) : Silent (raise x : Call A) := trivial

theorem silent_computed {A : Type} (r : Except Exc A) : Silent (computed r) := uses_ofExcept r

theorem silent_ask {o : Op} (h : Quiet o = true) : Silent (ask o) := uses_perform h

theorem silent_attempt {A : Type} {p : Call A} (h : Silent p) : Silent p.attempt := uses_attempt h

theorem silent_effectiveAgentToken (c : Client) (t : Option Str) :
    Silent (effectiveAgentToken c t) := by
  unfold effectiveAgentToken
  cases t with
  | some token => exact silent_pure _
  | none =>
      simp only
      split
      · refine silent_bind (silent_ask rfl) ?_
        intro supplied
        cases supplied with
        | none => exact silent_raise _
        | some token =>
            simp only
            split
            · exact silent_raise _
            · exact silent_pure _
      · exact silent_pure _

theorem silent_identityHeaders (c : Client) (t k : Option Str) :
    Silent (identityHeaders c t k) := by
  refine silent_bind (silent_effectiveAgentToken c t) ?_
  intro token
  cases token with
  | none => exact silent_pure _
  | some token =>
      simp only
      split
      · exact silent_raise _
      · exact silent_pure _

theorem silent_live (L : Libs) (approval : Json) : Silent (live L approval) := by
  refine silent_bind (silent_computed _) ?_
  intro window
  cases window with
  | none => exact silent_raise _
  | some w =>
      refine silent_bind (silent_ask rfl) ?_
      intro now
      split
      · exact silent_pure _
      · exact silent_raise _

theorem silent_readBytes (file : File) (maximum : Nat) : Silent (readBytes file maximum) := by
  refine silent_bind (silent_ask rfl) ?_
  intro data
  split
  · exact silent_raise _
  · exact silent_pure _

theorem silent_readJson (file : File) (maximum : Nat) : Silent (readJson file maximum) :=
  silent_bind (silent_readBytes file maximum) fun _ => silent_computed _

theorem silent_notaryFingerprint (L : Libs) (path : Str) : Silent (notaryFingerprint L path) := by
  refine silent_bind (silent_ask rfl) ?_
  intro data
  split
  · exact silent_raise _
  · refine silent_bind (silent_computed _) ?_
    intro key
    refine silent_bind (silent_computed _) ?_
    intro alg
    split
    · exact silent_raise _
    · split
      · exact silent_raise _
      · refine silent_bind (silent_computed _) ?_
        intro point
        split
        · exact silent_pure _
        · exact silent_raise _

theorem silent_witnessConfig (workspaceId : Json) : Silent (witnessConfig workspaceId) := by
  unfold witnessConfig
  split
  · next id =>
      split
      · exact silent_raise _
      · refine silent_bind (silent_ask rfl) ?_
        intro dir
        refine silent_bind (silent_attempt (silent_bind (silent_ask rfl) ?_)) ?_
        · intro data
          split
          · exact silent_raise _
          · exact silent_computed _
        · intro config
          split
          · exact silent_raise _
          · split
            · exact silent_raise _
            · exact silent_raise _
          · split
            · exact silent_pure _
            · exact silent_raise _
  · exact silent_raise _

theorem silent_witnessCa (path digest : Str) : Silent (witnessCa path digest) := by
  refine silent_bind (silent_ask rfl) ?_
  intro candidate
  split
  · exact silent_raise _
  · refine silent_bind (silent_bind (silent_ask rfl) fun _ =>
      silent_bind (silent_ask rfl) fun _ => silent_pure _) ?_
    rintro ⟨resolved, isFile⟩
    have hrest : ∀ size : Nat, Silent (do
        if isFile = false ∨ size > 32 * 1024 ∨ size < 1 then
          raise (.value "witness CA file is invalid")
        else
          let data : Bytes ← ask (.outside (.read resolved (32 * 1024)))
          if hexdigest data ≠ digest then
            raise (.protocol "witness CA differs from the locally pinned fingerprint" none)
          else return resolved : Call Str) := by
      intro size
      split
      · exact silent_raise _
      · refine silent_bind (silent_ask rfl) ?_
        intro data
        split
        · exact silent_raise _
        · exact silent_pure _
    cases isFile with
    | true => exact silent_bind (silent_ask rfl) hrest
    | false => exact silent_bind (silent_pure _) hrest

theorem silent_optionalConfig (workspaceId : Json) (native key : Option Str) :
    Silent (optionalConfig workspaceId native key) := by
  unfold optionalConfig
  split
  · exact silent_pure _
  · exact silent_bind (silent_witnessConfig workspaceId) fun _ => silent_pure _

theorem silent_isExecutable (path : Str) : Silent (isExecutable path) := by
  refine silent_bind (silent_ask rfl) ?_
  intro isFile
  split
  · exact silent_ask rfl
  · exact silent_pure _

theorem silent_optionalCa (ca : Option (Str × Str)) : Silent (optionalCa ca) := by
  cases ca with
  | none => exact silent_pure _
  | some ca => exact silent_bind (silent_witnessCa _ _) fun _ => silent_pure _

theorem silent_witnessFiles (L : Libs) (workspaceId : Json) (native key : Option Str) :
    Silent (witnessFiles L workspaceId native key) := by
  refine silent_bind (silent_optionalConfig workspaceId native key) ?_
  intro config
  refine silent_bind (silent_ask rfl) ?_
  intro binaryPath
  refine silent_bind (silent_ask rfl) ?_
  intro trustPath
  split
  · exact silent_raise _
  · refine silent_bind (silent_ask rfl) ?_
    intro nativePath
    refine silent_bind (silent_ask rfl) ?_
    intro trust
    refine silent_bind (silent_isExecutable nativePath) ?_
    intro executable
    split
    · exact silent_raise _
    · refine silent_bind (silent_ask rfl) ?_
      intro trustIsFile
      split
      · exact silent_raise _
      · refine silent_bind (silent_notaryFingerprint L trust) ?_
        intro fingerprint
        split
        · exact silent_raise _
        · exact silent_bind (silent_optionalCa _) fun _ => silent_pure _

theorem silent_sessionFiles (L : Libs) (r : ExecutionResponse) (approval : Json)
    (native key : Option Str) : Silent (sessionFiles L r approval native key) := by
  refine silent_bind (silent_computed _) ?_
  intro workspaceId
  refine silent_bind (silent_witnessFiles L workspaceId native key) ?_
  intro files
  refine silent_bind (silent_computed _) ?_
  intro fingerprint
  split
  · exact silent_raise _
  · exact silent_pure _

theorem silent_awaitReady (n : Nat) : Silent (awaitReady n) := by
  induction n with
  | zero => exact silent_raise _
  | succ n ih =>
      refine silent_bind (silent_ask rfl) ?_
      intro ready
      split
      · exact silent_pure _
      · refine silent_bind (silent_ask rfl) ?_
        intro done
        split
        · exact silent_raise _
        · exact silent_bind (silent_ask rfl) fun _ => ih

theorem silent_savedResponse (present : Bool) : Silent (savedResponse present) := by
  cases present with
  | true =>
      refine silent_bind (silent_readJson _ _) ?_
      intro value
      exact silent_bind (silent_computed _) fun _ => silent_pure _
  | false => exact silent_pure _

theorem silent_readArtifacts (approvalSha256 : Option Str) :
    Silent (readArtifacts approvalSha256) := by
  refine silent_bind (silent_ask rfl) ?_
  intro present
  refine silent_bind (silent_savedResponse present) ?_
  intro response
  refine silent_bind (silent_ask rfl) ?_
  intro result
  rcases result with ⟨code, stdout⟩
  simp only
  split
  · exact silent_pure _
  · split
    · exact silent_raise _
    · refine silent_bind (silent_computed _) ?_
      intro verified
      split
      · exact silent_raise _
      · refine silent_bind (silent_readBytes _ _) ?_
        intro presentation
        refine silent_bind (silent_readBytes _ _) ?_
        intro attestation
        exact silent_bind (silent_computed _) fun _ => silent_pure _

theorem silent_witnessArtifacts (approvalSha256 : Option Str) :
    Silent (witnessArtifacts approvalSha256) := by
  refine silent_bind (silent_attempt (silent_readArtifacts approvalSha256)) ?_
  intro read
  cases read with
  | ok artifacts => exact silent_pure _
  | error x =>
      simp only
      split
      · exact silent_pure _
      · exact silent_raise _

/-! ### Results -/

theorem returns_plain_ask (o : Op) : Returns Plain (ask o) := by
  refine returns_perform ?_
  intro r
  cases r with
  | ok a => exact plain_ok a
  | error x => exact plain_error x.property

theorem returns_plain_bind {A B : Type} {p : Call A} {f : A → Call B} (h : Returns Plain p)
    (hf : ∀ a, Returns Plain (f a)) : Returns Plain (p >>= f) :=
  returns_bind h (fun a _ => hf a) (fun _ hx => hx.error_of)

theorem returns_plain_always {A : Type} {p : Call A} {last : Call Unit} (h : Returns Plain p)
    (hlast : Returns Plain last) : Returns Plain (always p last) := by
  have hplain : Returns (fun r => Plain r ∧ ∀ s, r = .ok s → Plain s) p.attempt := by
    refine returns_attempt (returns_mono h ?_)
    intro r hr
    refine ⟨plain_ok _, ?_⟩
    intro s hs
    cases hs
    exact hr
  refine returns_bind hplain ?_ ?_
  · intro r hr
    exact returns_plain_bind hlast fun _ => returns_ofExcept (hr.2 r rfl)
  · intro x hx
    exact hx.1.error_of

theorem returns_plain_computed {A : Type} {r : Except Exc A} (h : Plain r) :
    Returns Plain (computed r) := returns_ofExcept h

theorem returns_plain_raise {A : Type} {x : Exc} (h : x.isRecovery = false) :
    Returns Plain (raise x : Call A) := plain_error h

theorem returns_plain_pure {A : Type} (a : A) : Returns Plain (pure a : Call A) := plain_ok a

theorem plain_effectiveAgentToken (c : Client) (t : Option Str) :
    Returns Plain (effectiveAgentToken c t) := by
  unfold effectiveAgentToken
  cases t with
  | some token => exact returns_plain_pure _
  | none =>
      simp only
      split
      · refine returns_plain_bind (returns_plain_ask _) ?_
        intro supplied
        cases supplied with
        | none => exact returns_plain_raise rfl
        | some token =>
            simp only
            split
            · exact returns_plain_raise rfl
            · exact returns_plain_pure _
      · exact returns_plain_pure _

theorem plain_identityHeaders (c : Client) (t k : Option Str) :
    Returns Plain (identityHeaders c t k) := by
  refine returns_plain_bind (plain_effectiveAgentToken c t) ?_
  intro token
  cases token with
  | none => exact returns_plain_pure _
  | some token =>
      simp only
      split
      · exact returns_plain_raise rfl
      · exact returns_plain_pure _

/-- The headers end with the idempotency key. -/
theorem returns_identityHeaders (c : Client) (t k : Option Str) :
    Returns (fun r => ∀ hs, r = .ok hs → ∃ token, hs = token ++ keyHeaders k)
      (identityHeaders c t k) := by
  refine returns_bind (returns_true _) ?_ ?_
  · intro token _
    cases token with
    | none =>
        intro hs h
        cases h
        exact ⟨[], rfl⟩
    | some token =>
        simp only
        split
        · intro hs h
          cases h
        · intro hs h
          cases h
          exact ⟨[(agentTokenHeader, token)], rfl⟩
  · intro x _ hs h
    cases h

theorem plain_readBytes (file : File) (maximum : Nat) :
    Returns Plain (readBytes file maximum) := by
  refine returns_plain_bind (returns_plain_ask _) ?_
  intro data
  split
  · exact returns_plain_raise rfl
  · exact returns_plain_pure _

theorem plain_loadJson (b : Bytes) : Plain (loadJson b) := by
  unfold loadJson
  split
  · exact plain_ok _
  · exact plain_error rfl

theorem plain_readJson (file : File) (maximum : Nat) : Returns Plain (readJson file maximum) :=
  returns_plain_bind (plain_readBytes file maximum) fun _ =>
    returns_plain_computed (plain_loadJson _)

theorem plain_save (file : File) (value : Json) : Returns Plain (save file value) := by
  refine returns_plain_bind (returns_plain_ask _) ?_
  intro _
  refine returns_plain_always (returns_plain_bind (returns_plain_computed ?_) ?_)
    (returns_plain_ask _)
  · unfold jsonBytes
    split
    · exact plain_ok _
    · exact plain_error rfl
  · intro data
    refine returns_plain_bind (returns_plain_ask _) ?_
    intro _
    exact returns_plain_bind (returns_plain_ask _) fun _ => returns_plain_ask _

theorem observed_of_observedResponse {value v : Json} {maximum : Nat}
    (h : observedResponse value maximum = .ok v) : Observed v := by
  unfold observedResponse at h
  split at h
  · next body hobj hbody =>
      split at h
      · cases h
      · next content _ =>
          split at h
          · next status size hstatus hsize =>
              split at h
              · rcases bind_eq_ok.mp h with ⟨digest, _, hk⟩
                split at hk
                · cases hk
                  refine ⟨status, size, _, ?_, ?_, Json.get_set_self hobj _ _⟩
                  · rw [Json.get_set_other (by decide), hstatus]
                  · rw [Json.get_set_other (by decide), hsize]
                · cases hk
              · cases h
          · cases h
  · cases h

theorem wellFormed_loadJson {b : Bytes} {j : Json} (h : loadJson b = .ok j) : j.WellFormed := by
  unfold loadJson at h
  split at h
  · next i hi =>
      cases h
      exact wellFormed_loadsBytes hi
  · cases h

theorem wellFormed_verifyNative {approvalSha256 : Option Str} {bundle : Str} {attestation : Bytes}
    {response : Option Json} {verified j : Json}
    (h : verifyNative approvalSha256 bundle attestation response verified = .ok j) :
    j.WellFormed := by
  unfold verifyNative at h
  split at h
  · cases h
  · split at h
    · cases h
    · rcases bind_eq_ok.mp h with ⟨observed, _, hk⟩
      split at hk
      · cases hk
      · exact wellFormed_loadJson hk

theorem returns_savedResponse (present : Bool) :
    Returns (fun r => ∀ a, r = .ok a → ∀ v, a = some v → Observed v) (savedResponse present) := by
  cases present with
  | true =>
      refine returns_bind (returns_true _) ?_ ?_
      · intro value _
        refine returns_bind (M := fun r => ∀ v, r = .ok v → Observed v) ?_ ?_ ?_
        · refine returns_ofExcept ?_
          intro v hv
          exact observed_of_observedResponse hv
        · intro v hv a ha w hw
          cases ha
          cases hw
          exact hv v rfl
        · intro x _ a ha
          cases ha
      · intro x _ a ha
        cases ha
  | false =>
      intro a ha v hv
      cases ha
      cases hv

theorem returns_readArtifacts (approvalSha256 : Option Str) :
    Returns (fun r => ∀ a, r = .ok a → a.Sound) (readArtifacts approvalSha256) := by
  refine returns_bind (returns_true _) ?_ (fun x _ a ha => by cases ha)
  intro present _
  refine returns_bind (returns_savedResponse present) ?_ (fun x _ a ha => by cases ha)
  intro response hresponse
  refine returns_bind (returns_true _) ?_ (fun x _ a ha => by cases ha)
  intro result _
  rcases result with ⟨code, stdout⟩
  simp only
  split
  · intro a ha
    cases ha
    exact ⟨trivial, hresponse response rfl⟩
  · split
    · intro a ha
      cases ha
    · refine returns_bind (returns_true _) ?_ (fun x _ a ha => by cases ha)
      intro verified _
      split
      · intro a ha
        cases ha
      · refine returns_bind (returns_true _) ?_ (fun x _ a ha => by cases ha)
        intro presentation _
        refine returns_bind (returns_true _) ?_ (fun x _ a ha => by cases ha)
        intro attestationBytes _
        refine returns_bind (M := fun r => ∀ j, r = .ok j → j.WellFormed) ?_ ?_
          (fun x _ a ha => by cases ha)
        · refine returns_ofExcept ?_
          intro j hj
          exact wellFormed_verifyNative hj
        · intro attestation hattestation a ha
          cases ha
          exact ⟨hattestation attestation rfl, hresponse response rfl⟩

/-- What is read from the native process is sound. -/
theorem returns_witnessArtifacts (approvalSha256 : Option Str) :
    Returns (fun r => ∀ a, r = .ok a → a.Sound) (witnessArtifacts approvalSha256) := by
  refine returns_bind (M := fun r => ∀ s, r = .ok s → ∀ a, s = .ok a → Artifacts.Sound a) ?_ ?_
    (fun x _ a ha => by cases ha)
  · refine returns_attempt (returns_mono (returns_readArtifacts approvalSha256) ?_)
    intro r hr s hs a ha
    cases hs
    exact hr a ha
  · intro read hread
    cases read with
    | ok artifacts =>
        intro a ha
        cases ha
        exact hread _ rfl artifacts rfl
    | error x =>
        simp only
        split
        · intro a ha
          cases ha
          refine ⟨trivial, ?_⟩
          intro v hv
          cases hv
        · intro a ha
          cases ha

end Allowly
