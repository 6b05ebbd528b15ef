import Allowly.Theory.Once
import Allowly.Theory.Scenario

/-!
# Journals That Are Read Back

What is saved is what a reader finds, as long as the reader takes it: it refuses files
over its limit, and nothing keeps a journal below it.

## Main definitions

* `ReadsBack`: A read of the journal gives this value.

## Theorems

* `journal_read_back`: A journal that was saved is read back if and only if it is within
  the limit.
* `prepared_reached`: A call saves its first journal.
-/

namespace Allowly

open Py Interleave

variable {L : Libs} {operationId : Str}

/-- A read of the journal, when it is answered, gives this value. -/
def ReadsBack (s : Folder) (v : Json) : Prop :=
  ∃ k, readJson .journal readLimit = .op (.read .journal readLimit) k ∧
    ∀ a n b s', perform a n (.read .journal readLimit) (.ok b) s = some s' → k (.ok b) = .ret v

theorem readJson_op : readJson .journal readLimit = .op (.read .journal readLimit) fun r =>
    Prog.andThen (Prog.andThen (Prog.ofExcept (r.mapError Subtype.val)) fun data =>
        if data.length > readLimit then
          raise (.protocol "execution artifact exceeds its limit" none)
        else Prog.ret data)
      fun data => computed (loadJson data) := rfl

/-- What is read is within the limit. -/
theorem ReadsBack.short {data : Bytes} {s : Folder} {v : Json} (hr : ReadsBack s v)
    (hfile : s.files .journal = some data) : data.length ≤ readLimit := by
  rcases hr with ⟨k, hk, hread⟩
  by_contra hlong
  rw [readJson_op] at hk
  injection hk with _ hk
  have hanswer : perform 0 0 (.read .journal readLimit) (.ok (data.take (readLimit + 1))) s = some s := by
    simp [perform, hfile]
  have hret := hread 0 0 _ s hanswer
  rw [← hk] at hret
  have htaken : (data.take (readLimit + 1)).length > readLimit := by
    rw [List.length_take]
    omega
  simp only [Except.mapError, Prog.ofExcept, Prog.andThen, if_pos htaken, raise, reduceCtorEq] at hret

/-- What `_read` does with the octets of a file. -/
theorem readsBack_iff {data : Bytes} {s : Folder} {v : Json} (hfile : s.files .journal = some data)
    (hv : loadsBytes data = some v) : ReadsBack s v ↔ data.length ≤ readLimit := by
  refine ⟨fun hr => hr.short hfile, ?_⟩
  intro hshort
  refine ⟨_, readJson_op, ?_⟩
  intro a n b s' hp
  rcases perform_read hp with ⟨_, content, hcontent, hb⟩
  rw [hfile, Option.some.injEq] at hcontent
  rw [← hcontent, List.take_of_length_le (by omega)] at hb
  rw [hb]
  simp only [Except.mapError, Prog.ofExcept, Prog.andThen, if_neg (Nat.not_lt.mpr hshort), computed,
    loadJson, hv]

/-- Every journal that is saved is one of the operation. -/
theorem preserves_journals (L : Libs) (operationId : Str) :
    Preserves (system L operationId) (Edge L) (Ends L) firstStage (Run L operationId)
      (fun _ _ h => Always (fun e _ => ∀ a root data,
        e = .did a root (.replace .journal data) (.ok ()) →
          ∃ v, Journal operationId v ∧ Writes data v) h) := by
  refine preserves_always ?_ ?_ ?_ ?_ ?_
  · intro n root c h a r data heq
    cases heq
  · intro s roles n h a root q o r s' q' hrun ha he hp b rb data heq
    cases heq
    rcases hrun.invariant.valid a root q ha with ⟨hv, hf⟩
    rcases edge_saves he with ⟨w, hsaves, hw⟩
    exact ⟨w, hsaves.journal hw hv hf, hw⟩
  · intro s roles h a root q r hrun ha hpost b rb data heq
    cases heq
  · intro a h b rb data heq
    cases heq
  · intro d h b rb data heq
    cases heq

/-- The surroundings of a call that makes its folder. -/
def makingOutside : Outlook
  | .folderExists => .ok false
  | o => sampleOutside (lit "receipt") [] .null o

/-- The operations up to the first journal. -/
def makingOps (data : Bytes) : List Op :=
  [.now, .resolve, .folderExists, .mkdirParent, .mkdir, .makeTemporary, .writeTemporary data,
    .replace .journal data]

theorem execute_performs {c : Client} {a : Args} {q : Requested} {headers : List (Str × Str)}
    {digest : Str} {id data : Bytes} (hreq : httpExecutionRequest L a = .ok (q, headers))
    (hid : encode a.operationId = some id)
    (hseal : sealSha L { q with clientTimestamp := some (L.isoformat sampleTime) }.toJson =
      .ok digest)
    (hdata : jsonBytes (preparedState a.operationId digest (L.isoformat sampleTime)) = .ok data) :
    Performs makingOutside (makingOps data) (code L (.execute c a)) := by
  simp only [code, executeHttp, hreq, computed, Prog.ofExcept, hid]
  refine ⟨_, rfl, _, rfl, _, rfl, _, rfl, _, rfl, ?_⟩
  change Performs makingOutside [.makeTemporary, .writeTemporary data, .replace .journal data]
    (Value.done <$> executePrepared L c a
      { q with clientTimestamp := some (L.isoformat sampleTime) } headers (L.isoformat sampleTime))
  rw [executePrepared, hseal]
  change Performs makingOutside _ (Value.done <$> do
    save .journal (preparedState a.operationId digest (L.isoformat sampleTime))
    withLock do
      let r ← prepareExecution L c { q with clientTimestamp := some (L.isoformat sampleTime) }
        a.operationId a.agentToken
      proceed L c a { q with clientTimestamp := some (L.isoformat sampleTime) } headers
        (preparedState a.operationId digest (L.isoformat sampleTime)) "authorized" r)
  simp only [save, hdata, computed, Prog.ofExcept]
  exact ⟨_, rfl, _, rfl, _, rfl, trivial⟩

/-- A call saves its first journal. -/
theorem prepared_reached {c : Client} {a : Args} {q : Requested} {headers : List (Str × Str)}
    {digest : Str} {id data : Bytes} (hreq : httpExecutionRequest L a = .ok (q, headers))
    (hid : encode a.operationId = some id)
    (hseal : sealSha L { q with clientTimestamp := some (L.isoformat sampleTime) }.toJson =
      .ok digest)
    (hdata : jsonBytes (preparedState a.operationId digest (L.isoformat sampleTime)) = .ok data) :
    ∃ w, (system L a.operationId).Reachable Folder.fresh w ∧
      .did 0 0 (.replace .journal data) (.ok ()) ∈ w.history := by
  have hstart : (system L a.operationId).Reachable Folder.fresh
      ((system L a.operationId).launch (World.initial Folder.fresh) 0 (.execute c a)) := by
    refine System.Reachable.step _ _ (.begin (.execute c a)) System.Reachable.start ?_
    simp [System.step, system, admits, World.initial]
  have hlive : ((system L a.operationId).launch (World.initial Folder.fresh) 0 (.execute c a)).live 0 =
      some ⟨0, code L (.execute c a)⟩ := by
    simp [System.launch, World.initial, system]
  rcases reachable_performs hstart hlive (execute_performs hreq hid hseal hdata)
    ⟨_, rfl, rfl, _, rfl, rfl, _, rfl, rfl, _, rfl, rfl, _, rfl, rfl, _, rfl, rfl, _, rfl, rfl, _,
      rfl, rfl, trivial⟩ with ⟨w, hw, _, hall⟩
  exact ⟨w, hw, hall (.replace .journal data) (by simp [makingOps])⟩

/-! ### A long operation ID -/

theorem encode_ascii {s : Str} (h : ∀ c ∈ s, c < 128) : encode s = some (asciiBytes s) := by
  induction s with
  | nil => rfl
  | cons c s ih =>
      have hc := h c List.mem_cons_self
      have hs := ih fun d hd => h d (List.mem_cons_of_mem c hd)
      simp only [encode, encodeChar, if_pos hc, hs]
      rfl

/-- An operation ID of this length. -/
def longId (n : Nat) : Str := List.replicate n 97

theorem longId_ascii (n : Nat) : ∀ c ∈ longId n, c < 128 := by
  intro c hc
  rw [List.eq_of_mem_replicate hc]
  decide

theorem escape_longId (n : Nat) : (longId n).flatMap escapeChar = longId n := by
  induction n with
  | zero => rfl
  | succ n ih =>
      rw [longId, List.replicate_succ, List.flatMap_cons]
      exact congrArg (97 :: ·) ih

/-- The first journal of the sample, with another operation ID. -/
def longState (n : Nat) : Json :=
  preparedState (longId n) (lit "sha256:request") (lit "2026-01-01T00:00:00+00:00")

/-- What stands before the operation ID in the journal. -/
def longFront : Str := 123 :: lit "\"version\":2,\"operation_id\":\""

/-- What stands after it. -/
def longBack : Str :=
  lit "\",\"request_sha256\":\"sha256:request\",\"client_timestamp\":"
    ++ lit "\"2026-01-01T00:00:00+00:00\",\"phase\":\"prepared\"" ++ [125]

theorem dumps_longState (n : Nat) :
    dumps (longState n) = some (longFront ++ (longId n ++ longBack)) := by
  have h : dumps (longState n) = some (123 :: (dumpsString (lit "version") ++ 58 :: [50] ++ [44] ++
      (dumpsString (lit "operation_id") ++ 58 :: (34 :: (longId n).flatMap escapeChar ++ [34]) ++ [44]
        ++ (dumpsString (lit "request_sha256") ++ 58 :: dumpsString (lit "sha256:request") ++ [44]
          ++ (dumpsString (lit "client_timestamp")
            ++ 58 :: dumpsString (lit "2026-01-01T00:00:00+00:00") ++ [44]
            ++ (dumpsString (lit "phase") ++ 58 :: dumpsString (lit "prepared") ++ [] ++ []))))
      ++ [125])) := rfl
  rw [h, escape_longId]
  simp only [List.append_assoc, List.cons_append, List.nil_append]
  rfl

/-- The sample with a long operation ID. -/
def longArgs (n : Nat) : Args := { sampleArgs (lit "receipt") with operationId := longId n }

def longRequested (n : Nat) : Requested :=
  { sampleRequested (lit "receipt") with operationId := longId n, clientTimestamp := none }

theorem sample_request : request sampleLibs (lit "https://api.example.com/pay") (lit "GET") [] [] =
    .ok (sampleDescriptor, []) := by
  refine ok_of_toOption ?_
  decide +kernel

theorem longArgs_request (n : Nat) :
    httpExecutionRequest sampleLibs (longArgs (n + 1)) = .ok (longRequested (n + 1), []) := by
  have hvalid : ¬ ((longArgs (n + 1)).operationId = [] ∨
      ((longArgs (n + 1)).evidenceMode ≠ lit "receipt" ∧
        (longArgs (n + 1)).evidenceMode ≠ lit "witnessed") ∨
      timeoutValid (longArgs (n + 1)).timeout = false) := by
    refine not_or.mpr ⟨List.cons_ne_nil _ _, not_or.mpr ⟨fun hm => hm.1 rfl, ?_⟩⟩
    change ¬ timeoutValid (.finite false 30 0) = false
    decide
  rw [httpExecutionRequest, if_neg hvalid]
  change (request sampleLibs (lit "https://api.example.com/pay") (lit "GET") [] [] >>= _) = _
  rw [sample_request]
  rfl

theorem longArgs_seal (n : Nat) : sealSha sampleLibs { longRequested (n + 1) with
    clientTimestamp := some (sampleLibs.isoformat sampleTime) }.toJson =
      .ok (lit "sha256:request") := by
  rfl

/-- The journal of the sample with a long operation ID is longer than a reader takes. -/
theorem long_reached : ∃ w data, (system sampleLibs (longId readLimit)).Reachable Folder.fresh w ∧
    .did 0 0 (.replace .journal data) (.ok ()) ∈ w.history ∧ readLimit < data.length := by
  have hascii : ∀ c ∈ longFront ++ (longId readLimit ++ longBack), c < 128 := by
    intro c hc
    rcases List.mem_append.mp hc with hc | hc
    · exact (by decide : ∀ c ∈ longFront, c < 128) c hc
    · rcases List.mem_append.mp hc with hc | hc
      · exact longId_ascii readLimit c hc
      · exact (by decide : ∀ c ∈ longBack, c < 128) c hc
  have hdata : jsonBytes (longState readLimit) =
      .ok (asciiBytes (longFront ++ (longId readLimit ++ longBack))) := by
    rw [jsonBytes, dumps_longState, Option.bind_some, encode_ascii hascii]
  rcases prepared_reached (c := sampleClient) (longArgs_request (readLimit - 1))
    (encode_ascii (longId_ascii readLimit)) (longArgs_seal (readLimit - 1)) hdata with ⟨w, hw, hmem⟩
  refine ⟨w, _, hw, hmem, ?_⟩
  have hlen : (longId readLimit).length = readLimit := List.length_replicate
  rw [asciiBytes, List.length_map, List.length_append, List.length_append, hlen]
  have hfront : longFront.length ≠ 0 := by decide
  omega

end Allowly
