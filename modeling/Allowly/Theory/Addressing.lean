import Allowly.Base.DotSegments
import Allowly.Core.SealWebhook

/-!
# What an ID Addresses

An ID is quoted into the path of its method, so it cannot bring a slash or a question mark
with it. Two texts are not changed by quoting and still mean something to the HTTP client:
`.` and `..`, which it takes out of the path, with the word in front.

## Main definitions

* `Target`: What the methods of both clients address.
* `Target.template`: The fixed words of a path, and the IDs between them.
* `BasePath`: The path of a base URL.
* `requested`: The path that is sent.
* `Addresses`: The path that is sent has one segment for every ID, which decodes to it.
* `Target.Plain`: No ID is a dot segment.

## Theorems

* `addressed_iff`: A target is addressed, and it alone, exactly when it is plain.
* `acknowledgment_redirected`: The request for an acknowledgment goes to the receipt.
-/

namespace Allowly

open Py

/-- What a method of a client addresses. -/
inductive Target where
  | api (route : Route)
  | delivery (attemptId : Str)
  | sealReceipt (receiptId : Str)

/-- The path of the method, without the query of the webhook. -/
def Target.path : Target → Option Str
  | api route => route.path
  | delivery attemptId => resourcePath "/v1/seal/webhooks/deliveries/" attemptId ""
  | sealReceipt receiptId => resourcePath "/v1/seal/webhooks/receipts/" receiptId ""

/-- A segment of a path: a fixed word, or an ID. -/
inductive Place where
  | word (w : String)
  | ident (id : Str)
  deriving DecidableEq

/-- The segment is the word, or decodes to the ID. -/
def Place.Matches (segment : Str) : Place → Prop
  | word w => segment = lit w
  | ident id => unquote segment = some id

def executionPlaces (operationId : Str) (rest : List Place) : List Place :=
  .word "v1" :: .word "executions" :: .ident operationId :: rest

def Route.template : Route → List Place
  | execute => [.word "v1", .word "execute"]
  | continuation operationId => executionPlaces operationId [.word "continue"]
  | dispatch operationId => executionPlaces operationId [.word "dispatch"]
  | witnessSessionToken operationId => executionPlaces operationId [.word "witness-session-token"]
  | outcome operationId => executionPlaces operationId [.word "outcome"]
  | execution operationId => executionPlaces operationId []
  | check _ => [.word "v1", .word "check"]
  | agentCheck _ => [.word "v1", .word "agent-check"]
  | budgetSettlements => [.word "v1", .word "budget-settlements"]
  | receipt receiptId => [.word "v1", .word "receipts", .ident receiptId]
  | acknowledgments receiptId =>
    [.word "v1", .word "receipts", .ident receiptId, .word "acknowledgments"]
  | acknowledgment receiptId acknowledgmentId =>
    [.word "v1", .word "receipts", .ident receiptId, .word "acknowledgments", .ident acknowledgmentId]
  | sealRecord => [.word "v1", .word "seal"]
  | authorization authorizationId => [.word "v1", .word "authorizations", .ident authorizationId]
  | confirmation nonce => [.word "v1", .word "confirmations", .ident nonce]
  | confirmationStatus confirmationId =>
    [.word "v1", .word "confirmations", .ident confirmationId, .word "status"]
  | escalation escalationId => [.word "v1", .word "escalations", .ident escalationId]
  | escalationResolve escalationId =>
    [.word "v1", .word "escalations", .ident escalationId, .word "resolve"]
  | policies => [.word "v1", .word "policies"]
  | policyList => [.word "v1", .word "policies"]
  | policy policyId => [.word "v1", .word "policies", .ident policyId]
  | policyArchive policyId => [.word "v1", .word "policies", .ident policyId]
  | policyPreview => [.word "v1", .word "setup", .word "policies", .word "preview"]
  | policyPublish => [.word "v1", .word "setup", .word "policies", .word "publish"]
  | observeEvent eventId => [.word "v1", .word "observe", .word "events", .ident eventId]

/-- The fixed route of the method, with its IDs. -/
def Target.template : Target → List Place
  | api route => route.template
  | delivery attemptId =>
    [.word "v1", .word "seal", .word "webhooks", .word "deliveries", .ident attemptId]
  | sealReceipt receiptId =>
    [.word "v1", .word "seal", .word "webhooks", .word "receipts", .ident receiptId]

/-- No ID is a dot segment. -/
def Target.Plain (t : Target) : Prop := ∀ i, .ident i ∈ t.template → isDotSegment i = false

/-- The path of a base URL, as the client keeps it. -/
structure BasePath where
  segments : List Str
  plain : ∀ s ∈ segments, isDotSegment s = false
  whole : ∀ s ∈ segments, 47 ∉ s

/-- The path that is sent. What follows a question mark is not part of it. -/
def requested (slash : Bool) (base : BasePath) (path : Str) : Str :=
  removeDotSegments slash (joinPath base.segments ++ (partition 63 path).1)

/-- The path that is sent is the fixed route behind the base, with one segment for every ID. -/
def Addresses (slash : Bool) (base : BasePath) (path : Str) (t : Target) : Prop :=
  ∃ segments, pathSegments (requested slash base path) = base.segments ++ segments ∧
    List.Forall₂ Place.Matches segments t.template

/-! ### How paths are written -/

/-- A place as it is written. -/
def Place.written : Place → Option Str
  | word w => some (lit w)
  | ident id => quote id

/-- The segment is how the place is written. -/
def SpelledBy (s : Str) (p : Place) : Prop := p.written = some s

/-- The path is these places, before a query. -/
def Spells (path : Str) (places : List Place) : Prop :=
  ∃ ss, List.Forall₂ SpelledBy ss places ∧ (partition 63 path).1 = joinPath ss

theorem quote_question {s t : Str} (h : quote s = some t) : 63 ∉ t := by
  intro hc
  rcases mem_quote h hc with hc | hc
  · exact absurd hc (by decide)
  · cases hc

theorem writes_words (ws : List String) : List.Forall₂ SpelledBy (ws.map lit) (ws.map .word) := by
  induction ws with
  | nil => exact List.Forall₂.nil
  | cons w ws ih => exact List.Forall₂.cons rfl ih

/-- A path without IDs. -/
theorem spells_words {path : Str} (ws : List String)
    (h : (partition 63 path).1 = joinPath (ws.map lit)) : Spells path (ws.map .word) :=
  ⟨ws.map lit, writes_words ws, h⟩

/-- A path with one ID. -/
theorem spells_resource {start rest : String} {id path : Str} (pre post : List String)
    (h : resourcePath start id rest = some path) (hpre : lit start = joinPath (pre.map lit) ++ [47])
    (hpost : lit rest = joinPath (post.map lit)) (hquery : 63 ∉ lit start ∧ 63 ∉ lit rest) :
    Spells path (pre.map .word ++ .ident id :: post.map .word) := by
  rcases Option.map_eq_some_iff.mp h with ⟨q, hq, rfl⟩
  refine ⟨pre.map lit ++ q :: post.map lit, ?_, ?_⟩
  · exact List.rel_append (writes_words pre) (List.Forall₂.cons hq (writes_words post))
  · have hnone : 63 ∉ lit start ++ q ++ lit rest := by
      rw [List.mem_append, List.mem_append, not_or, not_or]
      exact ⟨⟨hquery.1, quote_question hq⟩, hquery.2⟩
    rw [partition_none hnone, hpre, hpost, joinPath_append]
    simp [joinPath]

theorem spells_target {t : Target} {path : Str} (h : t.path = some path) : Spells path t.template := by
  have hfixed : ∀ {s : String} (ws : List String), some (lit s) = some path →
      (partition 63 (lit s)).1 = joinPath (ws.map lit) → Spells path (ws.map .word) := by
    intro s ws hs hpath
    rw [Option.some.injEq] at hs
    rw [← hs]
    exact spells_words ws hpath
  cases t with
  | delivery id =>
      exact spells_resource ["v1", "seal", "webhooks", "deliveries"] [] h rfl rfl (by decide)
  | sealReceipt id =>
      exact spells_resource ["v1", "seal", "webhooks", "receipts"] [] h rfl rfl (by decide)
  | api route =>
      cases route with
      | continuation id =>
          exact spells_resource ["v1", "executions"] ["continue"] h rfl rfl (by decide)
      | dispatch id => exact spells_resource ["v1", "executions"] ["dispatch"] h rfl rfl (by decide)
      | witnessSessionToken id =>
          exact spells_resource ["v1", "executions"] ["witness-session-token"] h rfl rfl (by decide)
      | outcome id => exact spells_resource ["v1", "executions"] ["outcome"] h rfl rfl (by decide)
      | execution id => exact spells_resource ["v1", "executions"] [] h rfl rfl (by decide)
      | receipt id => exact spells_resource ["v1", "receipts"] [] h rfl rfl (by decide)
      | acknowledgments id =>
          exact spells_resource ["v1", "receipts"] ["acknowledgments"] h rfl rfl (by decide)
      | authorization id => exact spells_resource ["v1", "authorizations"] [] h rfl rfl (by decide)
      | confirmation id => exact spells_resource ["v1", "confirmations"] [] h rfl rfl (by decide)
      | confirmationStatus id =>
          exact spells_resource ["v1", "confirmations"] ["status"] h rfl rfl (by decide)
      | escalation id => exact spells_resource ["v1", "escalations"] [] h rfl rfl (by decide)
      | escalationResolve id =>
          exact spells_resource ["v1", "escalations"] ["resolve"] h rfl rfl (by decide)
      | policy id => exact spells_resource ["v1", "policies"] [] h rfl rfl (by decide)
      | policyArchive id => exact spells_resource ["v1", "policies"] [] h rfl rfl (by decide)
      | observeEvent id => exact spells_resource ["v1", "observe", "events"] [] h rfl rfl (by decide)
      | execute => exact hfixed ["v1", "execute"] h rfl
      | check wait =>
          cases wait with
          | true => exact hfixed ["v1", "check"] h rfl
          | false => exact hfixed ["v1", "check"] h rfl
      | agentCheck wait =>
          cases wait with
          | true => exact hfixed ["v1", "agent-check"] h rfl
          | false => exact hfixed ["v1", "agent-check"] h rfl
      | budgetSettlements => exact hfixed ["v1", "budget-settlements"] h rfl
      | sealRecord => exact hfixed ["v1", "seal"] h rfl
      | policies => exact hfixed ["v1", "policies"] h rfl
      | policyList => exact hfixed ["v1", "policies"] h rfl
      | policyPreview => exact hfixed ["v1", "setup", "policies", "preview"] h rfl
      | policyPublish => exact hfixed ["v1", "setup", "policies", "publish"] h rfl
      | acknowledgment receiptId acknowledgmentId =>
          simp only [Target.path, Route.path, Option.bind_eq_bind, Option.bind_eq_some_iff,
            Option.pure_def, Option.some.injEq] at h
          rcases h with ⟨start, hstart, q, hq, rfl⟩
          rcases Option.map_eq_some_iff.mp hstart with ⟨p, hp, rfl⟩
          refine ⟨[lit "v1", lit "receipts", p, lit "acknowledgments", q], ?_, ?_⟩
          · exact .cons rfl (.cons rfl (.cons hp (.cons rfl (.cons hq .nil))))
          · have hnone : 63 ∉ lit "/v1/receipts/" ++ p ++ lit "/acknowledgments/" ++ q := by
              rw [List.mem_append, List.mem_append, List.mem_append, not_or, not_or, not_or]
              exact ⟨⟨⟨by decide, quote_question hp⟩, by decide⟩, quote_question hq⟩
            have hstart : lit "/v1/receipts/" = joinPath [lit "v1", lit "receipts"] ++ [47] := rfl
            have hrest : lit "/acknowledgments/" = joinPath [lit "acknowledgments"] ++ [47] := rfl
            rw [partition_none hnone, hstart, hrest]
            simp [joinPath]

/-! ### Which places a path has -/

def Place.isIdent : Place → Bool
  | word _ => false
  | ident _ => true

/-- Where the IDs stand behind a word, in so many places. -/
def identsAfter (w : String) (n : Nat) : List Bool :=
  match n with
  | 1 => [true]
  | 2 => if w = "setup" then [false, false] else if w = "observe" then [false, true] else [true, false]
  | 3 => if w = "receipts" then [true, false, true] else [false, false, true]
  | _ => []

theorem template_start (t : Target) : ∃ w rest, t.template = .word "v1" :: .word w :: rest ∧
    rest.map Place.isIdent = identsAfter w rest.length := by
  cases t with
  | api route => cases route <;> exact ⟨_, _, rfl, rfl⟩
  | delivery id => exact ⟨_, _, rfl, rfl⟩
  | sealReceipt id => exact ⟨_, _, rfl, rfl⟩

/-- Is a fixed word one that stays in the path? -/
def Place.stays : Place → Bool
  | word w => !(lit w).contains 47 && !isDotSegment (lit w)
  | ident _ => true

theorem template_stays (t : Target) : t.template.all Place.stays = true := by
  cases t with
  | api route => cases route <;> rfl
  | delivery id => rfl
  | sealReceipt id => rfl

/-- Where the IDs stand, the path says which they are. -/
theorem spelled_unique {ss : List Str} {ps qs : List Place} (hp : List.Forall₂ SpelledBy ss ps)
    (hq : List.Forall₂ SpelledBy ss qs) (h : ps.map Place.isIdent = qs.map Place.isIdent) : ps = qs := by
  induction hp generalizing qs with
  | nil =>
      cases hq
      rfl
  | @cons s p ss ps hs _ ih =>
      cases hq with
      | @cons _ q _ qs hs' hrest =>
          rw [List.map_cons, List.map_cons, List.cons.injEq] at h
          have hpq : p = q := by
            cases p with
            | word w =>
                cases q with
                | word w' =>
                    rw [SpelledBy, Place.written, Option.some.injEq] at hs hs'
                    rw [lit_inj.mp (hs.trans hs'.symm)]
                | ident i => cases h.1
            | ident i =>
                cases q with
                | word w' => cases h.1
                | ident j =>
                    have hi := unquote_quote hs
                    rw [unquote_quote hs', Option.some.injEq] at hi
                    rw [hi]
          rw [hpq, ih hrest h.2]

/-- The path says which target it is. -/
theorem template_unique {ss : List Str} {t u : Target} (ht : List.Forall₂ SpelledBy ss t.template)
    (hu : List.Forall₂ SpelledBy ss u.template) : t.template = u.template := by
  rcases template_start t with ⟨w, rest, heq, hrest⟩
  rcases template_start u with ⟨w', rest', heq', hrest'⟩
  refine spelled_unique ht hu ?_
  rw [heq] at ht
  rw [heq'] at hu
  have hlength := ht.length_eq.symm.trans hu.length_eq
  rw [List.length_cons, List.length_cons, List.length_cons, List.length_cons] at hlength
  have hw : w = w' := by
    cases ht with
    | cons _ ht =>
        cases ht with
        | cons hw _ =>
            cases hu with
            | cons _ hu =>
                cases hu with
                | cons hw' _ =>
                    rw [SpelledBy, Place.written, Option.some.injEq] at hw hw'
                    exact lit_inj.mp (hw.trans hw'.symm)
  rw [heq, heq', List.map_cons, List.map_cons, List.map_cons, List.map_cons, hrest, hrest', hw,
    show rest.length = rest'.length by omega]

/-! ### What is addressed -/

variable {slash : Bool} {base : BasePath} {path : Str} {t : Target} {ss : List Str}

theorem spelled_slash {s : Str} {p : Place} (h : SpelledBy s p) (hp : p.stays = true) : 47 ∉ s := by
  cases p with
  | word w =>
      rw [SpelledBy, Place.written, Option.some.injEq] at h
      rw [Place.stays, Bool.and_eq_true, Bool.not_eq_true', List.contains_eq_mem,
        decide_eq_false_iff_not, h] at hp
      exact hp.1
  | ident i => exact quote_slash h

theorem spelled_dot {s : Str} {p : Place} (h : SpelledBy s p) (hp : p.stays = true) :
    isDotSegment s = true ↔ ∃ i, p = .ident i ∧ isDotSegment i = true := by
  cases p with
  | word w =>
      rw [SpelledBy, Place.written, Option.some.injEq] at h
      rw [Place.stays, Bool.and_eq_true, Bool.not_eq_true', Bool.not_eq_true', h] at hp
      rw [hp.2]
      refine ⟨fun hd => (by cases hd), ?_⟩
      intro hi
      rcases hi with ⟨i, heq, _⟩
      cases heq
  | ident i =>
      rw [isDotSegment_quote h]
      refine ⟨fun hd => ⟨i, rfl, hd⟩, ?_⟩
      intro hj
      rcases hj with ⟨j, heq, hd⟩
      cases heq
      exact hd

theorem forall₂_mem {A B : Type} {R : A → B → Prop} {as : List A} {bs : List B}
    (h : List.Forall₂ R as bs) {a : A} (ha : a ∈ as) : ∃ b ∈ bs, R a b := by
  induction h with
  | nil => cases ha
  | cons hr _ ih =>
      rcases List.mem_cons.mp ha with rfl | ha
      · exact ⟨_, List.mem_cons_self, hr⟩
      · rcases ih ha with ⟨b, hb, hR⟩
        exact ⟨b, List.mem_cons_of_mem _ hb, hR⟩

theorem forall₂_last {A B : Type} {R : A → B → Prop} {as : List A} {bs : List B} {b : B}
    (h : List.Forall₂ R as (bs ++ [b])) : ∃ front a, as = front ++ [a] ∧ R a b := by
  have hdrop := List.forall₂_drop_append as bs [b] h
  rcases List.forall₂_cons_right_iff.mp hdrop with ⟨a, rest, hR, hnil, hrest⟩
  rw [List.forall₂_nil_right_iff.mp hnil] at hrest
  refine ⟨as.take bs.length, a, ?_, hR⟩
  rw [← hrest, List.take_append_drop]

/-- The segments that are sent. -/
theorem requested_segments (hs : List.Forall₂ SpelledBy ss t.template)
    (hpath : (partition 63 path).1 = joinPath ss) :
    pathSegments (requested slash base path) = sentSegments slash (base.segments ++ ss) := by
  rw [requested, hpath, ← joinPath_append, pathSegments_removeDotSegments]
  intro s hmem
  rcases List.mem_append.mp hmem with hmem | hmem
  · exact base.whole s hmem
  · rcases forall₂_mem hs hmem with ⟨p, hp, hsp⟩
    exact spelled_slash hsp (List.all_eq_true.mp (template_stays t) p hp)

/-- What a plain target sends is what was written. -/
theorem requested_plain (hs : List.Forall₂ SpelledBy ss t.template)
    (hpath : (partition 63 path).1 = joinPath ss) (ht : t.Plain) :
    pathSegments (requested slash base path) = base.segments ++ ss := by
  rw [requested_segments hs hpath, sentSegments_plain]
  intro s hmem
  rcases List.mem_append.mp hmem with hmem | hmem
  · exact base.plain s hmem
  · rcases forall₂_mem hs hmem with ⟨p, hp, hsp⟩
    rw [← Bool.not_eq_true, spelled_dot hsp (List.all_eq_true.mp (template_stays t) p hp)]
    rintro ⟨i, rfl, hi⟩
    rw [ht i hp] at hi
    cases hi

theorem matches_spelled {s : Str} {p : Place} (h : SpelledBy s p) : p.Matches s := by
  cases p with
  | word w => exact (Option.some.inj h).symm
  | ident i => exact unquote_quote h

theorem addresses_plain (hp : t.path = some path) (ht : t.Plain) : Addresses slash base path t := by
  rcases spells_target hp with ⟨ss, hs, hpath⟩
  exact ⟨ss, requested_plain hs hpath ht, hs.imp fun _ _ => matches_spelled⟩

/-- With an ID that is a dot segment there are too few segments, or the last one is empty. -/
theorem plain_of_addresses (hp : t.path = some path) (h : Addresses slash base path t) : t.Plain := by
  rcases spells_target hp with ⟨ss, hs, hpath⟩
  rcases h with ⟨segments, hsegments, hmatches⟩
  rw [requested_segments hs hpath] at hsegments
  intro i hi
  rw [← Bool.not_eq_true]
  intro hdot
  rcases forall₂_mem hs.flip hi with ⟨s, hmem, hsi⟩
  have hsdot : isDotSegment s = true := by
    rw [isDotSegment_quote hsi]
    exact hdot
  have hlt := resolveDots_lt (List.mem_append_right base.segments hmem) hsdot []
  have hlength := congrArg List.length hsegments
  have hsame := hmatches.length_eq.trans hs.length_eq.symm
  rw [List.length_nil, List.length_append] at hlt
  rw [sentSegments, List.length_append, List.length_append] at hlength
  split at hlength
  · next hslash =>
      -- The segment that was added at the end has to be the ID at the end.
      rw [Bool.and_eq_true] at hslash
      rcases List.eq_nil_or_concat t.template with hnil | ⟨places, p, hconcat⟩
      · rw [hnil] at hi
        cases hi
      · rw [List.concat_eq_append] at hconcat
        rw [hconcat] at hs hmatches
        rcases forall₂_last hs with ⟨front, s', rfl, hs'⟩
        rcases forall₂_last hmatches with ⟨front', s'', rfl, hs''⟩
        rw [sentSegments, if_pos (by rw [Bool.and_eq_true]; exact hslash),
          ← List.append_assoc base.segments front' [s'']] at hsegments
        have hlast := List.append_inj' hsegments rfl
        rw [List.cons.injEq] at hlast
        rw [← hlast.2.1] at hs''
        rw [← List.append_assoc, List.getLast?_append_cons] at hslash
        have hp' := List.all_eq_true.mp (template_stays t) p (by rw [hconcat]; simp)
        rcases (spelled_dot hs' hp').mp hslash.2 with ⟨j, rfl, hj⟩
        rw [Place.Matches, unquote, if_neg (by decide), Option.some.injEq] at hs''
        rw [← hs''] at hj
        cases hj
  · rw [List.length_nil] at hlength
    omega

/-- A target is addressed, and no other one with it, exactly when no ID is a dot segment. -/
theorem addressed_iff (hp : t.path = some path) :
    (Addresses slash base path t ∧ ∀ (u : Target) (path' : Str), u.path = some path' → u.Plain →
      requested slash base path' = requested slash base path → u.template = t.template) ↔
    t.Plain := by
  refine ⟨fun h => plain_of_addresses hp h.1, ?_⟩
  intro ht
  refine ⟨addresses_plain hp ht, ?_⟩
  intro u path' hu hplain hsame
  rcases spells_target hp with ⟨ss, hs, hpath⟩
  rcases spells_target hu with ⟨ss', hs', hpath'⟩
  have hsegments : base.segments ++ ss' = base.segments ++ ss := by
    rw [← requested_plain hs' hpath' hplain, ← requested_plain hs hpath ht, hsame]
  rw [List.append_cancel_left hsegments] at hs'
  exact template_unique hs' hs

/-! ### Samples -/

/-- A base URL without a path. -/
def rootPath : BasePath := ⟨[], (by nofun), (by nofun)⟩

/-- An ID with a slash in it is addressed. -/
theorem slash_sample : Addresses false rootPath (lit "/v1/authorizations/..%2Fpolicies%2Fresearch_agent")
    (.api (.authorization (lit "../policies/research_agent"))) :=
  ((addressed_iff (by decide)).mpr (by
    intro i hi
    simp [Target.template, Route.template] at hi
    rw [hi]
    decide)).1

/-- The acknowledgment `..` of a receipt is not addressed. The request goes to the receipt. -/
theorem acknowledgment_redirected : ∃ path receiptPath,
    (Target.api (.acknowledgment (lit "rcp_1") (lit ".."))).path = some path ∧
    (Target.api (.receipt (lit "rcp_1"))).path = some receiptPath ∧
    requested false rootPath path = requested false rootPath receiptPath ∧
    ∀ slash, ¬ Addresses slash rootPath path (.api (.acknowledgment (lit "rcp_1") (lit ".."))) := by
  refine ⟨lit "/v1/receipts/rcp_1/acknowledgments/..", lit "/v1/receipts/rcp_1", by decide,
    by decide, by decide, ?_⟩
  intro slash h
  have hplain := plain_of_addresses (by decide) h (lit "..") (by decide)
  cases hplain

end Allowly
