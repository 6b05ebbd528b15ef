import Allowly.Base.JsonGrammar
import Allowly.Core.SealWebhook
import Allowly.Theory.Response
import Allowly.Theory.Scenario

/-!
# Credentials in API Errors

No error of `Allowly` shows a credential, whatever the answer it was made from. The
words are replaced one after another, and a later replacement cannot bring an
earlier word back: what is put in has brackets at both ends, which no credential
holds, and between them it is too short. So an occurrence in the result is one in
what was left of the text, where the word stood before.

The client of the webhook for seals replaces nothing. Its error is free of the token
if and only if the body did not have it in one of the places the error is made from.

## Main definitions

* `Issued`: A credential as it is issued.
* `Hides`: No text of an error holds the credential.
* `Echoes`: The body has the credential where an error takes its texts from.
* `IsSecret`: The credentials of a client and of a request.

## Theorems

* `infix_of_replace`: Replacing a word brings no other one about.
* `not_infix_replace`: A replaced word does not occur any more.
* `safeErrorText_hides`: No credential stands in a text that was made safe.
* `request_api`: An API error of a request is made from an answer.
* `sealApiError_hides`: When an error of the webhook client is free of the token.
* `credentials_hidden`: When the errors of both clients are free of credentials.
-/

namespace Allowly

open Py Prog

/-- The characters of credentials. -/
def isCredentialChar (c : Nat) : Bool := isAlnum c || c == 46 || c == 95 || c == 45

/-- A credential as it is issued. -/
def Issued (s : Str) : Prop := 9 ≤ s.length ∧ s.all isCredentialChar = true

instance (s : Str) : Decidable (Issued s) := inferInstanceAs (Decidable (_ ∧ _))

/-- No text of an error holds the credential. -/
def Hides (secret code message : Str) (fields : List (Str × Str)) : Prop :=
  ¬ secret <:+: code ∧ ¬ secret <:+: message ∧
    ∀ f ∈ fields, ¬ secret <:+: f.1 ∧ ¬ secret <:+: f.2

/-- An error of the webhook client that does not hold the credential. -/
def SealExc.Hides (repr : Json → Str) (secret : Str) : SealExc → Prop
  | api _ code message fields _ =>
    Allowly.Hides secret (pyStr repr code) (pyStr repr message) fields
  | other _ => True

/-- The member is there, and its text holds the credential. -/
def MemberHolds (repr : Json → Str) (secret : Str) (j : Json) (k : String) : Prop :=
  j.has k = true ∧ secret <:+: pyStr repr (j.get k)

/-- Does a body have the credential where an error takes its texts from? -/
def Echoes (repr : Json → Str) (secret : Str) (body : Json) : Prop :=
  match body.get "error" with
  | .str s => secret <:+: s
  | .obj ms =>
    MemberHolds repr secret (.obj ms) "code" ∨ MemberHolds repr secret (.obj ms) "message" ∨
      ∃ item ∈ fieldItems (.obj ms),
        MemberHolds repr secret item "field" ∨ MemberHolds repr secret item "message"
  | _ => False

/-- The token of the private URL. -/
def SealWebhookClient.token (w : SealWebhookClient) : Str := w.query.drop (lit "token=").length

theorem isCredentialChar_range {c : Nat} (h : isCredentialChar c = true) :
    (48 ≤ c ∧ c ≤ 57) ∨ (65 ≤ c ∧ c ≤ 90) ∨ (97 ≤ c ∧ c ≤ 122) ∨ c = 46 ∨ c = 95 ∨ c = 45 := by
  simp only [isCredentialChar, isAlnum, isUpper, isLower, isDigit, Bool.or_eq_true, Bool.and_eq_true,
    decide_eq_true_eq, beq_iff_eq] at h
  omega

/-- A credential holds no bracket and no space. -/
theorem not_mem_issued {s : Str} (h : Issued s) {c : Nat} (hc : isCredentialChar c = false) :
    c ∉ s := by
  intro hmem
  rw [List.all_eq_true.mp h.2 c hmem] at hc
  cases hc

theorem issued_ne_nil {s : Str} (h : Issued s) : s ≠ [] := by
  intro hs
  rw [hs, Issued] at h
  exact absurd h.1 (by decide)

/-- A credential does not stand in a shorter text. -/
theorem not_infix_short {s t : Str} (h : Issued s) (ht : t.length < 9) : ¬ s <:+: t := by
  intro hs
  have hlen := hs.length_le
  have hissued := h.1
  omega

/-! ### Replacing -/

def redacted : Str := lit "[REDACTED]"

theorem redacted_eq : redacted = 91 :: lit "REDACTED" ++ [93] := by decide

/-- A word that occurs in two texts around a character it does not hold occurs in one
    of them. -/
theorem infix_around {v a b : Str} {c : Nat} (hc : c ∉ v) (h : v <:+: a ++ c :: b) :
    v <:+: a ∨ v <:+: b := by
  rw [List.infix_append_iff] at h
  rcases h with h | h | ⟨t, s, hv, ht, hs⟩
  · exact Or.inl h
  · rw [List.infix_cons_iff] at h
    rcases h with h | h
    · -- A prefix that does not begin with `c` is empty.
      rw [List.prefix_cons_iff] at h
      rcases h with h | ⟨r, hr, _⟩
      · rw [h]
        exact Or.inl (List.nil_infix)
      · rw [hr] at hc
        exact absurd List.mem_cons_self hc
    · exact Or.inr h
  · rw [List.prefix_cons_iff] at hs
    rcases hs with hs | ⟨r, hr, _⟩
    · rw [hs, List.append_nil] at hv
      rw [hv]
      exact Or.inl ht.isInfix
    · rw [hv, hr] at hc
      exact absurd (List.mem_append_right t List.mem_cons_self) hc

/-- What occurs after a replacement occurs in the rest of the text. -/
theorem infix_redacted {v r : Str} (hv : Issued v) (h : v <:+: redacted ++ r) : v <:+: r := by
  rw [redacted_eq, List.append_assoc, List.singleton_append] at h
  have hopen : (91 : Nat) ∉ v := not_mem_issued hv (by decide)
  have hclose : (93 : Nat) ∉ v := not_mem_issued hv (by decide)
  rcases infix_around hclose h with h | h
  · have hword : v <:+: ([] : Str) ∨ v <:+: lit "REDACTED" := infix_around hopen h
    rcases hword with hword | hword
    · exact absurd hword (not_infix_short hv (by decide))
    · exact absurd hword (not_infix_short hv (by decide))
  · exact h

/-- What a text begins with after a replacement, it began with before, as far as
    there is no bracket. -/
theorem prefix_of_replace (old : Str) (n : Nat) (s : Str) {u : Str} (hu : 91 ∉ u)
    (h : u <+: replaceFrom old redacted n s) : u <+: s := by
  induction n generalizing s u with
  | zero => exact h
  | succ n ih =>
      cases s with
      | nil => exact h
      | cons c s =>
          rw [replaceFrom] at h
          cases hdrop : dropWord old (c :: s) with
          | none =>
              simp only [hdrop, List.prefix_cons_iff] at h
              rcases h with h | ⟨r, hr, hrs⟩
              · rw [h]
                exact List.nil_prefix
              · rw [hr, List.mem_cons, not_or] at hu
                rw [hr, List.prefix_cons_inj]
                exact ih s hu.2 hrs
          | some r =>
              simp only [hdrop, redacted_eq, List.cons_append, List.prefix_cons_iff] at h
              rcases h with h | ⟨r', hr', _⟩
              · rw [h]
                exact List.nil_prefix
              · rw [hr'] at hu
                exact absurd List.mem_cons_self hu

/-- Replacing a word brings no credential about. -/
theorem infix_of_replace {v : Str} (hv : Issued v) (old : Str) (n : Nat) (s : Str)
    (h : v <:+: replaceFrom old redacted n s) : v <:+: s := by
  induction n generalizing s with
  | zero => exact h
  | succ n ih =>
      cases s with
      | nil => exact h
      | cons c s =>
          have hwhole := h
          rw [replaceFrom] at h
          cases hdrop : dropWord old (c :: s) with
          | none =>
              simp only [hdrop, List.infix_cons_iff] at h
              rcases h with h | h
              · -- The word stands at the front, where it was before.
                have hfront : v <+: replaceFrom old redacted (n + 1) (c :: s) := by
                  rw [replaceFrom]
                  simp only [hdrop]
                  exact h
                have hopen : (91 : Nat) ∉ v := not_mem_issued hv (by decide)
                exact (prefix_of_replace old (n + 1) (c :: s) hopen hfront).isInfix
              · exact (ih s h).trans (List.suffix_cons c s).isInfix
          | some r =>
              simp only [hdrop] at h
              have hrest := ih r (infix_redacted hv h)
              rw [dropWord_iff] at hdrop
              rw [hdrop]
              exact hrest.trans (List.suffix_append old r).isInfix

/-- A replaced word does not occur any more. -/
theorem not_infix_replace {v : Str} (hv : Issued v) (n : Nat) (s : Str) (hn : s.length ≤ n) :
    ¬ v <:+: replaceFrom v redacted n s := by
  induction n generalizing s with
  | zero =>
      intro h
      rw [List.eq_nil_of_length_eq_zero (Nat.le_zero.mp hn)] at h
      exact not_infix_short hv (t := []) (by decide) h
  | succ n ih =>
      intro h
      cases s with
      | nil => exact not_infix_short hv (t := []) (by decide) h
      | cons c s =>
          rw [List.length_cons] at hn
          have hopen : (91 : Nat) ∉ v := not_mem_issued hv (by decide)
          have hstep := h
          rw [replaceFrom] at hstep
          cases hdrop : dropWord v (c :: s) with
          | none =>
              simp only [hdrop, List.infix_cons_iff] at hstep
              rcases hstep with hfront | hrest
              · have hprefix : v <+: replaceFrom v redacted (n + 1) (c :: s) := by
                  rw [replaceFrom]
                  simp only [hdrop]
                  exact hfront
                -- The word would have been found here.
                rcases prefix_of_replace v (n + 1) (c :: s) hopen hprefix with ⟨r, hr⟩
                rw [(dropWord_iff v (c :: s) r).mpr hr.symm] at hdrop
                cases hdrop
              · exact ih s (by omega) hrest
          | some r =>
              simp only [hdrop] at hstep
              rw [dropWord_iff] at hdrop
              have hlen : c :: s = v ++ r := hdrop
              have hlength := congrArg List.length hlen
              have hpos := hv.1
              rw [List.length_cons, List.length_append] at hlength
              exact ih r (by omega) (infix_redacted hv hstep)

/-! ### The errors of `Allowly` -/

/-- No credential stands in a text that was made safe. -/
theorem safeErrorText_hides {sensitive : List Str} {v : Str} (hv : Issued v) (hmem : v ∈ sensitive)
    (value : Json) (fallback : String) : ¬ v <:+: safeErrorText sensitive value fallback := by
  have hfold (words : List Str) (s : Str) (h : v ∈ words ∨ ¬ v <:+: s) :
      ¬ v <:+: words.foldl (fun rendered w => replaceFrom w redacted rendered.length rendered) s := by
    induction words generalizing s with
    | nil =>
        rcases h with h | h
        · cases h
        · exact h
    | cons w words ih =>
        rw [List.foldl_cons]
        refine ih _ ?_
        rcases h with h | h
        · rcases List.mem_cons.mp h with h | h
          · rw [← h]
            exact Or.inr (not_infix_replace hv s.length s (Nat.le_refl _))
          · exact Or.inl h
        · exact Or.inr fun hin => h (infix_of_replace hv w s.length s hin)
  exact hfold sensitive _ (Or.inl hmem)

/-- The agent token a request carries. -/
def requestToken (headers : List (Str × Str)) : Option Str :=
  (headers.find? fun h => h.1 == agentTokenHeader).map Prod.snd

/-- A credential of the client or of the request. -/
def IsSecret (c : Client) (headers : List (Str × Str)) (v : Str) : Prop :=
  v = c.apiKey ∨ c.edgeToken = some v ∨ requestToken headers = some v

def Exc.isApi : Exc → Bool
  | api .. => true
  | _ => false

/-- The HTTP client raises errors of its own, and no `AllowlyAPIError`. -/
def OwnFaults (t : List ((o : Op) × Except Fault o.Answer)) : Prop :=
  ∀ e ∈ t, ∀ y, e.2 = .error y → y.1.isApi = false

theorem mem_sensitiveValues {c : Client} {headers : List (Str × Str)} {v : Str} (hv : Issued v)
    (h : IsSecret c headers v) : v ∈ sensitiveValues c headers := by
  have hmem : some v ∈ [some c.apiKey, c.edgeToken, requestToken headers] := by
    rcases h with h | h | h
    · rw [h]
      exact List.mem_cons_self
    · rw [h]
      exact List.mem_cons_of_mem _ List.mem_cons_self
    · rw [h]
      exact List.mem_cons_of_mem _ (List.mem_cons_of_mem _ List.mem_cons_self)
  refine List.mem_filterMap.mpr ⟨some v, hmem, ?_⟩
  cases v with
  | nil => exact absurd rfl (issued_ne_nil hv)
  | cons x xs => rfl

theorem apiError_hides {L : Libs} {sensitive : List Str} {v : Str} (hv : Issued v)
    (hmem : v ∈ sensitive) {resp : ApiResponse} {data : Json} {status : Nat} {code message : Str}
    {fields : List (Str × Str)} {retryAfter : Option Float64}
    (h : apiError L sensitive resp data = .api status code message fields retryAfter) :
    Hides v code message fields := by
  rw [apiError, Exc.api.injEq] at h
  rcases h with ⟨_, hcode, hmessage, hfields, _⟩
  refine ⟨?_, ?_, ?_⟩
  · rw [← hcode]
    exact safeErrorText_hides hv hmem _ _
  · rw [← hmessage]
    exact safeErrorText_hides hv hmem _ _
  · intro f hf
    rw [← hfields] at hf
    split at hf
    · rcases List.mem_map.mp hf with ⟨item, _, hitem⟩
      rw [← hitem]
      exact ⟨safeErrorText_hides hv hmem _ _, safeErrorText_hides hv hmem _ _⟩
    · cases hf

/-- An API error is made from an unsuccessful answer. -/
theorem readResponse_api {L : Libs} {sensitive : List Str} {expected : List Nat}
    {resp : ApiResponse} {x : Exc} (hx : x.isApi = true)
    (h : readResponse L sensitive expected resp = .error x) :
    ∃ data, apiError L sensitive resp data = x := by
  unfold readResponse at h
  split at h
  · rw [Except.error.injEq] at h
    rw [← h] at hx
    cases hx
  split at h
  · cases h
  split at h
  · split at h
    · rw [protocolError, Except.error.injEq] at h
      rw [← h] at hx
      cases hx
    · rw [Except.error.injEq] at h
      exact ⟨_, h⟩
  · split at h
    · cases h
    · rw [Except.error.injEq] at h
      exact ⟨_, h⟩

theorem ask_own {o : Op} {t : List ((o : Op) × Except Fault o.Answer)} {x : Exc}
    (ht : OwnFaults t) (h : Traces (ask o) t (.error x)) : x.isApi = false := by
  rcases traces_perform.mp h with ⟨b, hb, hx⟩
  cases b with
  | ok v => cases hx
  | error y =>
      rw [Except.mapError, Except.error.injEq] at hx
      rw [hx]
      exact ht _ (by rw [hb]; exact List.mem_cons_self) y rfl

theorem send_own {r : ApiRequest} {t : List ((o : Op) × Except Fault o.Answer)} {x : Exc}
    (ht : OwnFaults t) (h : Traces (send r) t (.error x)) : x.isApi = false := by
  rcases traces_bind.mp h with ⟨y, hy, _⟩ | ⟨answer, t₁, t₂, ha, hrest, hsplit⟩
  · rcases traces_attempt.mp hy with ⟨s, hs, _⟩
    cases hs
  have ht₁ : OwnFaults t₁ := fun e he => ht e (by rw [hsplit]; exact List.mem_append_left t₂ he)
  have ht₂ : OwnFaults t₂ := fun e he => ht e (by rw [hsplit]; exact List.mem_append_right t₁ he)
  rcases traces_attempt.mp ha with ⟨s, hs, hask⟩
  rw [Except.ok.injEq] at hs
  rw [← hs] at hask
  split at hrest
  · cases hrest.2
  · split at hrest
    · exact ask_own ht₂ hrest
    · rcases hrest with ⟨_, hx⟩
      rw [Except.error.injEq] at hx
      rw [hx]
      rfl
  · rcases hrest with ⟨_, hx⟩
    rw [Except.error.injEq] at hx
    rw [hx]
    exact ask_own ht₁ hask

/-- The errors of a request are made from an answer. -/
theorem request_api {L : Libs} {c : Client} {route : Route} {path : Str} {json : Option Json}
    {headers : List (Str × Str)} {expected : List Nat}
    {t : List ((o : Op) × Except Fault o.Answer)} {x : Exc} (ht : OwnFaults t)
    (hx : x.isApi = true)
    (h : Traces (requestWithHeaders L c route path json headers expected) t (.error x)) :
    ∃ resp data, apiError L (sensitiveValues c headers) resp data = x := by
  unfold requestWithHeaders at h
  split at h
  · rcases h with ⟨_, hr⟩
    rw [Except.error.injEq] at hr
    rw [hr] at hx
    cases hx
  split at h
  · rcases h with ⟨_, hr⟩
    rw [Except.error.injEq] at hr
    rw [hr] at hx
    cases hx
  rcases traces_bind.mp h with ⟨y, hy, hr⟩ | ⟨resp, t₁, t₂, hsend, hrest, hsplit⟩
  · rw [Except.error.injEq] at hr
    rw [hr, send_own ht hy] at hx
    cases hx
  · rcases traces_bind.mp hrest with ⟨y, hy, hr⟩ | ⟨data, t₃, t₄, _, hret, _⟩
    · rw [Except.error.injEq] at hr
      rcases traces_ofExcept.mp hy with ⟨_, hread⟩
      rw [← hr] at hread
      rcases readResponse_api hx hread.symm with ⟨data, hdata⟩
      exact ⟨resp, data, hdata⟩
    · cases hret.2

/-! ### The errors of the webhook client -/

/-- A member with a default holds a credential where it is there and holds it. -/
theorem getOr_holds {repr : Json → Str} {v d : Str} (hd : ¬ v <:+: d) (j : Json) (k : String) :
    v <:+: pyStr repr (getOr j k (.str d)) ↔ MemberHolds repr v j k := by
  rw [getOr, MemberHolds]
  by_cases hhas : j.has k = true
  · rw [if_pos hhas]
    exact ⟨fun h => ⟨hhas, h⟩, fun h => h.2⟩
  · rw [if_neg hhas]
    exact ⟨fun h => absurd h hd, fun h => absurd h.1 hhas⟩

theorem not_infix_unknown {v : Str} (hv : Issued v) : ¬ v <:+: lit "Unknown error" := by
  intro h
  have hspace : (32 : Nat) ∉ v := not_mem_issued hv (by decide)
  have hwords : lit "Unknown error" = lit "Unknown" ++ 32 :: lit "error" := by decide
  rw [hwords] at h
  rcases infix_around hspace h with h | h
  · exact not_infix_short hv (by decide) h
  · exact not_infix_short hv (by decide) h

/-- An error made from an object holds what the object holds in its places. -/
theorem errorObject_hides {repr : Json → Str} {v : Str} (hv : Issued v) (error : Json) :
    Hides v (pyStr repr (getOr error "code" (.str (lit "error"))))
      (pyStr repr (getOr error "message" (.str (lit "Unknown error"))))
      ((fieldItems error).map fun item => (pyStr repr (getOr item "field" (.str [])),
        pyStr repr (getOr item "message" (.str [])))) ↔
    ¬ (MemberHolds repr v error "code" ∨ MemberHolds repr v error "message" ∨
      ∃ item ∈ fieldItems error,
        MemberHolds repr v item "field" ∨ MemberHolds repr v item "message") := by
  have hcode : ¬ v <:+: lit "error" := not_infix_short hv (by decide)
  have hempty : ¬ v <:+: [] := not_infix_short hv (by decide)
  rw [Hides, getOr_holds hcode, getOr_holds (not_infix_unknown hv), not_or, not_or]
  refine and_congr_right fun _ => and_congr_right fun _ => ?_
  constructor
  · intro h hitem
    rcases hitem with ⟨item, hitem, hholds⟩
    have hfield := h _ (List.mem_map.mpr ⟨item, hitem, rfl⟩)
    rw [getOr_holds hempty, getOr_holds hempty] at hfield
    rcases hholds with hholds | hholds
    · exact hfield.1 hholds
    · exact hfield.2 hholds
  · intro h f hf
    rcases List.mem_map.mp hf with ⟨item, hitem, hfield⟩
    rw [← hfield, getOr_holds hempty, getOr_holds hempty]
    exact ⟨fun hholds => h ⟨item, hitem, Or.inl hholds⟩,
      fun hholds => h ⟨item, hitem, Or.inr hholds⟩⟩

theorem sealApiError_hides {L : Libs} {repr : Json → Str} {v : Str} (hv : Issued v)
    (resp : ApiResponse) (data : Json) :
    (sealApiError L repr resp data).Hides repr v ↔ ¬ Echoes repr v data := by
  rw [sealApiError, SealExc.Hides, errorObject_hides hv, Echoes]
  refine not_congr ?_
  have hnone (k : String) : ¬ MemberHolds repr v (.obj []) k := fun h => by cases h.1
  rw [errorObject]
  generalize data.get "error" = error
  have hother : (MemberHolds repr v (.obj []) "code" ∨ MemberHolds repr v (.obj []) "message" ∨
      ∃ item ∈ fieldItems (.obj []),
        MemberHolds repr v item "field" ∨ MemberHolds repr v item "message") ↔ False := by
    refine ⟨?_, False.elim⟩
    rintro (h | h | ⟨item, hitem, _⟩)
    · exact hnone _ h
    · exact hnone _ h
    · cases hitem
  cases error with
  | str text =>
      -- Only the message is there.
      constructor
      · rintro (⟨h, _⟩ | h | ⟨item, hitem, _⟩)
        · cases h
        · exact h.2
        · cases hitem
      · intro h
        exact Or.inr (Or.inl ⟨rfl, h⟩)
  | obj ms => exact Iff.rfl
  | _ => exact hother

/-- An unsuccessful answer is turned into an error made from its body. -/
theorem readSealAnswer_error {L : Libs} {repr : Json → Str} {expected : List Nat}
    {resp : ApiResponse} (h : resp.isSuccess = false) :
    readSealAnswer L repr expected (.ok resp) =
      .error (sealApiError L repr resp ((loadsBytes resp.content).getD (.obj []))) := by
  rw [readSealAnswer]
  simp only [h, Bool.false_eq_true, false_and, if_false]
  cases loadsBytes resp.content with
  | none => rfl
  | some data => rfl

/-- No error of `Allowly` shows a credential. An error of the webhook client is free of
    the token exactly if the body did not have it in the places it is made from. -/
theorem credentials_hidden (L : Libs) (repr : Json → Str) :
    (∀ (c : Client) (route : Route) (path : Str) (json : Option Json) (headers : List (Str × Str))
        (expected : List Nat) (t : List ((o : Op) × Except Fault o.Answer)) (status : Nat)
        (code message : Str) (fields : List (Str × Str)) (retryAfter : Option Float64),
      OwnFaults t →
      Traces (requestWithHeaders L c route path json headers expected) t
        (.error (.api status code message fields retryAfter)) →
      ∀ secret, IsSecret c headers secret → Issued secret → Hides secret code message fields) ∧
    ∀ (w : SealWebhookClient) (expected : List Nat) (resp : ApiResponse), resp.isSuccess = false →
      Issued w.token →
      ((∃ e, readSealAnswer L repr expected (.ok resp) = .error e ∧ e.Hides repr w.token) ↔
        ¬ Echoes repr w.token ((loadsBytes resp.content).getD (.obj []))) := by
  constructor
  · intro c route path json headers expected t status code message fields retryAfter ht h secret
      hsecret hissued
    rcases request_api ht (by rfl) h with ⟨resp, data, herror⟩
    exact apiError_hides hissued (mem_sensitiveValues hissued hsecret) herror
  · intro w expected resp hresp hissued
    rw [readSealAnswer_error hresp, ← sealApiError_hides (L := L) hissued resp]
    constructor
    · intro ⟨e, he, hhides⟩
      rw [Except.error.injEq] at he
      rw [he]
      exact hhides
    · intro h
      exact ⟨_, rfl, h⟩

example : safeErrorText [lit "sk_live_0123", lit "agt_0123456"]
    (.str (lit "agt_0123456 of sk_live_sk_live_0123")) "" =
      lit "[REDACTED] of sk_live_[REDACTED]" := by
  decide

/-- A private URL. -/
def privateUrl : Str := lit "https://api.example.com/v1/seal/webhooks?token=swh_0123456789"

/-- An answer that repeats the URL of the request. -/
def echoingAnswer : ApiResponse where
  status := 404
  headers := []
  content := (lit "\x7b\"error\": \x7b\"code\": \"not_found\", \"message\": \"no route for " ++
    privateUrl ++ lit "\"\x7d\x7d").map UInt8.ofNat

theorem token_echoed : ∃ w e, SealWebhookClient.ofUrl privateUrl false = .ok w ∧ Issued w.token ∧
    echoingAnswer.isSuccess = false ∧
    readSealAnswer sampleLibs (fun _ => []) [200] (.ok echoingAnswer) = .error e ∧
    ¬ e.Hides (fun _ => []) w.token := by
  have hclient : (SealWebhookClient.ofUrl privateUrl false).toOption =
      some ⟨privateUrl, lit "https://api.example.com", lit "token=swh_0123456789"⟩ := by
    decide +kernel
  refine ⟨_, _, ok_of_toOption hclient, by decide, rfl, readSealAnswer_error rfl, ?_⟩
  have hbody : (loadsBytes echoingAnswer.content).getD (.obj []) = .ofList [("error",
      .ofList [("code", .str (lit "not_found")),
        ("message", .str (lit "no route for " ++ privateUrl))])] := by
    decide +kernel
  rw [hbody, sealApiError_hides (by decide), not_not]
  exact Or.inr (Or.inl ⟨rfl, lit "no route for https://api.example.com/v1/seal/webhooks?token=", [],
    by decide⟩)

end Allowly
