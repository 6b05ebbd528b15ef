import Allowly.Base.Trail
import Allowly.Core.Keys
import Allowly.Theory.Response

/-!
# What the Cache of Key Documents Serves

Any number of calls, with any arguments, share one cache, and may be interleaved, cut short
or answered with anything. A document that is returned has passed every check of the call
that returns it, though it may have been fetched by another one.

The key of the cache says less than the arguments do. It names the workspace only through
the URL, which has to be taken apart again, and it leaves the flag for insecure URLs out,
which is why that is checked before the cache is looked at. The lifetime is part of the
key, so the entry expires when the call that reads it wants it to.

## Main definitions

* `Vouched`: What a call wants of an answer and of the document in it.
* `KeysAt`, `KeysEdge`, `keysEnds`: The points of a call, and how it goes from one to the next.
* `Source`: The call that fetched a document, and what it saw.
* `Served`: Where a document that is returned comes from.

## Theorems

* `keysUrl_injective`: The URL determines the workspace.
* `vouched_of_source`: The checks of the call that fetched are those of the call that reads.
* `fetch_follows`: The code goes from point to point.
* `preserves_keys`: The invariant.
* `served_vouched`: Every document that is returned comes from an answer that was vouched for
  and has not expired.
* `fetch_frame`: A call changes at most the entry under its own key, and only when it returns.
-/

namespace Allowly

open Py Prog Interleave

variable {K : KeysLibs}

abbrev KeysEvent : Type :=
  Event KeysOp KeysOp.Answer KeysFault KeysExc (Option Json) KeysCommand Unit

/-! ### The URL -/

theorem partition_append {c : Nat} {s : Str} (h : c ∉ s) (t : Str) :
    partition c (s ++ c :: t) = (s, some t) := by
  induction s with
  | nil => simp [partition]
  | cons d s ih =>
      rw [List.mem_cons, not_or] at h
      rw [List.cons_append, partition, if_neg (Ne.symm h.1), ih h.2]

theorem rpartition_append {c : Nat} {s : Str} (h : c ∉ s) (a : Str) :
    rpartition c (a ++ c :: s) = (some a, s) := by
  have hreverse : (a ++ c :: s).reverse = s.reverse ++ c :: a.reverse := by
    rw [List.reverse_append, List.reverse_cons, List.append_assoc, List.singleton_append]
  have hs : c ∉ s.reverse := by
    rw [List.mem_reverse]
    exact h
  rw [rpartition, hreverse, partition_append hs]
  simp only [List.reverse_reverse]

/-- A text is split in one way at its last slash. -/
theorem slash_split {a b s t : Str} (hs : 47 ∉ s) (ht : 47 ∉ t) (h : a ++ 47 :: s = b ++ 47 :: t) :
    a = b ∧ s = t := by
  have hparts : rpartition 47 (a ++ 47 :: s) = rpartition 47 (b ++ 47 :: t) := by rw [h]
  rw [rpartition_append hs, rpartition_append ht, Prod.mk.injEq, Option.some.injEq] at hparts
  exact hparts

/-- The URL determines the workspace. -/
theorem keysUrl_injective {b b' w w' url : Str} (h : keysUrl b w = some url)
    (h' : keysUrl b' w' = some url) : w = w' ∧ stripSlashes b = stripSlashes b' := by
  rcases Option.map_eq_some_iff.mp h with ⟨q, hq, hurl⟩
  rcases Option.map_eq_some_iff.mp h' with ⟨q', hq', hurl'⟩
  rw [← hurl'] at hurl
  have htail := List.append_cancel_right hurl
  have hword : lit "/v1/workspaces/" = lit "/v1/workspaces" ++ [47] := rfl
  rw [hword, ← List.append_assoc, List.append_assoc _ [47] q, ← List.append_assoc (stripSlashes b'),
    List.append_assoc _ [47] q'] at htail
  rcases slash_split (quote_slash hq) (quote_slash hq') htail with ⟨hbase, hquote⟩
  refine ⟨?_, List.append_cancel_right hbase⟩
  have hsame : unquote q = unquote q' := by rw [hquote]
  rw [unquote_quote hq, unquote_quote hq', Option.some.injEq] at hsame
  exact hsame

/-! ### The checks -/

/-- What a call wants of an answer and of the document in it. -/
structure Vouched (K : KeysLibs) (c : KeysCall) (url : Str) (r : KeysResponse) (doc : Json) :
    Prop where
  asked : keysUrl c.baseUrl c.workspaceId = some url
  secure : (∃ parsed, urlsplit url = some parsed ∧ parsed.scheme = lit "https") ∨
    c.allowInsecure = true
  status : r.status = 200
  final : r.url = K.normalUrl url
  pinned : ∀ pin, c.expectedSha256 = some pin → hexdigest r.content = lower K.lowerOther pin
  decoded : ∃ text, decode false r.content = some text ∧ loads text = some doc
  workspace : doc.isObj = true → doc.get "workspace_id" = .str c.workspaceId
  loaded : K.loadKeys doc = none

theorem of_keys_error {A : Type} {c : Prop} [Decidable c] {x : KeysExc} {r : Except KeysExc A}
    {a : A} (h : (if c then .error x else r) = .ok a) : ¬ c ∧ r = .ok a := by
  by_cases hc : c
  · rw [if_pos hc] at h
    cases h
  · rw [if_neg hc] at h
    exact ⟨hc, h⟩

theorem keysKey_eq_ok {c : KeysCall} {key : KeysKey} (h : keysKey K c = .ok key) :
    keysUrl c.baseUrl c.workspaceId = some key.url ∧ key.expectedSha256 = c.expectedSha256 ∧
      key.cacheTtlSeconds = c.cacheTtlSeconds ∧
      ((∃ parsed, urlsplit key.url = some parsed ∧ parsed.scheme = lit "https") ∨
        c.allowInsecure = true) := by
  unfold keysKey at h
  split at h
  · cases h
  · next url hurl =>
      split at h
      · cases h
      · next parsed hparsed =>
          rcases of_keys_error h with ⟨_, h⟩
          rcases of_keys_error h with ⟨_, h⟩
          rcases of_keys_error h with ⟨_, h⟩
          rcases of_keys_error h with ⟨hsecure, h⟩
          cases h
          refine ⟨hurl, rfl, rfl, ?_⟩
          rw [not_and_or, ne_eq, not_not, Bool.not_eq_false] at hsecure
          rcases hsecure with hscheme | hflag
          · exact Or.inl ⟨parsed, hparsed, hscheme⟩
          · exact Or.inr hflag

theorem readKeys_eq_ok {c : KeysCall} {url : Str} {r : KeysResponse} {doc : Json}
    (h : readKeys K c url r = .ok doc) : r.status = 200 ∧ r.url = K.normalUrl url ∧
      (∀ pin, c.expectedSha256 = some pin → hexdigest r.content = lower K.lowerOther pin) ∧
      (∃ text, decode false r.content = some text ∧ loads text = some doc) ∧
      (doc.isObj = true → doc.get "workspace_id" = .str c.workspaceId) ∧
      K.loadKeys doc = none := by
  unfold readKeys at h
  rcases of_keys_error h with ⟨hstatus, h⟩
  rcases of_keys_error h with ⟨hfinal, h⟩
  simp only at h
  rcases of_keys_error h with ⟨hpinned, h⟩
  rw [ne_eq, not_not] at hstatus hfinal
  refine ⟨hstatus, hfinal, ?_, ?_⟩
  · intro pin hpin
    rw [hpin] at hpinned
    simpa using hpinned
  · split at h
    · cases h
    · next text htext =>
        split at h
        · cases h
        · next value hvalue =>
            rcases of_keys_error h with ⟨hworkspace, h⟩
            split at h
            · cases h
            · next hloaded =>
                cases h
                refine ⟨⟨text, htext, hvalue⟩, ?_, hloaded⟩
                intro hobj
                by_contra hne
                exact hworkspace ⟨hobj, hne⟩

/-- The checks of a call under the same key are the same checks. -/
theorem vouched_of_source {c c' : KeysCall} {key : KeysKey} {r : KeysResponse} {doc : Json}
    (h : keysKey K c = .ok key) (h' : keysKey K c' = .ok key)
    (hread : readKeys K c' key.url r = .ok doc) : Vouched K c key.url r doc := by
  rcases keysKey_eq_ok h with ⟨hurl, hpin, _, hsecure⟩
  rcases keysKey_eq_ok h' with ⟨hurl', hpin', _, _⟩
  rcases readKeys_eq_ok hread with ⟨hstatus, hfinal, hpinned, hdecoded, hworkspace, hloaded⟩
  rw [← (keysUrl_injective hurl hurl').1] at hworkspace
  rw [← hpin', hpin] at hpinned
  exact { asked := hurl, secure := hsecure, status := hstatus, final := hfinal, pinned := hpinned,
          decoded := hdecoded, workspace := hworkspace, loaded := hloaded }

/-! ### The points of a call -/

/-- Where a call has got to. -/
inductive KeysAt where
  | start (c : KeysCall)
  | looked (c : KeysCall) (key : KeysKey) (found : Option KeysEntry)
  | timed (c : KeysCall) (key : KeysKey) (found : Option KeysEntry) (now : Reading)
  | answered (c : KeysCall) (key : KeysKey) (now : Reading) (r : KeysResponse)
  | stored (c : KeysCall) (key : KeysKey) (now : Reading) (r : KeysResponse) (doc : Json)
  | failed
  | clearing
  | cleared

inductive KeysEdge (K : KeysLibs) :
    KeysAt → (o : KeysOp) → Except KeysFault o.Answer → KeysAt → Prop where
  | look (c : KeysCall) (key : KeysKey) (found : Option KeysEntry) (h : keysKey K c = .ok key) :
      KeysEdge K (.start c) (.look key) (.ok found) (.looked c key found)
  | time (c : KeysCall) (key : KeysKey) (found : Option KeysEntry) (now : Reading) :
      KeysEdge K (.looked c key found) .time (.ok now) (.timed c key found now)
  | get (c : KeysCall) (key : KeysKey) (found : Option KeysEntry) (now : Reading)
      (r : KeysResponse) :
      KeysEdge K (.timed c key found now) (.get key.url (edgeHeaders c.edgeToken)) (.ok r)
        (.answered c key now r)
  | store (c : KeysCall) (key : KeysKey) (now : Reading) (r : KeysResponse) (expires : Float64)
      (doc : Json) (hread : readKeys K c key.url r = .ok doc)
      (hexpires : keysExpiry now c.cacheTtlSeconds = .ok expires) :
      KeysEdge K (.answered c key now r) (.store key (expires, doc)) (.ok ())
        (.stored c key now r doc)
  | clear : KeysEdge K .clearing .clear (.ok ()) .cleared
  | fault (q : KeysAt) (o : KeysOp) (y : KeysFault) : KeysEdge K q o (.error y) .failed

/-- The documents a call can end with. -/
def KeysAt.serves : KeysAt → Json → Prop
  | timed _ _ found now, doc => ∃ expires, found = some (expires, doc) ∧ now.float.lt expires = true
  | stored _ _ _ _ kept, doc => doc = kept
  | _, _ => False

/-- How a call ends. -/
def keysEnds (q : KeysAt) : Except KeysExc (Option Json) → Prop
  | .ok (some doc) => q.serves doc
  | .ok none => q = .cleared
  | .error _ => True

def firstKeysAt : KeysCommand → KeysAt
  | .fetch c => .start c
  | .clear => .clearing

theorem follows_keysDo {o : KeysOp} {q : KeysAt} {M : KeysAt → o.Answer → Prop}
    (hok : ∀ a, ∃ q', KeysEdge K q o (.ok a) q' ∧ M q' a) :
    Follows (KeysEdge K) (keysDo o) q fun q r => ∀ a, r = .ok a → M q a := by
  refine follows_perform ?_
  intro r
  cases r with
  | ok a =>
      rcases hok a with ⟨q', he, hM⟩
      refine ⟨q', he, ?_⟩
      intro b hb
      cases hb
      exact hM
  | error y =>
      refine ⟨.failed, .fault q o y, ?_⟩
      intro b hb
      cases hb

/-- A part of a call that gives a document, or raises. -/
def Gives (q : KeysAt) (r : Except KeysExc Json) : Prop := ∀ doc, r = .ok doc → q.serves doc

theorem gives_error (q : KeysAt) (x : KeysExc) : Gives q (.error x) := by
  intro doc h
  cases h

theorem fresh_follows (c : KeysCall) (key : KeysKey) (found : Option KeysEntry) (now : Reading) :
    Follows (KeysEdge K) (fetchFresh K c key now) (.timed c key found now) Gives := by
  refine follows_bind (follows_keysDo (o := .get key.url (edgeHeaders c.edgeToken))
    (M := fun q (r : KeysResponse) => q = .answered c key now r) ?_) ?_
    fun q x _ => gives_error q x
  · intro r
    exact ⟨_, .get c key found now r, rfl⟩
  · intro q r hq
    rw [hq r rfl]
    cases hread : readKeys K c key.url r with
    | error x => exact gives_error _ x
    | ok doc =>
        cases hexpires : keysExpiry now c.cacheTtlSeconds with
        | error x => exact gives_error _ x
        | ok expires =>
            change Follows (KeysEdge K) (keysDo (.store key (expires, doc)) >>= fun _ => pure doc) _ _
            refine follows_bind (follows_keysDo (o := .store key (expires, doc))
              (M := fun q _ => q = .stored c key now r doc) ?_) ?_ fun q x _ => gives_error q x
            · intro a
              exact ⟨_, .store c key now r expires doc hread hexpires, rfl⟩
            · intro q a hq
              rw [hq a rfl]
              intro d hd
              cases hd
              rfl

theorem fetch_follows (c : KeysCommand) :
    Follows (KeysEdge K) ((keysSystem K).code c) (firstKeysAt c) keysEnds := by
  cases c with
  | clear =>
      refine follows_bind (follows_keysDo (o := .clear) (M := fun q _ => q = .cleared) ?_) ?_
        fun q x _ => trivial
      · intro a
        exact ⟨_, .clear, rfl⟩
      · intro q a hq
        exact hq a rfl
  | fetch c =>
      refine follows_bind (M := Gives) ?_ ?_ fun q x _ => trivial
      · change Follows (KeysEdge K) (fetchKeysDoc K c) (.start c) Gives
        unfold fetchKeysDoc
        cases hkey : keysKey K c with
        | error x => exact gives_error _ x
        | ok key =>
            change Follows (KeysEdge K) (keysDo (.look key) >>= _) _ _
            refine follows_bind (follows_keysDo (o := .look key)
              (M := fun q (found : Option KeysEntry) => q = .looked c key found) ?_) ?_
              fun q x _ => gives_error q x
            · intro found
              exact ⟨_, .look c key found hkey, rfl⟩
            · intro q found hq
              rw [hq found rfl]
              refine follows_bind (follows_keysDo (o := .time)
                (M := fun q (now : Reading) => q = .timed c key found now) ?_) ?_
                fun q x _ => gives_error q x
              · intro now
                exact ⟨_, .time c key found now, rfl⟩
              · intro q now hq
                rw [hq now rfl]
                cases hfound : (found : Option KeysEntry) with
                | none => exact fresh_follows c key none now
                | some entry =>
                    simp only
                    split
                    · next hfresh =>
                        intro d hd
                        cases hd
                        exact ⟨entry.1, rfl, hfresh⟩
                    · exact fresh_follows c key (some entry) now
      · intro q doc hq
        exact hq doc rfl

/-! ### What a run keeps -/

/-- What a call has seen, at a point of it. -/
def KeysTrail (K : KeysLibs) (a root : Nat) : KeysAt → List KeysEvent → Prop
  | .start c, h => .began a root (.fetch c) ∈ h
  | .looked c key _, h => .began a root (.fetch c) ∈ h ∧ keysKey K c = .ok key
  | .timed c key _ now, h =>
    .began a root (.fetch c) ∈ h ∧ keysKey K c = .ok key ∧ .did a root .time (.ok now) ∈ h
  | .answered c key now r, h =>
    .began a root (.fetch c) ∈ h ∧ keysKey K c = .ok key ∧ .did a root .time (.ok now) ∈ h ∧
      .did a root (.get key.url (edgeHeaders c.edgeToken)) (.ok r) ∈ h
  | .stored c key now r doc, h =>
    .began a root (.fetch c) ∈ h ∧ keysKey K c = .ok key ∧ .did a root .time (.ok now) ∈ h ∧
      .did a root (.get key.url (edgeHeaders c.edgeToken)) (.ok r) ∈ h ∧
      readKeys K c key.url r = .ok doc ∧ ∃ expires, keysExpiry now c.cacheTtlSeconds = .ok expires
  | _, _ => True

theorem trail_keys (K : KeysLibs) : Trail (keysSystem K) (KeysEdge K) firstKeysAt
    (fun _ _ _ => True) (KeysTrail K) where
  mono a root q e h ht := by
    cases q with
    | start c => exact List.mem_cons_of_mem _ ht
    | looked c key found => exact ⟨List.mem_cons_of_mem _ ht.1, ht.2⟩
    | timed c key found now =>
        exact ⟨List.mem_cons_of_mem _ ht.1, ht.2.1, List.mem_cons_of_mem _ ht.2.2⟩
    | answered c key now r =>
        exact ⟨List.mem_cons_of_mem _ ht.1, ht.2.1, List.mem_cons_of_mem _ ht.2.2.1,
          List.mem_cons_of_mem _ ht.2.2.2⟩
    | stored c key now r doc =>
        exact ⟨List.mem_cons_of_mem _ ht.1, ht.2.1, List.mem_cons_of_mem _ ht.2.2.1,
          List.mem_cons_of_mem _ ht.2.2.2.1, ht.2.2.2.2⟩
    | _ => trivial
  start n h c _ := by
    cases c with
    | fetch c => exact List.mem_cons_self
    | clear => trivial
  act s roles n h a root q o r s' q' _ _ ht he _ := by
    have hold : ∀ {x e : KeysEvent}, x ∈ h → x ∈ e :: h := fun hx => List.mem_cons_of_mem _ hx
    cases he with
    | look c key found hkey => exact ⟨hold ht, hkey⟩
    | time c key found now => exact ⟨hold ht.1, ht.2, List.mem_cons_self⟩
    | get c key found now r => exact ⟨hold ht.1, ht.2.1, hold ht.2.2, List.mem_cons_self⟩
    | store c key now r expires doc hread hexpires =>
        exact ⟨hold ht.1, ht.2.1, hold ht.2.2.1, hold ht.2.2.2, hread, expires, hexpires⟩
    | clear => trivial
    | fault q o y => trivial
  spawn s roles n h a root q o r s' q' c _ _ _ _ _ hspawn := by cases hspawn

/-- The call that fetched a document, and when it read the clock. -/
structure Source (K : KeysLibs) (h : List KeysEvent) (key : KeysKey) (e : KeysEntry)
    (b root : Nat) (t : Reading) : Prop where
  time : .did b root .time (.ok t) ∈ h
  call : ∃ c r, .did b root (.get key.url (edgeHeaders c.edgeToken)) (.ok r) ∈ h ∧
    keysKey K c = .ok key ∧ readKeys K c key.url r = .ok e.2 ∧
    keysExpiry t c.cacheTtlSeconds = .ok e.1

theorem source_mono {h : List KeysEvent} {key : KeysKey} {e : KeysEntry} {b root : Nat}
    {t : Reading} (x : KeysEvent) (hs : Source K h key e b root t) :
    Source K (x :: h) key e b root t := by
  rcases hs with ⟨htime, c, r, hgot, hrest⟩
  exact ⟨List.mem_cons_of_mem _ htime, c, r, List.mem_cons_of_mem _ hgot, hrest⟩

/-- Every entry has a source, and the clock has shown what was read. -/
structure Filled (K : KeysLibs) (s : KeysState) (h : List KeysEvent) : Prop where
  entry : ∀ key e, s.cache key = some e → ∃ b root t, Source K h key e b root t
  clock : ∀ b root t, .did b root .time (.ok t) ∈ h → t.value ≤ s.clock

/-- Nothing is changed by an event that is no reading. -/
theorem filled_mono {s : KeysState} {h : List KeysEvent} (hs : Filled K s h) {x : KeysEvent}
    (hx : ∀ b root t, x ≠ .did b root .time (.ok t)) : Filled K s (x :: h) where
  entry key e he := by
    rcases hs.entry key e he with ⟨b, root, t, hsource⟩
    exact ⟨b, root, t, source_mono x hsource⟩
  clock b root t ht := by
    rcases List.mem_cons.mp ht with heq | ht
    · exact absurd heq.symm (hx b root t)
    · exact hs.clock b root t ht

theorem preserves_filled (K : KeysLibs) :
    Preserves (keysSystem K) (KeysEdge K) keysEnds firstKeysAt
      (fun _ roles h => ∀ a root q, roles a = some (root, q) → KeysTrail K a root q h)
      (fun s _ h => Filled K s h) where
  start s roles n h c _ hs _ _ := filled_mono hs fun _ _ _ => by nofun
  act s roles n h a root q o r s' q' hK hs ha _ he hp _ := by
    have hsame : ∀ {x : KeysEvent}, s' = s → (∀ b root t, x ≠ .did b root .time (.ok t)) →
        Filled K s' (x :: h) := by
      intro x heq hx
      rw [heq]
      exact filled_mono hs hx
    cases he with
    | look c key found hkey =>
        refine hsame ?_ fun _ _ _ => by nofun
        change (if found = s.cache key then some s else none) = some s' at hp
        split at hp
        · exact (Option.some.inj hp).symm
        · cases hp
    | time c key found now =>
        change (if s.clock ≤ now.value then some { s with clock := now.value } else none) =
          some s' at hp
        split at hp
        · next hle =>
            cases hp
            refine ⟨?_, ?_⟩
            · intro key e he
              rcases hs.entry key e he with ⟨b, root, t, hsource⟩
              exact ⟨b, root, t, source_mono _ hsource⟩
            · intro b rb t ht
              rcases List.mem_cons.mp ht with heq | ht
              · cases heq
                exact le_refl _
              · exact (hs.clock b rb t ht).trans hle
        · cases hp
    | get c key found now r => exact hsame (Option.some.inj hp).symm fun _ _ _ => by nofun
    | store c key now r expires doc hread hexpires =>
        cases hp
        rcases hK a root _ ha with ⟨_, hkey, htime, hgot⟩
        have hmine : Source K h key (expires, doc) a root now :=
          ⟨htime, c, r, hgot, hkey, hread, hexpires⟩
        refine ⟨?_, ?_⟩
        · intro k e he
          change (if k = key then some (expires, doc) else s.cache k) = some e at he
          by_cases hk : k = key
          · rw [if_pos hk] at he
            cases he
            rw [hk]
            exact ⟨a, root, now, source_mono _ hmine⟩
          · rw [if_neg hk] at he
            rcases hs.entry k e he with ⟨b, rb, t, hsource⟩
            exact ⟨b, rb, t, source_mono _ hsource⟩
        · intro b rb t ht
          rcases List.mem_cons.mp ht with heq | ht
          · cases heq
          · exact hs.clock b rb t ht
    | clear =>
        cases hp
        refine ⟨?_, ?_⟩
        · intro key e he
          cases he
        · intro b rb t ht
          rcases List.mem_cons.mp ht with heq | ht
          · cases heq
          · exact hs.clock b rb t ht
    | fault q o y =>
        refine hsame ?_ fun b rb t heq => by cases heq
        cases o with
        | get url headers => exact (Option.some.inj hp).symm
        | _ => cases hp
  spawn s roles n h a root q o r s' q' c _ _ _ _ _ _ hspawn := by cases hspawn
  finish s roles h a root q r _ hs _ _ := filled_mono hs fun _ _ _ => by nofun
  crash s roles h a root q _ hs _ := filled_mono hs fun _ _ _ => by nofun
  disturb s roles h d s' _ _ hd := by cases hd

/-- What a call found is what was fetched, and not after it read the clock. -/
def Found (K : KeysLibs) : KeysAt → List KeysEvent → Prop
  | .looked _ key found, h => ∀ e, found = some e → ∃ b root t, Source K h key e b root t
  | .timed _ key found now, h =>
    ∀ e, found = some e → ∃ b root t, Source K h key e b root t ∧ t.value ≤ now.value
  | _, _ => True

theorem trail_found (K : KeysLibs) : Trail (keysSystem K) (KeysEdge K) firstKeysAt
    (fun s roles h => (∀ a root q, roles a = some (root, q) → KeysTrail K a root q h) ∧ Filled K s h)
    (fun _ _ => Found K) where
  mono a root q x h hf := by
    cases q with
    | looked c key found =>
        intro e he
        rcases hf e he with ⟨b, root, t, hsource⟩
        exact ⟨b, root, t, source_mono x hsource⟩
    | timed c key found now =>
        intro e he
        rcases hf e he with ⟨b, root, t, hsource, hle⟩
        exact ⟨b, root, t, source_mono x hsource, hle⟩
    | _ => trivial
  start n h c _ := by
    cases c with
    | fetch c => trivial
    | clear => trivial
  act s roles n h a root q o r s' q' hK _ hf he hp := by
    cases he with
    | look c key found hkey =>
        intro e hfound
        change (if found = s.cache key then some s else none) = some s' at hp
        split at hp
        · next hcache =>
            rw [hcache] at hfound
            rcases hK.2.entry key e hfound with ⟨b, rb, t, hsource⟩
            exact ⟨b, rb, t, source_mono _ hsource⟩
        · cases hp
    | time c key found now =>
        intro e hfound
        change (if s.clock ≤ now.value then some { s with clock := now.value } else none) =
          some s' at hp
        split at hp
        · next hle =>
            rcases hf e hfound with ⟨b, rb, t, hsource⟩
            exact ⟨b, rb, t, source_mono _ hsource, (hK.2.clock b rb t hsource.time).trans hle⟩
        · cases hp
    | _ => trivial
  spawn s roles n h a root q o r s' q' c _ _ _ _ _ hspawn := by cases hspawn

/-- Where a document that is returned comes from: from this call, or from one that read the
    clock before it and whose entry had not expired. -/
def Served (K : KeysLibs) (h : List KeysEvent) (a root : Nat) (doc : Json) : Prop :=
  ∃ c key expires b rb t, .began a root (.fetch c) ∈ h ∧ keysKey K c = .ok key ∧
    Source K h key (expires, doc) b rb t ∧ (b = a ∨ ∃ now, .did a root .time (.ok now) ∈ h ∧
      t.value ≤ now.value ∧ now.float.lt expires = true)

/-- Every document that is returned comes from somewhere. -/
def ServedEvent (K : KeysLibs) (x : KeysEvent) (past : List KeysEvent) : Prop :=
  ∀ a root doc, x = .ended a root (.ok (some doc)) → Served K past a root doc

theorem preserves_keys (K : KeysLibs) :
    Preserves (keysSystem K) (KeysEdge K) keysEnds firstKeysAt (fun _ _ _ => True)
      (fun s roles h => (((∀ a root q, roles a = some (root, q) → KeysTrail K a root q h) ∧
        Filled K s h) ∧ (∀ a root q, roles a = some (root, q) → Found K q h)) ∧
        Always (ServedEvent K) h) := by
  have htrail := preserves_trail keysEnds (trail_keys K)
  have hfound := preserves_trail keysEnds (trail_found K)
  refine ((htrail.and (preserves_filled K)).and hfound).and ?_
  refine preserves_always ?_ ?_ ?_ ?_ ?_
  · intro n root c h a rb doc heq
    cases heq
  · intro s roles n h a root q o r s' q' _ _ _ _ b rb doc heq
    cases heq
  · intro s roles h a root q r hK ha hpost b rb doc heq
    cases heq
    have htrail := hK.1.1 a root q ha
    have hfound := hK.2 a root q ha
    cases q with
    | timed c key found now =>
        rcases hpost with ⟨expires, hentry, hlt⟩
        rcases htrail with ⟨hbegan, hkey, htime⟩
        rcases hfound _ hentry with ⟨b, rb, t, hsource, hle⟩
        exact ⟨c, key, expires, b, rb, t, hbegan, hkey, hsource, Or.inr ⟨now, htime, hle, hlt⟩⟩
    | stored c key now r kept =>
        have hdoc : doc = kept := hpost
        rcases htrail with ⟨hbegan, hkey, htime, hgot, hread, expires, hexpires⟩
        rw [← hdoc] at hread
        exact ⟨c, key, expires, a, root, now, hbegan, hkey, ⟨htime, c, r, hgot, hkey, hread, hexpires⟩,
          Or.inl rfl⟩
    | _ => exact hpost.elim
  · intro a h b rb doc heq
    cases heq
  · intro d h b rb doc heq
    cases heq

/-- What an entry says about when it expires. -/
theorem before_expiry {t now : Reading} {seconds : Int} {expires : Float64}
    (h : keysExpiry t seconds = .ok expires) (hlt : now.float.lt expires = true) :
    ∃ q, (Float64.ofInt seconds).value = some q ∧ now.value < t.value + q := by
  unfold keysExpiry at h
  split at h
  · next hfinite =>
      cases h
      rcases Option.isSome_iff_exists.mp hfinite with ⟨v, hv⟩
      have hvalue : (Float64.ofInt seconds).value = some (dyadic v) := by
        rw [Float64.value, hv]
        rfl
      exact ⟨dyadic v, hvalue, lt_of_lt_add hvalue hlt⟩
  · cases h

/-- Every document that is returned is in an answer that passes the checks of the call that
    returns it, under its own URL. If another call got the answer, it read the clock less
    than the lifetime before. -/
theorem served_vouched {w : World KeysOp KeysOp.Answer KeysFault KeysExc (Option Json) KeysCommand
    KeysState Unit} (hw : (keysSystem K).Reachable .empty w) {a root : Nat} {doc : Json}
    {past : List KeysEvent} (he : .ended a root (.ok (some doc)) :: past <:+ w.history) :
    ∃ c url r, .began a root (.fetch c) ∈ past ∧ Vouched K c url r doc ∧
      ∃ b rb headers t, .did b rb (.get url headers) (.ok r) ∈ past ∧
        .did b rb .time (.ok t) ∈ past ∧
        (b = a ∨ ∃ now seconds, .did a root .time (.ok now) ∈ past ∧
          (Float64.ofInt c.cacheTtlSeconds).value = some seconds ∧ t.value ≤ now.value ∧
          now.value < t.value + seconds) := by
  have hstart : Filled K .empty [] := by
    refine ⟨?_, ?_⟩
    · intro key e h
      cases h
    · intro b rb t h
      cases h
  rcases invariant (fun c _ => fetch_follows c) (preserves_keys K)
    ⟨⟨⟨fun _ _ _ h => (by cases h), hstart⟩, fun _ _ _ h => (by cases h)⟩, trivial⟩ hw with
    ⟨roles, _, _, hall⟩
  rcases always_suffix hall he a root doc rfl with
    ⟨c, key, expires, b, rb, t, hbegan, hkey, hsource, hwhen⟩
  rcases hsource with ⟨htime, c', r, hgot, hkey', hread, hexpires⟩
  refine ⟨c, key.url, r, hbegan, vouched_of_source hkey hkey' hread, b, rb, _, t, hgot, htime, ?_⟩
  rcases hwhen with hown | ⟨now, hnow, hle, hlt⟩
  · exact Or.inl hown
  · rcases before_expiry hexpires hlt with ⟨seconds, hseconds, hbefore⟩
    rw [(keysKey_eq_ok hkey').2.2.1.symm, (keysKey_eq_ok hkey).2.2.1] at hseconds
    exact Or.inr ⟨now, seconds, hnow, hseconds, hle, hbefore⟩

/-! ### A run -/

def sampleKeysDoc : Json :=
  .ofList [("workspace_id", .str (lit "ws_1")), ("keys", .arr [.ofList [
    ("key_id", .str (lit "key_1")), ("alg", .str (lit "Ed25519")),
    ("public_key", .str (List.replicate 43 65)),
    ("active_from", .str (lit "2026-01-01T00:00:00.000Z")), ("active_until", .null)]])]

def sampleKeys : KeysLibs where
  hashSealValue _ := none
  decodeReceipt v := .ok v
  fromisoformat _ := none
  isoformat _ := []
  lowerOther s := s
  upperOther s := s
  otherDigit _ := none
  sendable _ := true
  compressPoint _ := none
  loadKeys doc := if doc = sampleKeysDoc then none else some (lit "keys must be an array")
  repr _ := []
  normalUrl url := url
  oddLocation _ := false
  notJson _ := .verification (lit "keys document was not valid JSON")

def sampleKeysCall : KeysCall where
  workspaceId := lit "ws_1"
  baseUrl := lit "https://api.example.com/"
  cacheTtlSeconds := 300
  expectedSha256 := none
  allowInsecure := false
  edgeToken := none

/-- Some seconds after a point in time. -/
def sampleReading (seconds : Nat) (h : seconds < 1000) : Reading where
  mant := 1767225600 + seconds
  exp := 0
  mant_lt := by omega
  exp_ge := by decide
  exp_le := by decide

def sampleKeysResponse : KeysResponse where
  status := 200
  url := lit "https://api.example.com/v1/workspaces/ws_1/keys"
  content := ((dumps sampleKeysDoc).bind encode).getD []

/-- The answers to a call. -/
def sampleKeysReply (found : Option KeysEntry) (now : Reading) :
    (o : KeysOp) → Except KeysFault o.Answer
  | .look _ => .ok found
  | .time => .ok now
  | .get .. => .ok sampleKeysResponse
  | .store .. => .ok ()
  | .clear => .ok ()

def sampleEntry : KeysEntry :=
  ((sampleReading 0 (by decide)).float.add (.ofInt 300), sampleKeysDoc)

/-- A call, and another one four minutes later. -/
def sampleKeysActs : List (Act KeysOp KeysOp.Answer KeysFault KeysCommand Unit) :=
  let first := .answer 0 (sampleKeysReply none (sampleReading 0 (by decide)))
  let second := .answer 1 (sampleKeysReply (some sampleEntry) (sampleReading 240 (by decide)))
  [.begin (.fetch sampleKeysCall), first, first, first, first, .finish 0,
    .begin (.fetch sampleKeysCall), second, second, .finish 1]

/-- Does the second call end with the document? -/
def endsWithSample : List KeysEvent → Bool
  | .ended 1 1 (.ok (some doc)) :: _ => decide (doc = sampleKeysDoc)
  | _ => false

theorem of_endsWithSample {h : List KeysEvent} (he : endsWithSample h = true) :
    ∃ past, h = .ended 1 1 (.ok (some sampleKeysDoc)) :: past := by
  unfold endsWithSample at he
  split at he
  · next doc past =>
      rw [of_decide_eq_true he]
      exact ⟨past, rfl⟩
  · cases he

/-- The second call returns what the first one has fetched. -/
theorem served_sample : ∃ past : List KeysEvent, ∃ c url r, .began 1 1 (.fetch c) ∈ past ∧
    Vouched sampleKeys c url r sampleKeysDoc := by
  have hrun : ((keysSystem sampleKeys).run (World.initial .empty) sampleKeysActs).any
      (fun w => endsWithSample w.history) = true := by decide +kernel
  rcases (Option.any_eq_true_iff_get _ _).mp hrun with ⟨hsome, hends⟩
  have hw := reachable_run sampleKeysActs System.Reachable.start (Option.some_get hsome).symm
  rcases of_endsWithSample hends with ⟨past, hpast⟩
  rcases served_vouched hw ⟨[], hpast.symm⟩ with ⟨c, url, r, hbegan, hvouched, _⟩
  exact ⟨past, c, url, r, hbegan, hvouched⟩

/-! ### What a call changes -/

/-- The operations of a call that runs alone. -/
def keysRun : List ((o : KeysOp) × Except KeysFault o.Answer) → KeysState → Option KeysState
  | [], s => some s
  | e :: t, s => (keysPerform e.1 e.2 s).bind (keysRun t)

theorem keysRun_append (t u : List ((o : KeysOp) × Except KeysFault o.Answer)) (s : KeysState) :
    keysRun (t ++ u) s = (keysRun t s).bind (keysRun u) := by
  induction t generalizing s with
  | nil => rfl
  | cons e t ih =>
      rw [List.cons_append, keysRun, keysRun]
      cases keysPerform e.1 e.2 s with
      | none => rfl
      | some s' => exact ih s'

/-- An operation that stores nothing. -/
def ReadsKeys : KeysOp → Prop
  | .store .. => False
  | .clear => False
  | _ => True

theorem perform_reads {o : KeysOp} {r : Except KeysFault o.Answer} {s s' : KeysState} (ho : ReadsKeys o)
    (h : keysPerform o r s = some s') : s'.cache = s.cache := by
  cases o with
  | look key =>
      cases r with
      | error y => cases h
      | ok found =>
          simp only [keysPerform] at h
          split at h
          · cases h
            rfl
          · cases h
  | time =>
      cases r with
      | error y => cases h
      | ok now =>
          simp only [keysPerform] at h
          split at h
          · cases h
            rfl
          · cases h
  | get url headers =>
      cases h
      rfl
  | store key entry => exact ho.elim
  | clear => exact ho.elim

theorem run_reads {t : List ((o : KeysOp) × Except KeysFault o.Answer)} {s s' : KeysState}
    (ht : ∀ e ∈ t, ReadsKeys e.1) (h : keysRun t s = some s') : s'.cache = s.cache := by
  induction t generalizing s with
  | nil =>
      cases h
      rfl
  | cons e t ih =>
      rcases Option.bind_eq_some_iff.mp h with ⟨v, hv, hrun⟩
      rw [ih (fun x hx => ht x (List.mem_cons_of_mem _ hx)) hrun]
      exact perform_reads (ht e List.mem_cons_self) hv

/-- All but the last operation read, and the last one may store what is returned. -/
def Stores (key : KeysKey) (t : List ((o : KeysOp) × Except KeysFault o.Answer))
    (result : Except KeysExc Json) : Prop :=
  (∀ e ∈ t, ReadsKeys e.1) ∨ ∃ u entry b, t = u ++ [⟨.store key entry, b⟩] ∧ (∀ e ∈ u, ReadsKeys e.1) ∧
    (b = .ok () → result = .ok entry.2)

/-- Reading before changes nothing. -/
theorem stores_append {key : KeysKey} {t u : List ((o : KeysOp) × Except KeysFault o.Answer)}
    {result : Except KeysExc Json} (ht : ∀ e ∈ t, ReadsKeys e.1) (hu : Stores key u result) :
    Stores key (t ++ u) result := by
  have happend : ∀ {v : List ((o : KeysOp) × Except KeysFault o.Answer)}, (∀ e ∈ v, ReadsKeys e.1) →
      ∀ e ∈ t ++ v, ReadsKeys e.1 := by
    intro v hv e he
    rcases List.mem_append.mp he with he | he
    · exact ht e he
    · exact hv e he
  rcases hu with hreads | ⟨v, entry, b, hu, hv, hb⟩
  · exact Or.inl (happend hreads)
  · refine Or.inr ⟨t ++ v, entry, b, ?_, happend hv, hb⟩
    rw [hu, List.append_assoc]

theorem stores_nil (key : KeysKey) (result : Except KeysExc Json) : Stores key [] result :=
  Or.inl fun e he => by cases he

theorem reads_single {o : KeysOp} {b : Except KeysFault o.Answer} (ho : ReadsKeys o) :
    ∀ e ∈ [(⟨o, b⟩ : (o : KeysOp) × Except KeysFault o.Answer)], ReadsKeys e.1 := by
  intro e he
  rw [List.mem_singleton.mp he]
  exact ho

/-- An operation that reads, and what follows it. -/
theorem stores_bind {key : KeysKey} {o : KeysOp} {f : o.Answer → KeysProg Json}
    {t : List ((o : KeysOp) × Except KeysFault o.Answer)} {result : Except KeysExc Json}
    (ho : ReadsKeys o) (h : Traces (keysDo o >>= f) t result)
    (hf : ∀ a u, Traces (f a) u result → Stores key u result) : Stores key t result := by
  rcases traces_bind.mp h with ⟨x, hx, _⟩ | ⟨a, t₁, t₂, ha, hrest, rfl⟩
  · rcases traces_perform.mp hx with ⟨b, rfl, _⟩
    exact Or.inl (reads_single ho)
  · rcases traces_perform.mp ha with ⟨b, rfl, _⟩
    exact stores_append (reads_single ho) (hf a t₂ hrest)

/-- A computation, and what follows it. -/
theorem stores_computed {A : Type} {key : KeysKey} {e : Except KeysExc A} {f : A → KeysProg Json}
    {t : List ((o : KeysOp) × Except KeysFault o.Answer)} {result : Except KeysExc Json}
    (h : Traces (Prog.ofExcept e >>= f) t result)
    (hf : ∀ a, e = .ok a → Traces (f a) t result → Stores key t result) : Stores key t result := by
  cases e with
  | error x =>
      rw [h.1]
      exact stores_nil key _
  | ok a => exact hf a rfl h

theorem stores_fresh {c : KeysCall} {key : KeysKey} {now : Reading}
    {t : List ((o : KeysOp) × Except KeysFault o.Answer)} {result : Except KeysExc Json}
    (h : Traces (fetchFresh K c key now) t result) : Stores key t result := by
  refine stores_bind (o := .get key.url (edgeHeaders c.edgeToken)) trivial h ?_
  intro r u hu
  refine stores_computed hu ?_
  intro doc _ hu
  refine stores_computed hu ?_
  intro expires _ hu
  rcases traces_bind.mp hu with ⟨x, hx, hr⟩ | ⟨a, t₁, t₂, ha, hend, rfl⟩
  · rcases traces_perform.mp hx with ⟨b, rfl, hb⟩
    refine Or.inr ⟨[], (expires, doc), b, rfl, fun e he => (by cases he), ?_⟩
    intro hok
    rw [hok] at hb
    cases hb
  · rcases traces_perform.mp ha with ⟨b, rfl, _⟩
    rw [hend.1, List.append_nil]
    exact Or.inr ⟨[], (expires, doc), b, rfl, fun e he => (by cases he), fun _ => hend.2⟩

theorem stores_fetch {c : KeysCall} {t : List ((o : KeysOp) × Except KeysFault o.Answer)}
    {result : Except KeysExc Json} (h : Traces (fetchKeysDoc K c) t result) :
    t = [] ∨ ∃ key, keysKey K c = .ok key ∧ Stores key t result := by
  unfold fetchKeysDoc at h
  cases hkey : keysKey K c with
  | error x =>
      rw [hkey] at h
      exact Or.inl h.1
  | ok key =>
      rw [hkey] at h
      refine Or.inr ⟨key, rfl, stores_bind (o := .look key) trivial h ?_⟩
      intro found u hu
      refine stores_bind (o := .time) trivial hu ?_
      intro now v hv
      cases hfound : (found : Option KeysEntry) with
      | none =>
          rw [hfound] at hv
          exact stores_fresh hv
      | some entry =>
          rw [hfound] at hv
          simp only at hv
          split at hv
          · rw [hv.1]
            exact stores_nil key _
          · exact stores_fresh hv

/-- A call that runs alone changes nothing but the entry under its own key, and that only
    when it returns a document, which is then the entry. -/
theorem fetch_frame {c : KeysCall} {t : List ((o : KeysOp) × Except KeysFault o.Answer)}
    {result : Except KeysExc Json} (ht : Traces (fetchKeysDoc K c) t result) {s s' : KeysState}
    (hrun : keysRun t s = some s') : s'.cache = s.cache ∨
      ∃ key expires doc, keysKey K c = .ok key ∧ result = .ok doc ∧
        s'.cache = Function.update s.cache key (some (expires, doc)) := by
  rcases stores_fetch ht with rfl | ⟨key, hkey, hreads | ⟨u, entry, b, rfl, hu, hb⟩⟩
  · cases hrun
    exact Or.inl rfl
  · exact Or.inl (run_reads hreads hrun)
  · rw [keysRun_append] at hrun
    rcases Option.bind_eq_some_iff.mp hrun with ⟨v, hv, hlast⟩
    rcases Option.bind_eq_some_iff.mp hlast with ⟨v', hv', hend⟩
    cases b with
    | error y => cases hv'
    | ok done =>
        cases hv'
        cases hend
        refine Or.inr ⟨key, entry.1, entry.2, hkey, hb rfl, ?_⟩
        rw [← run_reads hu hv]
        funext k
        rw [Function.update_apply]

/-- The first call fills the cache. -/
theorem frame_sample : ∃ s' : KeysState, s'.cache = KeysState.empty.cache ∨
    ∃ key expires doc, keysKey sampleKeys sampleKeysCall = .ok key ∧
      (traceOf (sampleKeysReply none (sampleReading 0 (by decide)))
        (fetchKeysDoc sampleKeys sampleKeysCall)).2 = .ok doc ∧
      s'.cache = Function.update KeysState.empty.cache key (some (expires, doc)) := by
  have hrun : (keysRun (traceOf (sampleKeysReply none (sampleReading 0 (by decide)))
      (fetchKeysDoc sampleKeys sampleKeysCall)).1 .empty).isSome = true := by decide +kernel
  exact ⟨_, fetch_frame (traces_traceOf _ _) (Option.some_get hrun).symm⟩

end Allowly
