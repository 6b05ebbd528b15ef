import Allowly.Core.SealWebhook
import Allowly.Theory.Encoding

/-!
# Strict Parsers

A parser is strict when all it can raise is `AllowlyProtocolError`, which is what
callers are told to catch. The field checks are, and strictness is kept by every way
of composing parsers that the program has.

## Main definitions

* `Strict`: Nothing but a protocol error is raised.

## Theorems

* `strict_bind`, `strict_map`, `strict_mapM`, `strict_optionalWith`: Composition.
* `strict_requireStr` and its like: The field checks.
* `strict_parseReceiptEnvelope`: A receipt envelope.
-/

namespace Allowly

open Py

/-- Nothing but a protocol error is raised. -/
def Strict {A : Type} (r : Except Exc A) : Prop := ∀ x, r = .error x → IsProtocolError x

theorem strict_ok {A : Type} (a : A) : Strict (.ok a : Except Exc A) := fun x h => by cases h

theorem strict_protocolError {A : Type} (text : String) (shown : Option Str) :
    Strict (protocolError text shown : Except Exc A) := by
  intro x h
  rw [protocolError, Except.error.injEq] at h
  exact ⟨text, shown, h.symm⟩

theorem strict_bind {A B : Type} {r : Except Exc A} {f : A → Except Exc B} (h : Strict r)
    (hf : ∀ a, r = .ok a → Strict (f a)) : Strict (r >>= f) := by
  cases r with
  | ok a => exact hf a rfl
  | error y =>
      intro x hx
      exact h x (congrArg Except.error (Except.error.inj hx))

theorem strict_map {A B : Type} {r : Except Exc A} (h : Strict r) (f : A → B) :
    Strict (r.map f) := by
  cases r with
  | ok a => exact strict_ok _
  | error y =>
      intro x hx
      exact h x (congrArg Except.error (Except.error.inj hx))

theorem strict_mapM {A B : Type} {f : A → Except Exc B} (h : ∀ a, Strict (f a)) (xs : List A) :
    Strict (xs.mapM f) := by
  induction xs with
  | nil => exact strict_ok _
  | cons x xs ih =>
      rw [List.mapM_cons]
      refine strict_bind (h x) ?_
      intro b _
      refine strict_bind ih ?_
      intro bs _
      exact strict_ok _

theorem strict_optionalWith {A : Type} {parse : Json → Except Exc A} (h : ∀ v, Strict (parse v))
    (value : Json) : Strict (optionalWith parse value) := by
  unfold optionalWith
  split
  · exact strict_ok _
  · exact strict_map (h value) some

/-! ### Field checks -/

theorem strict_requireDict (value : Json) (name : String) : Strict (requireDict value name) := by
  unfold requireDict
  split
  · exact strict_ok _
  · exact strict_protocolError _ _

theorem strict_requireStr (raw : Json) (key : String) : Strict (requireStr raw key) := by
  unfold requireStr
  split
  · exact strict_ok _
  · exact strict_protocolError _ _

theorem strict_requireInt (raw : Json) (key : String) : Strict (requireInt raw key) := by
  unfold requireInt
  split
  · exact strict_ok _
  · exact strict_protocolError _ _

theorem strict_optionalStr (raw : Json) (key : String) : Strict (optionalStr raw key) := by
  unfold optionalStr
  split
  · exact strict_ok _
  · exact strict_ok _
  · exact strict_protocolError _ _

theorem strict_optionalInt (value : Json) (error : String) : Strict (optionalInt value error) := by
  unfold optionalInt
  split
  · exact strict_ok _
  · exact strict_ok _
  · exact strict_protocolError _ _

theorem strict_optionalText (value : Json) (error : String) : Strict (optionalText value error) := by
  unfold optionalText
  split
  · exact strict_ok _
  · exact strict_ok _
  · exact strict_protocolError _ _

theorem strict_parseEnum {A : Type} (all : List A) (text : A → Str) (error : String) (value : Str) :
    Strict (parseEnum all text error value) := by
  unfold parseEnum
  split
  · exact strict_ok _
  · exact strict_protocolError _ _

theorem strict_sealStr (raw : Json) (key : String) : Strict (sealStr raw key) := by
  unfold sealStr
  split
  · exact strict_ok _
  · exact strict_protocolError _ _

theorem strict_sealOptionalStr (raw : Json) (key : String) : Strict (sealOptionalStr raw key) := by
  unfold sealOptionalStr
  split
  · exact strict_ok _
  · exact strict_ok _
  · exact strict_protocolError _ _

theorem strict_sealOptionalDict (raw : Json) (key : String) : Strict (sealOptionalDict raw key) :=
  strict_optionalWith (fun v => strict_requireDict v _) _

/-! ### Receipt envelopes -/

theorem strict_parsePendingEnvelope (raw : Json) : Strict (parsePendingEnvelope raw) := by
  refine strict_bind (strict_requireDict _ _) ?_
  intro body _
  split
  · exact strict_protocolError _ _
  · refine strict_bind (strict_requireStr _ _) ?_
    intro receiptId _
    refine strict_bind (strict_optionalStr _ _) ?_
    intro readyAt _
    refine strict_bind (strict_requireStr _ _) ?_
    intro url _
    exact strict_ok _

theorem strict_parseReceiptEnvelope (L : Libs) (raw : Json) :
    Strict (parseReceiptEnvelope L raw) := by
  refine strict_bind (strict_requireDict _ _) ?_
  intro body _
  split
  · exact strict_parsePendingEnvelope _
  split
  · refine strict_bind (strict_requireDict _ _) ?_
    intro receipt _
    split
    · exact strict_ok _
    · exact strict_protocolError _ _
  · exact strict_protocolError _ _

end Allowly
