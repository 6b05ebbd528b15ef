import Allowly.Core.Resources
import Allowly.Theory.Response
import Allowly.Theory.Strict

/-!
# The Wire Contract

What a method makes of the body of an accepted answer is an object whose fields have the
types they are declared with, or `AllowlyProtocolError`.

## Theorems

* `strict_parsePromptStatus` and its like: The strict parsers.
-/

namespace Allowly

open Py

variable {L : PolicyLibs}

/-! ### Strict parsers -/

theorem strict_ite {A : Type} {c : Prop} [Decidable c] {x y : Except Exc A} (hx : c → Strict x)
    (hy : ¬ c → Strict y) : Strict (if c then x else y) := by
  by_cases hc : c
  · rw [if_pos hc]
    exact hx hc
  · rw [if_neg hc]
    exact hy hc

/-- A check that refuses. -/
theorem strict_check {A : Type} {c : Prop} [Decidable c] {t : String} {shown : Option Str}
    {y : Except Exc A} (hy : ¬ c → Strict y) : Strict (if c then protocolError t shown else y) :=
  strict_ite (fun _ => strict_protocolError t shown) hy

theorem strict_statusNullableStr (raw : Json) (key : String) : Strict (statusNullableStr raw key) := by
  refine strict_check fun _ => strict_bind (strict_optionalStr _ _) ?_
  intro value _
  exact strict_check fun _ => strict_ok _

theorem strict_statusTime {L : Libs} (key : String) (value : Str) : Strict (statusTime L key value) := by
  refine strict_check fun _ => ?_
  split
  · exact strict_ok _
  · exact strict_protocolError _ _

theorem strict_statusNullableTime {L : Libs} (raw : Json) (key : String) :
    Strict (statusNullableTime L raw key) := by
  refine strict_bind (strict_statusNullableStr _ _) ?_
  intro value _
  split
  · exact strict_ok _
  · exact strict_map (strict_statusTime _ _) _

theorem strict_parsePromptStatus {L : Libs} (raw : Json) : Strict (parsePromptStatus L raw) := by
  refine strict_bind (strict_requireStr _ _) fun _ _ => ?_
  refine strict_bind (strict_parseEnum _ _ _ _) fun _ _ => ?_
  refine strict_bind (strict_requireStr _ _) fun _ _ => ?_
  refine strict_bind (strict_requireStr _ _) fun _ _ => ?_
  refine strict_check fun _ => ?_
  refine strict_bind (strict_statusNullableTime _ _) fun _ _ => ?_
  refine strict_check fun _ => ?_
  refine strict_bind (strict_statusNullableStr _ _) fun _ _ => ?_
  refine strict_bind (strict_requireStr _ _) fun _ _ => ?_
  refine strict_bind (strict_statusTime _ _) fun _ _ => ?_
  refine strict_bind (strict_statusNullableStr _ _) fun _ _ => ?_
  refine strict_bind (strict_statusNullableStr _ _) fun _ _ => ?_
  exact strict_ok _

theorem strict_parseConfirmationStatus {L : Libs} (id : Str) (raw : Json) :
    Strict (parseConfirmationStatus L id raw) := by
  refine strict_bind (strict_requireDict _ _) fun _ _ => ?_
  refine strict_bind (strict_requireStr _ _) fun _ _ => ?_
  refine strict_check fun _ => ?_
  refine strict_bind (strict_parsePromptStatus _) fun _ _ => ?_
  refine strict_bind (strict_requireStr _ _) fun _ _ => ?_
  refine strict_bind (strict_parseEnum _ _ _ _) fun _ _ => ?_
  refine strict_bind (strict_statusNullableStr _ _) fun _ _ => ?_
  refine strict_bind (strict_statusNullableTime _ _) fun _ _ => ?_
  exact strict_check fun _ => strict_check fun _ => strict_ok _

theorem strict_parseEscalationStatus {L : Libs} (id : Str) (raw : Json) :
    Strict (parseEscalationStatus L id raw) := by
  refine strict_bind (strict_requireDict _ _) fun _ _ => ?_
  refine strict_bind (strict_requireStr _ _) fun _ _ => ?_
  refine strict_check fun _ => ?_
  refine strict_bind (strict_parsePromptStatus _) fun _ _ => ?_
  refine strict_bind (strict_requireStr _ _) fun _ _ => ?_
  refine strict_bind (strict_parseEnum _ _ _ _) fun _ _ => ?_
  refine strict_check fun _ => strict_check fun _ => ?_
  exact strict_bind (strict_statusNullableTime _ _) fun _ _ => strict_ok _

theorem strict_parseSettlement {L : Libs} (raw : Json) : Strict (parseSettlement L raw) := by
  refine strict_bind (strict_requireDict _ _) fun _ _ => ?_
  refine strict_bind (strict_requireStr _ _) fun _ _ => ?_
  refine strict_bind (strict_requireStr _ _) fun _ _ => ?_
  refine strict_bind (strict_requireInt _ _) fun _ _ => ?_
  refine strict_bind (strict_requireInt _ _) fun _ _ => ?_
  refine strict_bind (strict_requireInt _ _) fun _ _ => ?_
  refine strict_bind (strict_requireInt _ _) fun _ _ => ?_
  refine strict_bind (strict_requireInt _ _) fun _ _ => ?_
  exact strict_bind (strict_parseReceiptEnvelope _ _) fun _ _ => strict_ok _

/-! ### Documents -/

theorem strict_document (value : Json) (name : String) (limit : Nat) :
    Strict (document L value name limit) := by
  refine strict_check fun _ => ?_
  simp only
  split
  · exact strict_protocolError _ _
  · refine strict_check fun _ => ?_
    split
    · exact strict_ok _
    · exact strict_protocolError _ _

theorem strict_keysOf (value : Json) (required : List String) (name : String)
    (optional : List String) : Strict (keysOf value required name optional) :=
  strict_ite (fun _ => strict_ok _) fun _ => strict_protocolError _ _

theorem strict_boundedText (value : Json) (name : String) (maximum : Nat) :
    Strict (boundedText value name maximum) := by
  unfold boundedText
  split
  · exact strict_ite (fun _ => strict_ok _) fun _ => strict_protocolError _ _
  · exact strict_protocolError _ _

theorem strict_boundedInt (value : Json) (name : String) (minimum maximum : Int) :
    Strict (boundedInt value name minimum maximum) := by
  unfold boundedInt
  split
  · exact strict_ite (fun _ => strict_ok _) fun _ => strict_protocolError _ _
  · exact strict_protocolError _ _

theorem strict_parsePolicyReference (value : Json) : Strict (parsePolicyReference L value) := by
  refine strict_bind (strict_document _ _ _) fun _ _ => ?_
  refine strict_bind (strict_keysOf _ _ _ _) fun _ _ => ?_
  refine strict_bind (strict_boundedText _ _ _) fun _ _ => ?_
  refine strict_bind (strict_boundedInt _ _ _ _) fun _ _ => ?_
  split
  · exact strict_ite (fun _ => strict_ok _) fun _ => strict_protocolError _ _
  · exact strict_protocolError _ _

theorem strict_choiceOf (value : Json) (choices : List String) (name : String) :
    Strict (choiceOf value choices name) := by
  unfold choiceOf
  split
  · exact strict_ite (fun _ => strict_ok _) fun _ => strict_protocolError _ _
  · exact strict_protocolError _ _

theorem strict_nullableText (raw : Json) (name : String) (limit : Nat) :
    Strict (nullableText raw name limit) :=
  strict_optionalWith (fun v => strict_boundedText v _ _) _

theorem strict_eventIdOf (value : Json) : Strict (eventIdOf value) := by
  unfold eventIdOf
  simp only
  split
  · exact strict_ite (fun _ => strict_ok _) fun _ => strict_protocolError _ _
  · exact strict_protocolError _ _

theorem strict_parseObserveStatus (id : Str) (value : Json) :
    Strict (parseObserveStatus L id value) := by
  refine strict_bind (strict_document _ _ _) fun _ _ => ?_
  refine strict_bind (strict_keysOf _ _ _ _) fun _ _ => ?_
  refine strict_bind (strict_eventIdOf _) fun _ _ => ?_
  refine strict_bind (strict_boundedText _ _ _) fun _ _ => ?_
  refine strict_bind (strict_boundedText _ _ _) fun _ _ => ?_
  refine strict_bind (strict_parsePolicyReference _) fun _ _ => ?_
  refine strict_bind (strict_choiceOf _ _ _) fun _ _ => ?_
  refine strict_bind (strict_choiceOf _ _ _) fun _ _ => ?_
  refine strict_bind (strict_choiceOf _ _ _) fun _ _ => ?_
  refine strict_bind (strict_choiceOf _ _ _) fun _ _ => ?_
  refine strict_bind (strict_choiceOf _ _ _) fun _ _ => ?_
  refine strict_bind (strict_choiceOf _ _ _) fun _ _ => ?_
  refine strict_bind (strict_nullableText _ _ _) fun _ _ => ?_
  refine strict_bind (strict_nullableText _ _ _) fun _ _ => ?_
  refine strict_bind (strict_nullableText _ _ _) fun _ _ => ?_
  refine strict_bind (strict_nullableText _ _ _) fun _ _ => ?_
  exact strict_check fun _ => strict_ok _

end Allowly
