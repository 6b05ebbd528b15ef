import Allowly.Base.Float
import Mathlib.Data.List.Nodup

/-!
# JSON Values

The values `json.loads` builds, with the dictionary operations the program
performs on them. An object is a list of members in insertion order, which is
what a Python `dict` iterates in and what `json.dumps` writes; a dictionary
built by Python never repeats a key, and `WellFormed` says so at every depth.

Two equalities are in play. `pyEq` is Python's `==`, under which `1`, `1.0` and
`True` are equal and members may come in any order. `sameJson` is equality of
JSON values: order and the spelling of numbers do not matter, but a boolean is
never a number. Both are `equivalent`, which takes the one point where they
differ as an argument.

## Main definitions

* `Json`: JSON values.
* `Json.lookup`: The value of a key in a member list.
* `Json.get`: `dict.get`, null when the key is absent or the value no object.
* `Json.insert`, `Json.set`, `Json.update`: `dict.__setitem__`, `dict.update`.
* `Json.equivalent`: Equality up to member order and the spelling of numbers.
* `pyEq`, `sameJson`: Python's `==`, and equality of JSON values.
* `Json.WellFormed`: No object at any depth repeats a key.

## Theorems

* `lookup_insert_self`, `lookup_insert_other`: Reading after writing a key.
* `get_set_self`, `get_set_other`: The same for objects.
* `equivalent_str`: A text is equal to nothing but itself.
* `equivalent_get`: Equivalent values have equivalent members.
* `wellFormed_get`: A member of a well-formed value is well-formed.
* `wellFormed_set`: Writing a well-formed member keeps well-formedness.
-/

namespace Py

inductive Json where
  | null
  | bool (b : Bool)
  | int (n : Int)
  | float (x : Float64)
  | str (s : Str)
  | arr (xs : List Json)
  | obj (ms : List (Str × Json))

namespace Json

mutual

def beq : Json → Json → Bool
  | .null, .null => true
  | .bool a, .bool b => a == b
  | .int a, .int b => a == b
  | .float a, .float b => a == b
  | .str a, .str b => a == b
  | .arr a, .arr b => beqItems a b
  | .obj a, .obj b => beqMembers a b
  | _, _ => false
termination_by structural a => a

def beqItems : List Json → List Json → Bool
  | [], [] => true
  | x :: xs, y :: ys => beq x y && beqItems xs ys
  | _, _ => false
termination_by structural a => a

def beqMembers : List (Str × Json) → List (Str × Json) → Bool
  | [], [] => true
  | (k, v) :: xs, (l, w) :: ys => k == l && beq v w && beqMembers xs ys
  | _, _ => false
termination_by structural a => a

end

/-- Induction over values: a property of values, of item lists and of member
    lists at once. -/
theorem induct {P : Json → Prop} {Q : List Json → Prop} {R : List (Str × Json) → Prop}
    (null : P .null) (bool : ∀ b, P (.bool b)) (int : ∀ n, P (.int n)) (float : ∀ x, P (.float x))
    (str : ∀ s, P (.str s)) (arr : ∀ xs, Q xs → P (.arr xs)) (obj : ∀ ms, R ms → P (.obj ms))
    (noItems : Q []) (items : ∀ x xs, P x → Q xs → Q (x :: xs))
    (noMembers : R []) (members : ∀ k v ms, P v → R ms → R ((k, v) :: ms)) :
    (∀ j, P j) ∧ (∀ xs, Q xs) ∧ (∀ ms, R ms) := by
  have hj : ∀ j, P j := fun j =>
    @Json.rec P Q R (fun m => P m.2) null bool int float str arr obj noItems items noMembers
      (fun m ms hm hms => members m.1 m.2 ms hm hms) (fun _ _ hv => hv) j
  refine ⟨hj, ?_, ?_⟩
  · intro xs
    induction xs with
    | nil => exact noItems
    | cons x xs ih => exact items x xs (hj x) ih
  · intro ms
    induction ms with
    | nil => exact noMembers
    | cons m ms ih => exact members m.1 m.2 ms (hj m.2) ih

theorem beq_iff :
    (∀ a b, beq a b = true ↔ a = b) ∧ (∀ xs ys, beqItems xs ys = true ↔ xs = ys) ∧
      (∀ ms ns, beqMembers ms ns = true ↔ ms = ns) := by
  refine induct ?_ ?_ ?_ ?_ ?_ ?_ ?_ ?_ ?_ ?_ ?_
  · intro b
    cases b <;> simp [beq]
  · intro a b
    cases b <;> simp [beq]
  · intro n b
    cases b <;> simp [beq]
  · intro x b
    cases b <;> simp [beq]
  · intro s b
    cases b <;> simp [beq]
  · intro xs ih b
    cases b <;> simp [beq, ih]
  · intro ms ih b
    cases b <;> simp [beq, ih]
  · intro ys
    cases ys <;> simp [beqItems]
  · intro x xs hx ih ys
    cases ys <;> simp [beqItems, hx, ih]
  · intro ns
    cases ns <;> simp [beqMembers]
  · intro k v ms hv ih ns
    rcases ns with _ | ⟨⟨l, w⟩, ns⟩
    · simp [beqMembers]
    · simp [beqMembers, hv, ih, and_assoc]

instance : DecidableEq Json := fun a b => decidable_of_iff _ (beq_iff.1 a b)

/-- The value of a key. -/
def lookup (k : Str) : List (Str × Json) → Option Json
  | [] => none
  | (l, v) :: ms => if k = l then some v else lookup k ms

/-- `dict.get`: null when the key is absent, or when the value is no object. -/
def get (j : Json) (k : String) : Json :=
  match j with
  | .obj ms => (lookup (lit k) ms).getD .null
  | _ => .null

/-- Whether an object has a key. -/
def has (j : Json) (k : String) : Bool :=
  match j with
  | .obj ms => (lookup (lit k) ms).isSome
  | _ => false

def isObj : Json → Bool
  | .obj _ => true
  | _ => false

/-- The members of an object, and their names. -/
def members : Json → List (Str × Json)
  | .obj ms => ms
  | _ => []

def names (j : Json) : List Str := j.members.map Prod.fst

/-- The text a value is, if it is one. -/
def asStr : Json → Option Str
  | .str s => some s
  | _ => none

/-- Writing a key: in place when it is there, at the end when it is not. -/
def insert (k : Str) (v : Json) : List (Str × Json) → List (Str × Json)
  | [] => [(k, v)]
  | (l, w) :: ms => if k = l then (l, v) :: ms else (l, w) :: insert k v ms

/-- `dict.__setitem__`. -/
def set (j : Json) (k : String) (v : Json) : Json :=
  match j with
  | .obj ms => .obj (insert (lit k) v ms)
  | j => j

/-- `dict.update`. -/
def update (j : Json) (changes : List (String × Json)) : Json :=
  changes.foldl (fun j c => j.set c.1 c.2) j

/-- A dictionary display. -/
def ofList (ms : List (String × Json)) : Json := .obj (ms.map fun m => (lit m.1, m.2))

/-- Optional values, `None` being null. -/
def ofOption : Option Json → Json
  | some j => j
  | none => .null

theorem lookup_insert_self (k : Str) (v : Json) (ms : List (Str × Json)) :
    lookup k (insert k v ms) = some v := by
  induction ms with
  | nil => simp only [insert, lookup, if_true]
  | cons m ms ih =>
      rcases m with ⟨l, w⟩
      by_cases hkl : k = l
      · simp only [insert, if_pos hkl, lookup]
      · simp only [insert, if_neg hkl, lookup, ih]

theorem lookup_insert_other {k l : Str} (h : l ≠ k) (v : Json) (ms : List (Str × Json)) :
    lookup l (insert k v ms) = lookup l ms := by
  induction ms with
  | nil => simp only [insert, lookup, if_neg h]
  | cons m ms ih =>
      rcases m with ⟨n, w⟩
      by_cases hkn : k = n
      · subst hkn
        simp only [insert, if_true, lookup, if_neg h]
      · simp only [insert, if_neg hkn, lookup, ih]

@[simp] theorem isObj_set (j : Json) (k : String) (v : Json) : (j.set k v).isObj = j.isObj := by
  cases j <;> rfl

theorem get_set_self {j : Json} (h : j.isObj = true) (k : String) (v : Json) :
    (j.set k v).get k = v := by
  cases j with
  | obj ms => simp only [set, get, lookup_insert_self, Option.getD_some]
  | _ => simp only [isObj, Bool.false_eq_true] at h

theorem get_set_other {k l : String} (h : l ≠ k) (j : Json) (v : Json) :
    (j.set k v).get l = j.get l := by
  cases j with
  | obj ms => simp only [set, get, lookup_insert_other (fun hc => h (lit_inj.mp hc))]
  | _ => rfl

theorem has_set_other {k l : String} (h : l ≠ k) (j : Json) (v : Json) :
    (j.set k v).has l = j.has l := by
  cases j with
  | obj ms => simp only [set, has, lookup_insert_other (fun hc => h (lit_inj.mp hc))]
  | _ => rfl

@[simp] theorem isObj_update (j : Json) (cs : List (String × Json)) :
    (j.update cs).isObj = j.isObj := by
  induction cs generalizing j with
  | nil => rfl
  | cons c cs ih =>
      rw [update, List.foldl_cons]
      exact (ih _).trans (isObj_set j c.1 c.2)

/-- The exact number a value is under `==`. Under JSON equality a boolean is
    none. -/
def number (boolIsInt : Bool) : Json → Option (Int × Int)
  | .bool b => if boolIsInt then some (if b then 1 else 0, 0) else none
  | .int n => some (n, 0)
  | .float x => x.num
  | _ => none

mutual

/-- Equality up to the order of members and the spelling of numbers. -/
def equivalent (boolIsInt : Bool) : Json → Json → Bool
  | .null, .null => true
  | .bool a, .bool b => a == b
  | .str a, .str b => a == b
  | .arr a, .arr b => equivalentItems boolIsInt a b
  | .obj a, .obj b => a.length == b.length && equivalentMembers boolIsInt a b
  | .float (.inf a), .float (.inf b) => a == b
  | a, b =>
    match number boolIsInt a, number boolIsInt b with
    | some x, some y => dyadicEq x y
    | _, _ => false
termination_by structural a => a

def equivalentItems (boolIsInt : Bool) : List Json → List Json → Bool
  | [], [] => true
  | x :: xs, y :: ys => equivalent boolIsInt x y && equivalentItems boolIsInt xs ys
  | _, _ => false
termination_by structural a => a

/-- Every member of the first list is matched in the second. -/
def equivalentMembers (boolIsInt : Bool) : List (Str × Json) → List (Str × Json) → Bool
  | [], _ => true
  | (k, v) :: ms, ns =>
    (match lookup k ns with
      | some w => equivalent boolIsInt v w
      | none => false) && equivalentMembers boolIsInt ms ns
termination_by structural a => a

end

/-- A text is equal to nothing but itself. -/
theorem equivalent_str (b : Bool) (j : Json) (s : Str) :
    equivalent b j (.str s) = true ↔ j = .str s := by
  cases j with
  | str t => simp [equivalent]
  | float x => cases x <;> simp [equivalent, number]
  | _ => simp [equivalent, number]

/-- What a member list has, an equivalent one has. -/
theorem equivalentMembers_lookup {b : Bool} {k : Str} {ms ns : List (Str × Json)} {v : Json}
    (h : equivalentMembers b ms ns = true) (hv : lookup k ms = some v) :
    ∃ w, lookup k ns = some w ∧ equivalent b v w = true := by
  induction ms with
  | nil => cases hv
  | cons m ms ih =>
      rcases m with ⟨l, x⟩
      rw [equivalentMembers, Bool.and_eq_true] at h
      by_cases hkl : k = l
      · rw [lookup, if_pos hkl, Option.some.injEq] at hv
        rw [← hv, hkl]
        cases hl : lookup l ns with
        | none =>
            rw [hl] at h
            cases h.1
        | some w =>
            rw [hl] at h
            exact ⟨w, rfl, h.1⟩
      · rw [lookup, if_neg hkl] at hv
        exact ih h.2 hv

/-- A member that is there is equivalent to the one of an equivalent value. -/
theorem equivalent_get {b : Bool} {x y : Json} {k : String} (h : equivalent b x y = true)
    (hk : x.has k = true) : equivalent b (x.get k) (y.get k) = true := by
  cases x with
  | obj ms =>
      rw [has, Option.isSome_iff_exists] at hk
      rcases hk with ⟨v, hv⟩
      cases y with
      | obj ns =>
          rw [equivalent, Bool.and_eq_true] at h
          rcases equivalentMembers_lookup h.2 hv with ⟨w, hw, hvw⟩
          rw [get, get, hv, hw]
          exact hvw
      | float x => cases x <;> simp [equivalent, number] at h
      | _ => simp [equivalent, number] at h
  | _ => cases hk

mutual

/-- No object at any depth repeats a key. -/
def WellFormed : Json → Prop
  | .arr xs => WellFormedItems xs
  | .obj ms => (ms.map Prod.fst).Nodup ∧ WellFormedMembers ms
  | _ => True
termination_by structural a => a

def WellFormedItems : List Json → Prop
  | [] => True
  | x :: xs => WellFormed x ∧ WellFormedItems xs
termination_by structural a => a

def WellFormedMembers : List (Str × Json) → Prop
  | [] => True
  | (_, v) :: ms => WellFormed v ∧ WellFormedMembers ms
termination_by structural a => a

end

theorem wellFormed_lookup {k : Str} {ms : List (Str × Json)} {v : Json}
    (h : WellFormedMembers ms) (hv : lookup k ms = some v) : WellFormed v := by
  induction ms with
  | nil => simp only [lookup, reduceCtorEq] at hv
  | cons m ms ih =>
      rcases m with ⟨l, w⟩
      simp only [WellFormedMembers] at h
      by_cases hkl : k = l
      · simp only [lookup, if_pos hkl, Option.some.injEq] at hv
        exact hv ▸ h.1
      · simp only [lookup, if_neg hkl] at hv
        exact ih h.2 hv

theorem wellFormed_get {j : Json} (h : j.WellFormed) (k : String) : (j.get k).WellFormed := by
  cases j with
  | obj ms =>
      simp only [WellFormed] at h
      simp only [get]
      cases hv : lookup (lit k) ms with
      | none => simp only [Option.getD_none, WellFormed]
      | some v => exact wellFormed_lookup h.2 hv
  | _ => simp only [get, WellFormed]

theorem keys_insert (k : Str) (v : Json) (ms : List (Str × Json)) :
    (insert k v ms).map Prod.fst = if k ∈ ms.map Prod.fst then ms.map Prod.fst
      else ms.map Prod.fst ++ [k] := by
  induction ms with
  | nil => rfl
  | cons m ms ih =>
      rcases m with ⟨l, w⟩
      by_cases hkl : k = l
      · simp [insert, hkl]
      · by_cases hmem : k ∈ ms.map Prod.fst
        · rw [if_pos hmem] at ih
          simp only [insert, if_neg hkl, List.map_cons, ih]
          rw [if_pos (List.mem_cons_of_mem _ hmem)]
        · rw [if_neg hmem] at ih
          simp only [insert, if_neg hkl, List.map_cons, ih]
          rw [if_neg (fun hc => (List.mem_cons.mp hc).elim hkl hmem)]
          rfl

theorem wellFormedMembers_insert {k : Str} {v : Json} {ms : List (Str × Json)}
    (h : WellFormedMembers ms) (hv : WellFormed v) : WellFormedMembers (insert k v ms) := by
  induction ms with
  | nil =>
      simp only [insert, WellFormedMembers]
      exact ⟨hv, trivial⟩
  | cons m ms ih =>
      rcases m with ⟨l, w⟩
      simp only [WellFormedMembers] at h
      by_cases hkl : k = l
      · simp only [insert, if_pos hkl, WellFormedMembers]
        exact ⟨hv, h.2⟩
      · simp only [insert, if_neg hkl, WellFormedMembers]
        exact ⟨h.1, ih h.2⟩

theorem wellFormed_set {j : Json} (h : j.WellFormed) (k : String) {v : Json} (hv : v.WellFormed) :
    (j.set k v).WellFormed := by
  cases j with
  | obj ms =>
      simp only [WellFormed] at h
      simp only [set, WellFormed]
      refine ⟨?_, wellFormedMembers_insert h.2 hv⟩
      rw [keys_insert]
      by_cases hmem : lit k ∈ ms.map Prod.fst
      · rw [if_pos hmem]
        exact h.1
      · rw [if_neg hmem]
        exact List.nodup_append.mpr ⟨h.1, List.nodup_singleton _, by
          intro a ha b hb hab
          rw [List.mem_singleton] at hb
          exact hmem (hb ▸ hab ▸ ha)⟩
  | _ => exact h

theorem wellFormed_update {j : Json} (h : j.WellFormed) {cs : List (String × Json)}
    (hcs : ∀ c ∈ cs, c.2.WellFormed) : (j.update cs).WellFormed := by
  induction cs generalizing j with
  | nil => exact h
  | cons c cs ih =>
      rw [update, List.foldl_cons]
      exact ih (wellFormed_set h c.1 (hcs c List.mem_cons_self))
        (fun d hd => hcs d (List.mem_cons_of_mem _ hd))

theorem wellFormed_ofList {ms : List (String × Json)} (hk : (ms.map Prod.fst).Nodup)
    (hv : ∀ m ∈ ms, m.2.WellFormed) : (ofList ms).WellFormed := by
  refine ⟨?_, ?_⟩
  · rw [List.map_map]
    have hmap : (ms.map fun m => lit m.1).Nodup := by
      have hlit : Function.Injective lit := fun a b h => lit_inj.mp h
      have h := List.Nodup.map hlit hk
      rwa [List.map_map] at h
    exact hmap
  · clear hk
    induction ms with
    | nil => exact trivial
    | cons m ms ih =>
        exact ⟨hv m List.mem_cons_self, ih fun n hn => hv n (List.mem_cons_of_mem _ hn)⟩

theorem wellFormed_ofOption {j : Option Json} (h : ∀ v, j = some v → v.WellFormed) :
    (ofOption j).WellFormed := by
  cases j with
  | none => exact trivial
  | some v => exact h v rfl

end Json

/-- Python's `==` on JSON values. -/
def pyEq (a b : Json) : Bool := Json.equivalent true a b

/-- Equality of JSON values. -/
def sameJson (a b : Json) : Bool := Json.equivalent false a b

end Py
