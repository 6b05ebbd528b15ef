import Allowly.Base.JsonGrammar

/-!
# Scanning Values

`scanValue` reads exactly the texts of a value, and `parse` exactly the texts with
whitespace around them.

The scanner calls itself on a smaller bound, so soundness is an induction on the
bound, for values, items and members together. Completeness follows the value
instead. Each bracket costs the scanner one of its bound and the text at least one
character, which is why a bound past the length of the text is enough.

## Main definitions

* `ScansSoundly`: What soundness says of the three scanners at one bound.
* `ReadsValue`, `ReadsItems`, `ReadsMembers`: What completeness says of each.

## Theorems

* `scanValue_sound`: An accepted prefix is a text of the value.
* `scanValue_complete`: A text of a value is read as that value.
* `parse_iff`: A whole text is accepted exactly when it names the value.
-/

namespace Py

/-! ### Soundness -/

theorem valueText_word {constants : Bool} {w : Str} {j : Json}
    (h : (w, j) ∈ words constants) : ValueText constants j w := by
  simp only [words, List.mem_append, List.mem_cons, Prod.mk.injEq, List.not_mem_nil,
    or_false] at h
  rcases h with (⟨rfl, rfl⟩ | ⟨rfl, rfl⟩ | ⟨rfl, rfl⟩) | h
  · exact rfl
  · exact rfl
  · exact rfl
  · by_cases hc : constants = true
    · rw [if_pos hc] at h
      simp only [List.mem_cons, Prod.mk.injEq, List.not_mem_nil, or_false] at h
      rcases h with ⟨rfl, rfl⟩ | ⟨rfl, rfl⟩ | ⟨rfl, rfl⟩
      · exact Or.inr ⟨hc, rfl⟩
      · exact Or.inr ⟨hc, rfl⟩
      · exact Or.inr ⟨hc, rfl⟩
    · rw [if_neg hc] at h
      exact absurd h List.not_mem_nil

/-- A number literal denotes an integer or a float. -/
theorem valueText_number {constants : Bool} {j : Json} {t : Str} (h : NumberText j t) :
    ValueText constants j t := by
  have hkind : ∀ neg int frac exp, numberValue neg int frac exp = some j →
      (∃ n, j = .int n) ∨ ∃ x, j = .float x := by
    intro neg int frac exp hj
    unfold numberValue at hj
    split at hj
    · split at hj
      · exact Or.inl ⟨_, (Option.some.inj hj).symm⟩
      · cases hj
    · exact Or.inr ⟨_, (Option.some.inj hj).symm⟩
  rcases h with ⟨neg, int, frac, f, exp, x, hi, hf, hx, ht, hj⟩
  rcases hkind neg int frac exp hj with ⟨n, rfl⟩ | ⟨y, rfl⟩
  · exact ⟨neg, int, frac, f, exp, x, hi, hf, hx, ht, hj⟩
  · exact Or.inl ⟨neg, int, frac, f, exp, x, hi, hf, hx, ht, hj⟩

/-- What soundness says of the three scanners at one bound. -/
def ScansSoundly (constants : Bool) (n : Nat) : Prop :=
  (∀ s j r, scanValue constants n s = some (j, r) →
    ∃ a, ValueText constants j a ∧ s = a ++ r) ∧
  (∀ s xs r, scanItems constants n s = some (xs, r) →
    xs ≠ [] ∧ ∃ b, ItemsText constants xs b ∧ s = b ++ 93 :: r) ∧
  (∀ s ms r, scanMembers constants n s = some (ms, r) →
    ms ≠ [] ∧ ∃ b, MembersText constants ms b ∧ s = b ++ 125 :: r)

/-- Items may have whitespace before the first of them. -/
theorem itemsText_ws {constants : Bool} {xs : List Json} {w b : Str} (hw : Ws w)
    (h : ItemsText constants xs b) : ItemsText constants xs (w ++ b) := by
  cases xs with
  | nil => exact ws_append hw h
  | cons x xs =>
      rcases h with ⟨w', a, v, e, hw', ha, hv, rfl, he⟩
      exact ⟨w ++ w', a, v, e, ws_append hw hw', ha, hv, (List.append_assoc _ _ _).symm, he⟩

theorem membersText_ws {constants : Bool} {ms : List (Str × Json)} {w b : Str} (hw : Ws w)
    (h : MembersText constants ms b) : MembersText constants ms (w ++ b) := by
  cases ms with
  | nil => exact ws_append hw h
  | cons m ms =>
      rcases h with ⟨w', a, v, u, c, z, e, hw', ha, hv, hu, hc, hz, rfl, he⟩
      exact ⟨w ++ w', a, v, u, c, z, e, ws_append hw hw', ha, hv, hu, hc, hz,
        (List.append_assoc _ _ _).symm, he⟩

theorem scanValue_sound_succ {constants : Bool} {n : Nat} (ih : ScansSoundly constants n)
    (s : Str) (j : Json) (r : Str) (h : scanValue constants (n + 1) s = some (j, r)) :
    ∃ a, ValueText constants j a ∧ s = a ++ r := by
  rcases s with _ | ⟨c, s⟩
  · simp only [scanValue, reduceCtorEq] at h
  rw [scanValue] at h
  by_cases hq : c = 34
  · subst hq
    simp only [if_true, Option.bind_eq_bind, Option.bind_eq_some_iff, Option.pure_def,
      Option.some.injEq, Prod.mk.injEq] at h
    rcases h with ⟨⟨t, r'⟩, ht, rfl, rfl⟩
    rcases (scanString_iff t s r').mp ht with ⟨a, ha, rfl⟩
    exact ⟨34 :: a, ha, rfl⟩
  rw [if_neg hq] at h
  rcases skipWs_split s with ⟨w, hw, hs⟩
  by_cases hb : c = 91
  · subst hb
    rw [if_pos rfl] at h
    split at h
    · next r' heq =>
        simp only [Option.some.injEq, Prod.mk.injEq] at h
        rcases h with ⟨rfl, rfl⟩
        refine ⟨91 :: (w ++ [93]), ⟨w, hw, rfl⟩, ?_⟩
        rw [hs, heq]
        simp only [List.cons_append, List.append_assoc, List.nil_append]
    · next t heq =>
        simp only [Option.bind_eq_bind, Option.bind_eq_some_iff, Option.pure_def,
          Option.some.injEq, Prod.mk.injEq] at h
        rcases h with ⟨⟨xs, r'⟩, hx, rfl, rfl⟩
        rcases ih.2.1 _ _ _ hx with ⟨_, b, hbt, hbe⟩
        refine ⟨91 :: (w ++ b ++ [93]), ⟨w ++ b, itemsText_ws hw hbt, rfl⟩, ?_⟩
        rw [hs, hbe]
        simp only [List.cons_append, List.append_assoc, List.nil_append]
  rw [if_neg hb] at h
  by_cases ho : c = 123
  · subst ho
    rw [if_pos rfl] at h
    split at h
    · next r' heq =>
        simp only [Option.some.injEq, Prod.mk.injEq] at h
        rcases h with ⟨rfl, rfl⟩
        refine ⟨123 :: (w ++ [125]), ⟨w, hw, rfl⟩, ?_⟩
        rw [hs, heq]
        simp only [List.cons_append, List.append_assoc, List.nil_append]
    · next t heq =>
        simp only [Option.bind_eq_bind, Option.bind_eq_some_iff, Option.pure_def,
          Option.some.injEq, Prod.mk.injEq] at h
        rcases h with ⟨⟨ms, r'⟩, hm, rfl, rfl⟩
        rcases ih.2.2 _ _ _ hm with ⟨_, b, hbt, hbe⟩
        refine ⟨123 :: (w ++ b ++ [125]), ⟨w ++ b, membersText_ws hw hbt, rfl⟩, ?_⟩
        rw [hs, hbe]
        simp only [List.cons_append, List.append_assoc, List.nil_append]
  rw [if_neg ho] at h
  cases hword : scanWord constants (c :: s) with
  | some p =>
      rw [hword] at h
      simp only [Option.some.injEq] at h
      subst h
      rcases scanWord_sound hword with ⟨a, ha, heq⟩
      exact ⟨a, valueText_word ha, heq⟩
  | none =>
      rw [hword] at h
      simp only at h
      rcases scanNumber_sound h with ⟨a, ha, heq⟩
      exact ⟨a, valueText_number ha, heq⟩

theorem scanItems_sound_succ {constants : Bool} {n : Nat} (ih : ScansSoundly constants n)
    (s : Str) (xs : List Json) (r : Str) (h : scanItems constants (n + 1) s = some (xs, r)) :
    xs ≠ [] ∧ ∃ b, ItemsText constants xs b ∧ s = b ++ 93 :: r := by
  rw [scanItems] at h
  simp only [Option.bind_eq_bind, Option.bind_eq_some_iff] at h
  rcases h with ⟨⟨x, t⟩, hx, h⟩
  rcases ih.1 _ _ _ hx with ⟨a, ha, rfl⟩
  rcases skipWs_split t with ⟨v, hv, ht⟩
  simp only at h
  split at h
  · next r' heq =>
      simp only [Option.some.injEq, Prod.mk.injEq] at h
      rcases h with ⟨rfl, rfl⟩
      refine ⟨List.cons_ne_nil _ _, a ++ v,
        ⟨[], a, v, [], ws_nil, ha, hv, by rw [List.append_nil]; rfl, Or.inl ⟨rfl, rfl⟩⟩, ?_⟩
      rw [ht, heq, List.append_assoc]
  · next u heq =>
      simp only [Option.bind_eq_some_iff, Option.pure_def,
        Option.some.injEq, Prod.mk.injEq] at h
      rcases h with ⟨⟨ys, r'⟩, hy, rfl, rfl⟩
      rcases ih.2.1 _ _ _ hy with ⟨hne, b, hb, hbe⟩
      rcases skipWs_split u with ⟨w, hw, hu⟩
      refine ⟨List.cons_ne_nil _ _, a ++ (v ++ 44 :: (w ++ b)),
        ⟨[], a, v, 44 :: (w ++ b), ws_nil, ha, hv, rfl,
          Or.inr ⟨hne, _, rfl, itemsText_ws hw hb⟩⟩, ?_⟩
      rw [ht, heq, hu, hbe]
      simp only [List.cons_append, List.append_assoc]
  · cases h

theorem scanMembers_sound_succ {constants : Bool} {n : Nat} (ih : ScansSoundly constants n)
    (s : Str) (ms : List (Str × Json)) (r : Str)
    (h : scanMembers constants (n + 1) s = some (ms, r)) :
    ms ≠ [] ∧ ∃ b, MembersText constants ms b ∧ s = b ++ 125 :: r := by
  unfold scanMembers at h
  split at h
  · next heq => cases heq
  · next m s' heq =>
      rw [Nat.add_right_cancel_iff] at heq
      subst heq
      simp only [Option.bind_eq_bind, Option.bind_eq_some_iff] at h
      rcases h with ⟨⟨k, t⟩, hk, h⟩
      rcases (scanString_iff k s' t).mp hk with ⟨a, ha, rfl⟩
      rcases skipWs_split t with ⟨v, hv, ht⟩
      simp only at h
      split at h
      · next t' heq =>
          rcases skipWs_split t' with ⟨u, hu, ht'⟩
          simp only [Option.bind_eq_some_iff] at h
          rcases h with ⟨⟨y, q⟩, hy, h⟩
          rcases ih.1 _ _ _ hy with ⟨b, hb, hbe⟩
          rcases skipWs_split q with ⟨z, hz, hq⟩
          simp only at h
          split at h
          · next r' hend =>
              simp only [Option.some.injEq, Prod.mk.injEq] at h
              rcases h with ⟨rfl, rfl⟩
              refine ⟨List.cons_ne_nil _ _, 34 :: a ++ (v ++ 58 :: (u ++ (b ++ (z ++ [])))),
                ⟨[], 34 :: a, v, u, b, z, [], ws_nil, ha, hv, hu, hb, hz, rfl,
                  Or.inl ⟨rfl, rfl⟩⟩, ?_⟩
              rw [ht, heq, ht', hbe, hq, hend]
              simp only [List.cons_append, List.append_assoc, List.append_nil]
          · next q' hend =>
              simp only [Option.bind_eq_some_iff, Option.pure_def,
                Option.some.injEq, Prod.mk.injEq] at h
              rcases h with ⟨⟨ns, r'⟩, hn, rfl, rfl⟩
              rcases ih.2.2 _ _ _ hn with ⟨hne, e, he, hee⟩
              rcases skipWs_split q' with ⟨w, hw, hq'⟩
              refine ⟨List.cons_ne_nil _ _,
                34 :: a ++ (v ++ 58 :: (u ++ (b ++ (z ++ 44 :: (w ++ e))))),
                ⟨[], 34 :: a, v, u, b, z, 44 :: (w ++ e), ws_nil, ha, hv, hu, hb, hz, rfl,
                  Or.inr ⟨hne, _, rfl, membersText_ws hw he⟩⟩, ?_⟩
              rw [ht, heq, ht', hbe, hq, hend, hq', hee]
              simp only [List.cons_append, List.append_assoc]
          · cases h
      · cases h
  · cases h

theorem scansSoundly (constants : Bool) (n : Nat) : ScansSoundly constants n := by
  induction n with
  | zero =>
      refine ⟨?_, ?_, ?_⟩
      · intro s j r h
        simp only [scanValue, reduceCtorEq] at h
      · intro s xs r h
        simp only [scanItems, reduceCtorEq] at h
      · intro s ms r h
        simp only [scanMembers, reduceCtorEq] at h
  | succ n ih =>
      exact ⟨scanValue_sound_succ ih, scanItems_sound_succ ih, scanMembers_sound_succ ih⟩

/-- An accepted prefix is a text of the value. -/
theorem scanValue_sound {constants : Bool} {n : Nat} {s r : Str} {j : Json}
    (h : scanValue constants n s = some (j, r)) : ∃ a, ValueText constants j a ∧ s = a ++ r :=
  (scansSoundly constants n).1 s j r h

/-! ### Completeness -/

theorem follow_nil : Follow [] := by
  intro c t h
  cases h

theorem follow_ws {v r : Str} (hv : Ws v) (hr : Follow r) : Follow (v ++ r) := by
  cases v with
  | nil => exact hr
  | cons c v =>
      intro d t h
      rw [List.cons_append, List.cons.injEq] at h
      have hc : ∀ c, isWs c = true → isDigit c = false ∧ c ≠ 46 ∧ c ≠ 101 ∧ c ≠ 69 := by
        intro c hc
        simp only [isWs, Bool.or_eq_true, beq_iff_eq] at hc
        rcases hc with ((rfl | rfl) | rfl) | rfl <;> decide
      rw [← h.1]
      exact hc c (hv c List.mem_cons_self)

theorem follow_cons {c : Nat} (hc : c = 44 ∨ c = 93 ∨ c = 125) (r : Str) : Follow (c :: r) := by
  intro d t h
  rw [List.cons.injEq] at h
  rw [← h.1]
  rcases hc with rfl | rfl | rfl <;> decide

theorem numberText_head {j : Json} {t : Str} (h : NumberText j t) :
    ∃ (neg : Bool) (c : Nat) (r : Str),
      t = (if neg then [45] else []) ++ c :: r ∧ isDigit c = true := by
  rcases h with ⟨neg, int, frac, f, exp, x, hi, _, _, rfl, _⟩
  rcases intText_head hi with ⟨c, r, rfl, hc⟩
  refine ⟨neg, c, r ++ f ++ x, ?_, hc⟩
  simp only [List.append_assoc, List.cons_append]

/-- A value begins with a character that is neither whitespace nor a closing
    bracket. -/
theorem valueText_head {constants : Bool} {j : Json} {t : Str}
    (h : ValueText constants j t) :
    ∃ c r, t = c :: r ∧ isWs c = false ∧ c ≠ 93 := by
  have hnum : NumberText j t → ∃ c r, t = c :: r ∧ isWs c = false ∧ c ≠ 93 := by
    intro hn
    rcases numberText_head hn with ⟨neg, c, r, rfl, hc⟩
    cases neg with
    | true => exact ⟨45, _, rfl, by decide, by decide⟩
    | false =>
        refine ⟨c, r, rfl, ?_, isDigit_ne hc (by decide)⟩
        have h32 := isDigit_ne hc (show isDigit 32 = false by decide)
        have h9 := isDigit_ne hc (show isDigit 9 = false by decide)
        have h10 := isDigit_ne hc (show isDigit 10 = false by decide)
        have h13 := isDigit_ne hc (show isDigit 13 = false by decide)
        simp only [isWs, Bool.or_eq_false_iff, beq_eq_false_iff_ne]
        exact ⟨⟨⟨h32, h9⟩, h10⟩, h13⟩
  cases j with
  | null => exact ⟨110, _, h, by decide, by decide⟩
  | bool b =>
      cases b with
      | true => exact ⟨116, _, h, by decide, by decide⟩
      | false => exact ⟨102, _, h, by decide, by decide⟩
  | int n => exact hnum h
  | float x =>
      rcases h with h | ⟨_, h⟩
      · exact hnum h
      · cases x with
        | finite neg m e => exact False.elim h
        | nan => exact ⟨78, _, h, by decide, by decide⟩
        | inf neg =>
            cases neg with
            | true => exact ⟨45, _, h, by decide, by decide⟩
            | false => exact ⟨73, _, h, by decide, by decide⟩
  | str s =>
      rcases h with ⟨us, b, _, _, rfl⟩
      exact ⟨34, _, rfl, by decide, by decide⟩
  | arr xs =>
      rcases h with ⟨b, _, rfl⟩
      exact ⟨91, _, rfl, by decide, by decide⟩
  | obj ms =>
      rcases h with ⟨b, _, rfl⟩
      exact ⟨123, _, rfl, by decide, by decide⟩

theorem scanValue_word {constants : Bool} {w : Str} {j : Json} (h : (w, j) ∈ words constants)
    (n : Nat) (r : Str) : scanValue constants (n + 1) (w ++ r) = some (j, r) := by
  have hhead : ∃ c t, w = c :: t ∧ c ≠ 34 ∧ c ≠ 91 ∧ c ≠ 123 := by
    have hall : ∀ p ∈ words constants, p.1 ≠ [] ∧ p.1.headD 34 ≠ 34 ∧ p.1.headD 34 ≠ 91 ∧
        p.1.headD 34 ≠ 123 := by
      cases constants <;> decide +kernel
    have hw := hall _ h
    rcases w with _ | ⟨c, t⟩
    · exact absurd rfl hw.1
    · exact ⟨c, t, rfl, hw.2⟩
  rcases hhead with ⟨c, t, rfl, hq, hb, ho⟩
  have hword := scanWord_complete h r
  rw [List.cons_append] at hword ⊢
  rw [scanValue, if_neg hq, if_neg hb, if_neg ho, hword]

theorem scanValue_number {constants : Bool} {j : Json} {a : Str} (h : NumberText j a) (n : Nat)
    {r : Str} (hr : Follow r) : scanValue constants (n + 1) (a ++ r) = some (j, r) := by
  rcases numberText_head h with ⟨neg, c, t, rfl, hc⟩
  have hnone : scanWord constants ((if neg then [45] else []) ++ c :: t ++ r) = none := by
    rw [List.append_assoc]
    exact scanWord_number hc _
  have hnum := scanNumber_complete h hr
  have hhead : ∃ d u, (if neg then [45] else []) ++ c :: t ++ r = d :: u ∧
      d ≠ 34 ∧ d ≠ 91 ∧ d ≠ 123 := by
    cases neg with
    | true => exact ⟨45, _, rfl, by decide, by decide, by decide⟩
    | false =>
        exact ⟨c, _, rfl, isDigit_ne hc (by decide), isDigit_ne hc (by decide),
          isDigit_ne hc (by decide)⟩
  rcases hhead with ⟨d, u, heq, hq, hb, ho⟩
  rw [heq] at hnone hnum ⊢
  rw [scanValue, if_neg hq, if_neg hb, if_neg ho, hnone]
  exact hnum

/-- Completeness for one value: with enough of a bound, each of its texts is
    read as that value. -/
def ReadsValue (constants : Bool) (j : Json) : Prop :=
  ∀ a n r, ValueText constants j a → Follow r → a.length < n →
    scanValue constants n (a ++ r) = some (j, r)

def ReadsItems (constants : Bool) (xs : List Json) : Prop :=
  xs ≠ [] → ∀ b n r, ItemsText constants xs b → b.length + 1 < n →
    scanItems constants n (skipWs (b ++ 93 :: r)) = some (xs, r)

def ReadsMembers (constants : Bool) (ms : List (Str × Json)) : Prop :=
  ms ≠ [] → ∀ b n r, MembersText constants ms b → b.length + 1 < n →
    scanMembers constants n (skipWs (b ++ 125 :: r)) = some (ms, r)

theorem itemsText_skip {constants : Bool} {x : Json} {xs : List Json} {b : Str}
    (h : ItemsText constants (x :: xs) b) (r : Str) :
    ∃ c t, skipWs (b ++ 93 :: r) = c :: t ∧ c ≠ 93 := by
  rcases h with ⟨w, a, v, e, hw, ha, _, rfl, _⟩
  rcases valueText_head ha with ⟨c, t, rfl, hc, hne⟩
  refine ⟨c, t ++ (v ++ (e ++ 93 :: r)), ?_, hne⟩
  simp only [List.append_assoc, skipWs_append hw, List.cons_append, skipWs_cons hc]

theorem membersText_skip {constants : Bool} {m : Str × Json} {ms : List (Str × Json)} {b : Str}
    (h : MembersText constants (m :: ms) b) (r : Str) :
    ∃ t, skipWs (b ++ 125 :: r) = 34 :: t := by
  rcases h with ⟨w, a, v, u, c, z, e, hw, ⟨us, k, _, _, rfl⟩, _, _, _, _, rfl, _⟩
  have hq : isWs 34 = false := by decide
  refine ⟨k ++ [34] ++ (v ++ 58 :: (u ++ (c ++ (z ++ (e ++ 125 :: r))))), ?_⟩
  simp only [List.append_assoc, skipWs_append hw, List.cons_append, skipWs_cons hq]

theorem readsValue_arr {constants : Bool} {xs : List Json} (ih : ReadsItems constants xs) :
    ReadsValue constants (.arr xs) := by
  rintro a n r ⟨b, hb, rfl⟩ _ hn
  simp only [List.length_cons, List.length_append, List.length_nil] at hn
  obtain ⟨n, rfl⟩ : ∃ m, n = m + 1 := ⟨n - 1, by omega⟩
  simp only [List.cons_append, List.append_assoc, List.nil_append, scanValue]
  rw [if_neg (by decide), if_pos trivial]
  cases xs with
  | nil =>
      have hclose : skipWs (b ++ 93 :: r) = 93 :: r := by
        rw [skipWs_append hb, skipWs_cons (by decide)]
      simp only [hclose]
  | cons x xs =>
      rcases itemsText_skip hb r with ⟨c, t, hct, hc⟩
      have hread := ih (List.cons_ne_nil _ _) b n r hb (by omega)
      rw [hct] at hread ⊢
      split
      · next heq => exact absurd (List.cons.inj heq).1 hc
      · rw [hread]
        rfl

theorem readsValue_obj {constants : Bool} {ms : List (Str × Json)}
    (ih : ReadsMembers constants ms) : ReadsValue constants (.obj ms) := by
  rintro a n r ⟨b, hb, rfl⟩ _ hn
  simp only [List.length_cons, List.length_append, List.length_nil] at hn
  obtain ⟨n, rfl⟩ : ∃ m, n = m + 1 := ⟨n - 1, by omega⟩
  simp only [List.cons_append, List.append_assoc, List.nil_append, scanValue]
  rw [if_neg (by decide), if_neg (by decide), if_pos trivial]
  cases ms with
  | nil =>
      have hclose : skipWs (b ++ 125 :: r) = 125 :: r := by
        rw [skipWs_append hb, skipWs_cons (by decide)]
      simp only [hclose]
  | cons m ms =>
      rcases membersText_skip hb r with ⟨t, ht⟩
      have hread := ih (List.cons_ne_nil _ _) b n r hb (by omega)
      rw [ht] at hread ⊢
      split
      · next heq => exact absurd (List.cons.inj heq).1 (by decide)
      · rw [hread]
        rfl

theorem readsItems_cons {constants : Bool} {x : Json} {xs : List Json}
    (hx : ReadsValue constants x) (ih : ReadsItems constants xs) :
    ReadsItems constants (x :: xs) := by
  rintro _ b n r ⟨w, a, v, e, hw, ha, hv, rfl, he⟩ hn
  simp only [List.length_append] at hn
  obtain ⟨n, rfl⟩ : ∃ m, n = m + 1 := ⟨n - 1, by omega⟩
  rcases valueText_head ha with ⟨c, t, rfl, hc, _⟩
  have hstart : skipWs (w ++ ((c :: t) ++ (v ++ e)) ++ 93 :: r)
      = (c :: t) ++ (v ++ (e ++ 93 :: r)) := by
    simp only [List.append_assoc, skipWs_append hw, List.cons_append, skipWs_cons hc]
  rcases he with ⟨rfl, rfl⟩ | ⟨hne, e', rfl, he'⟩
  · have hread := hx (c :: t) n (v ++ 93 :: r) ha (follow_ws hv (follow_cons (by decide) r))
      (by omega)
    have hclose : skipWs (v ++ 93 :: r) = 93 :: r := by
      rw [skipWs_append hv, skipWs_cons (by decide)]
    rw [hstart, List.nil_append, scanItems, hread]
    simp only [Option.bind_eq_bind, Option.bind_some, hclose]
  · simp only [List.length_cons] at hn
    have hread := hx (c :: t) n (v ++ 44 :: (e' ++ 93 :: r)) ha
      (follow_ws hv (follow_cons (by decide) _)) (by simp only [List.length_cons]; omega)
    have hcomma : skipWs (v ++ 44 :: (e' ++ 93 :: r)) = 44 :: (e' ++ 93 :: r) := by
      rw [skipWs_append hv, skipWs_cons (by decide)]
    have hrest : 44 :: e' ++ 93 :: r = 44 :: (e' ++ 93 :: r) := rfl
    rw [hstart, hrest, scanItems, hread]
    simp only [Option.bind_eq_bind, Option.bind_some, hcomma]
    rw [ih hne e' n r he' (by omega)]
    rfl

theorem readsMembers_cons {constants : Bool} {k : Str} {y : Json} {ms : List (Str × Json)}
    (hy : ReadsValue constants y) (ih : ReadsMembers constants ms) :
    ReadsMembers constants ((k, y) :: ms) := by
  rintro _ b n r ⟨w, a, v, u, c, z, e, hw, ha, hv, hu, hc, hz, rfl, he⟩ hn
  simp only [List.length_append, List.length_cons] at hn
  obtain ⟨n, rfl⟩ : ∃ m, n = m + 1 := ⟨n - 1, by omega⟩
  obtain ⟨k', rfl⟩ : ∃ k', a = 34 :: k' := by
    rcases ha with ⟨us, q, _, _, rfl⟩
    exact ⟨_, rfl⟩
  have hq : isWs 34 = false := by decide
  have hstart : skipWs (w ++ (34 :: k' ++ (v ++ 58 :: (u ++ (c ++ (z ++ e))))) ++ 125 :: r)
      = 34 :: (k' ++ (v ++ 58 :: (u ++ (c ++ (z ++ (e ++ 125 :: r)))))) := by
    simp only [List.append_assoc, skipWs_append hw, List.cons_append, skipWs_cons hq]
  have hkey := (scanString_iff k (k' ++ (v ++ 58 :: (u ++ (c ++ (z ++ (e ++ 125 :: r)))))) _).mpr
    ⟨k', ha, rfl⟩
  have hcolon : ∀ s, skipWs (v ++ 58 :: s) = 58 :: s := by
    intro s
    rw [skipWs_append hv, skipWs_cons (by decide)]
  have hvalue : ∀ s, skipWs (u ++ (c ++ s)) = c ++ s := by
    intro s
    rcases valueText_head hc with ⟨d, t, rfl, hd, _⟩
    rw [skipWs_append hu, List.cons_append, skipWs_cons hd]
  rw [hstart, scanMembers, hkey]
  simp only [Option.bind_eq_bind, Option.bind_some, hcolon, hvalue]
  rcases he with ⟨rfl, rfl⟩ | ⟨hne, e', rfl, he'⟩
  · have hread := hy c n (z ++ 125 :: r) hc (follow_ws hz (follow_cons (by decide) r)) (by omega)
    have hclose : skipWs (z ++ 125 :: r) = 125 :: r := by
      rw [skipWs_append hz, skipWs_cons (by decide)]
    rw [List.nil_append, hread]
    simp only [Option.bind_some, hclose]
  · simp only [List.length_cons] at hn
    have hread := hy c n (z ++ 44 :: (e' ++ 125 :: r)) hc (follow_ws hz (follow_cons (by decide) _))
      (by omega)
    have hcomma : skipWs (z ++ 44 :: (e' ++ 125 :: r)) = 44 :: (e' ++ 125 :: r) := by
      rw [skipWs_append hz, skipWs_cons (by decide)]
    rw [List.cons_append, hread]
    simp only [Option.bind_some, hcomma]
    rw [ih hne e' n r he' (by omega)]
    rfl

theorem readsValue (constants : Bool) (j : Json) : ReadsValue constants j := by
  have hword : ∀ {w j}, (w, j) ∈ words constants → ∀ n r, w.length < n →
      scanValue constants n (w ++ r) = some (j, r) := by
    intro w j h n r hn
    obtain ⟨n, rfl⟩ : ∃ m, n = m + 1 := ⟨n - 1, by omega⟩
    exact scanValue_word h n r
  have hnumber : ∀ {j a}, NumberText j a → ∀ n r, Follow r → a.length < n →
      scanValue constants n (a ++ r) = some (j, r) := by
    intro j a h n r hr hn
    obtain ⟨n, rfl⟩ : ∃ m, n = m + 1 := ⟨n - 1, by omega⟩
    exact scanValue_number h n hr
  refine (Json.induct (P := ReadsValue constants) (Q := ReadsItems constants)
    (R := ReadsMembers constants) ?_ ?_ ?_ ?_ ?_ (fun _ => readsValue_arr)
    (fun _ => readsValue_obj) ?_ (fun _ _ => readsItems_cons) ?_
    (fun _ _ _ => readsMembers_cons)).1 j
  · rintro a n r rfl _ hn
    exact hword (by simp only [words, List.cons_append, List.mem_cons, true_or]) n r hn
  · rintro b a n r rfl _ hn
    refine hword ?_ n r hn
    cases b <;> simp [words]
  · intro m a n r ha hr hn
    exact hnumber ha n r hr hn
  · rintro x a n r (ha | ⟨hc, ha⟩) hr hn
    · exact hnumber ha n r hr hn
    · subst hc
      refine hword ?_ n r hn
      rcases x with _ | (_ | _) | _
      · exact False.elim ha
      all_goals
        simp only [ConstantText] at ha
        simp [words, ha]
  · rintro s a n r ha _ hn
    obtain ⟨n, rfl⟩ : ∃ m, n = m + 1 := ⟨n - 1, by omega⟩
    obtain ⟨a', rfl⟩ : ∃ a', a = 34 :: a' := by
      rcases ha with ⟨us, q, _, _, rfl⟩
      exact ⟨_, rfl⟩
    rw [List.cons_append, scanValue, if_pos rfl, (scanString_iff s (a' ++ r) r).mpr ⟨a', ha, rfl⟩]
    rfl
  · exact fun h => absurd rfl h
  · exact fun h => absurd rfl h

/-- A text of a value is read as that value. -/
theorem scanValue_complete {constants : Bool} {j : Json} {a r : Str} {n : Nat}
    (ha : ValueText constants j a) (hr : Follow r) (hn : a.length < n) :
    scanValue constants n (a ++ r) = some (j, r) :=
  readsValue constants j a n r ha hr hn

/-- A whole text is accepted exactly when it names the value. -/
theorem parse_iff (constants : Bool) (s : Str) (j : Json) :
    parse constants s = some j ↔ TextOf constants j s := by
  constructor
  · intro h
    unfold parse at h
    split at h
    · next k r hk =>
        by_cases hr : skipWs r = []
        · rw [if_pos hr, Option.some.injEq] at h
          subst h
          rcases skipWs_split s with ⟨w, hw, hs⟩
          rcases scanValue_sound hk with ⟨a, ha, hae⟩
          rcases skipWs_split r with ⟨v, hv, hve⟩
          rw [hr, List.append_nil] at hve
          exact ⟨w, a, r, hw, ha, hve ▸ hv, by rw [← hae]; exact hs⟩
        · rw [if_neg hr] at h
          cases h
    · cases h
  · rintro ⟨w, a, v, hw, ha, hv, rfl⟩
    have hstart : skipWs (w ++ (a ++ v)) = a ++ v := by
      rcases valueText_head ha with ⟨c, t, rfl, hc, _⟩
      rw [skipWs_append hw, List.cons_append, skipWs_cons hc]
    have hfollow : Follow v := by
      have h := follow_ws hv follow_nil
      rwa [List.append_nil] at h
    unfold parse
    rw [hstart, scanValue_complete ha hfollow (by simp only [List.length_append]; omega)]
    simp only [skipWs_ws hv, if_true]

end Py
