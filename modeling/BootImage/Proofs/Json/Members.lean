import BootImage.Json.Members
import Mathlib.Data.List.Induction
import Mathlib.Data.List.Nodup

/-!
# Members found by their keys

Where the keys of some members are distinct, the order of the members does not matter to a search.
Where they are not, the object that a text writes holds the last member of each key. It keeps the
members in the order of the text, unless there are array indices among their keys.
-/

namespace BootImage.Json

variable {α : Type} {ms : List (WideText × α)} {key : WideText}

theorem lookup_eq_some_iff_mem (distinct : (ms.map Prod.fst).Nodup) {v : α} :
    ms.lookup key = some v ↔ (key, v) ∈ ms := by
  induction ms with
  | nil => simp
  | cons m ms ih =>
      obtain ⟨k, w⟩ := m
      rw [List.map_cons, List.nodup_cons] at distinct
      rw [List.lookup_cons, List.mem_cons, Prod.mk.injEq]
      by_cases hk : key = k
      · subst hk
        have absent (u : α) : (key, u) ∉ ms := by
          intro h
          exact distinct.1 (List.mem_map.2 ⟨_, h, rfl⟩)
        simp [absent, eq_comm]
      · have differs : (key == k) = false := by simpa using hk
        simp [differs, hk, ih distinct.2]

/-- Members with distinct keys may stand in any order. -/
theorem lookup_eq_of_perm {ms' : List (WideText × α)} (h : ms.Perm ms')
    (distinct : (ms.map Prod.fst).Nodup) : ms.lookup key = ms'.lookup key := by
  have distinct' : (ms'.map Prod.fst).Nodup := (h.map Prod.fst).nodup_iff.1 distinct
  refine Option.ext fun v => ?_
  rw [lookup_eq_some_iff_mem distinct, lookup_eq_some_iff_mem distinct', h.mem_iff]

theorem lookup_filter {p : WideText → Bool} (h : p key = true) :
    (ms.filter fun m => p m.1).lookup key = ms.lookup key := by
  induction ms with
  | nil => rfl
  | cons m ms ih =>
      obtain ⟨k, w⟩ := m
      by_cases hk : key = k
      · subst hk
        simp [h]
      · have differs : (key == k) = false := by simpa using hk
        by_cases hp : p k = true <;> simp [List.lookup_cons, hp, differs, ih]

/-- Of several members with one key the object holds the last. -/
theorem lookup_ofList (written : List (WideText × α)) :
    (Members.ofList written).lookup key = written.reverse.lookup key := by
  induction written using List.reverseRecOn with
  | nil => rfl
  | append_singleton written m ih =>
      obtain ⟨k, v⟩ := m
      rw [Members.ofList_concat, List.reverse_append, List.reverse_singleton,
        List.singleton_append, List.lookup_cons]
      by_cases hk : key = k
      · subst hk
        rw [Members.lookup_put_self, beq_self_eq_true]
      · have differs : (key == k) = false := by simpa using hk
        rw [Members.lookup_put_of_ne hk, ih, differs]

theorem forall_mem_ofList_iff {written : List (WideText × α)} {p : WideText → Prop} :
    (∀ m ∈ Members.ofList written, p m.1) ↔ ∀ m ∈ written, p m.1 := by
  have keys (ms : List (WideText × α)) (k : WideText) :
      (∃ m ∈ ms, k = m.1) ↔ (ms.lookup k).isSome = true := by
    simp [List.lookup_isSome_iff]
  have same (k : WideText) : (∃ m ∈ Members.ofList written, k = m.1) ↔ ∃ m ∈ written, k = m.1 := by
    rw [keys, lookup_ofList, ← keys]
    simp
  constructor
  · intro h m hm
    obtain ⟨m', hm', hk⟩ := (same m.1).2 ⟨m, hm, rfl⟩
    rw [hk]
    exact h m' hm'
  · intro h m hm
    obtain ⟨m', hm', hk⟩ := (same m.1).1 ⟨m, hm, rfl⟩
    rw [hk]
    exact h m' hm'

theorem keys_filterMap_sublist {ι κ : Type} (items : List ι) (k : ι → κ) (v? : ι → Option α) :
    ((items.filterMap fun i => (v? i).map fun v => (k i, v)).map Prod.fst).Sublist
      (items.map k) := by
  induction items with
  | nil => exact .slnil
  | cons i items ih =>
      rw [List.filterMap_cons]
      cases v? i with
      | none => exact .cons _ ih
      | some v => exact .cons_cons _ ih

theorem put_eq_append (new : key ∉ ms.map Prod.fst) (plain : Members.index? key = none) (v : α) :
    Members.put key v ms = ms ++ [(key, v)] := by
  induction ms with
  | nil => rfl
  | cons m ms ih =>
      obtain ⟨k, w⟩ := m
      rw [List.map_cons, List.mem_cons, not_or] at new
      rw [Members.put, if_neg (Ne.symm new.1), Members.precedes, plain, ih new.2]
      rfl

/-- Members with distinct keys keep their order if no key is an array index. -/
theorem ofList_eq_self (distinct : (ms.map Prod.fst).Nodup)
    (plain : ∀ m ∈ ms, Members.index? m.1 = none) : Members.ofList ms = ms := by
  induction ms using List.reverseRecOn with
  | nil => rfl
  | append_singleton ms m ih =>
      obtain ⟨k, v⟩ := m
      rw [List.map_append, List.nodup_append_comm] at distinct
      rw [List.forall_mem_append] at plain
      have new := List.nodup_cons.1 distinct
      rw [Members.ofList_concat, ih new.2 plain.1]
      exact put_eq_append new.1 (plain.2 _ List.mem_cons_self) v

end BootImage.Json
