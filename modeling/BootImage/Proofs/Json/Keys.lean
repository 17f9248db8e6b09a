import BootImage.Proofs.Json.Members

/-!
# The order of an object's keys

The keys of an object are those of its members as they are written, each of them once. Array indices
come first and ascend; the other keys follow in the order in which they are first written.
-/

namespace BootImage.Json

/-- The key is the number `n` in decimal digits, and the number is an array index. -/
def IsIndex (key : WideText) (n : Nat) : Prop := n < 4294967295 ∧ key = toString n

/-- The order of keys in an object whose members are written with the keys `written`. -/
inductive KeyOrder (written : List WideText) : WideText → WideText → Prop
  | indices {a b : WideText} {m n : Nat} (ha : IsIndex a m) (hb : IsIndex b n) (h : m < n) :
      KeyOrder written a b
  | index {a b : WideText} {m : Nat} (ha : IsIndex a m) (hb : ∀ n, ¬IsIndex b n) :
      KeyOrder written a b
  | appearance {a b : WideText} (ha : ∀ n, ¬IsIndex a n) (hb : ∀ n, ¬IsIndex b n)
      (h : written.idxOf a < written.idxOf b) : KeyOrder written a b

section Digits

theorem head?_toDigits {n : Nat} (h : 0 < n) : (Nat.toDigits 10 n).head? ≠ some '0' := by
  induction n using Nat.strongRecOn with
  | ind n ih =>
      by_cases small : n < 10
      · rw [Nat.toDigits_of_lt_base small]
        simpa using Nat.ne_of_gt h
      · rw [Nat.toDigits_of_base_le (by decide) (Nat.le_of_not_lt small),
          List.head?_append_of_ne_nil _ Nat.toDigits_ne_nil]
        exact ih (n / 10) (by omega) (by omega)

theorem digitChar_of_isDigit {c : Char} (h : c.isDigit = true) :
    c.toNat - 48 < 10 ∧ Nat.digitChar (c.toNat - 48) = c := by
  rw [Char.isDigit, Bool.and_eq_true, decide_eq_true_iff, decide_eq_true_iff] at h
  have least : 48 ≤ c.toNat := h.1
  have greatest : c.toNat ≤ 57 := h.2
  have small : c.toNat - 48 < 10 := by omega
  refine ⟨small, Char.toNat_inj.1 ?_⟩
  rw [Nat.toNat_digitChar_of_lt_ten small]
  omega

theorem toDigits_ofDigitChars {ds : List Char} (digits : ∀ c ∈ ds, c.isDigit = true)
    (ne : ds ≠ []) (lead : ds.head? ≠ some '0') :
    0 < Nat.ofDigitChars 10 ds 0 ∧ Nat.toDigits 10 (Nat.ofDigitChars 10 ds 0) = ds := by
  -- from the last digit on, since that is the one that division by ten takes off
  induction ds using List.reverseRecOn with
  | nil => exact absurd rfl ne
  | append_singleton ds d ih =>
      rw [List.forall_mem_append, List.forall_mem_singleton] at digits
      obtain ⟨small, hd⟩ := digitChar_of_isDigit digits.2
      have value : Nat.ofDigitChars 10 (ds ++ [d]) 0 =
          10 * Nat.ofDigitChars 10 ds 0 + (d.toNat - 48) := by
        rw [Nat.ofDigitChars_append, Nat.ofDigitChars_cons, Nat.ofDigitChars_nil]
        rfl
      rw [value]
      cases ds with
      | nil =>
          have nonzero : d.toNat - 48 ≠ 0 := by
            intro zero
            rw [zero] at hd
            exact lead (congrArg some hd.symm)
          rw [Nat.ofDigitChars_nil, Nat.mul_zero, Nat.zero_add, Nat.toDigits_of_lt_base small, hd]
          exact ⟨Nat.pos_of_ne_zero nonzero, rfl⟩
      | cons c cs =>
          obtain ⟨positive, before⟩ := ih digits.1 (List.cons_ne_nil _ _) lead
          rw [← Nat.toDigits_append_toDigits (by decide) positive small,
            Nat.toDigits_of_lt_base small, hd, before]
          exact ⟨by omega, rfl⟩

/-- The digits of numbers are `0` alone and those without a leading zero. -/
theorem eq_toDigits_iff {ds : List Char} {n : Nat} :
    ds = Nat.toDigits 10 n ↔
      ds = ['0'] ∧ n = 0 ∨
        ds ≠ [] ∧ ds.head? ≠ some '0' ∧ (∀ c ∈ ds, c.isDigit = true) ∧
          n = Nat.ofDigitChars 10 ds 0 := by
  constructor
  · rintro rfl
    rcases Nat.eq_zero_or_pos n with rfl | positive
    · exact .inl ⟨Nat.toDigits_zero 10, rfl⟩
    · exact .inr ⟨Nat.toDigits_ne_nil, head?_toDigits positive,
        fun c => Nat.isDigit_of_mem_toDigits (by decide) (by decide),
        Nat.ofDigitChars_ten_toDigits.symm⟩
  · rintro (⟨rfl, rfl⟩ | ⟨ne, lead, digits, rfl⟩)
    · exact (Nat.toDigits_zero 10).symm
    · exact (toDigits_ofDigitChars digits ne lead).2.symm

theorem indexOf?_eq_some_iff {text : String} {n : Nat} :
    Members.indexOf? text = some n ↔ n < 4294967295 ∧ text = toString n := by
  have spelled : text = toString n ↔ text.toList = Nat.toDigits 10 n := by
    rw [← String.toList_inj, Nat.toString_eq_repr, Nat.toList_repr]
  have value (cs : List Char) :
      cs.foldl (fun n d => n * 10 + (d.toNat - 48)) 0 = Nat.ofDigitChars 10 cs 0 := by
    simp only [Nat.ofDigitChars, Nat.mul_comm]
    rfl
  rw [spelled, eq_toDigits_iff, Members.indexOf?]
  split
  · next h =>
    rw [h]
    constructor
    · rintro ⟨⟩
      exact ⟨by decide, .inl ⟨rfl, rfl⟩⟩
    · rintro ⟨-, ⟨-, rfl⟩ | ⟨-, lead, -⟩⟩
      · rfl
      · exact absurd rfl lead
  · next c cs h0 h =>
    have several : c :: cs ≠ ['0'] := by
      rintro ⟨⟩
      exact h0 rfl rfl
    rw [value, h]
    by_cases hc : c ≠ '0' ∧ (c :: cs).all Char.isDigit = true
    · have digits : ∀ d ∈ c :: cs, d.isDigit = true := List.all_eq_true.1 hc.2
      have lead : (c :: cs).head? ≠ some '0' := fun h => hc.1 (Option.some.inj h)
      rw [if_pos hc]
      constructor
      · intro hn
        obtain ⟨bound, hn⟩ := Option.ite_none_right_eq_some.1 hn
        cases hn
        exact ⟨bound, .inr ⟨List.cons_ne_nil _ _, lead, digits, rfl⟩⟩
      · rintro ⟨bound, ⟨single, -⟩ | ⟨-, -, -, rfl⟩⟩
        · exact absurd single several
        · exact if_pos bound
    · rw [if_neg hc]
      refine iff_of_false (by simp) ?_
      rintro ⟨-, ⟨single, -⟩ | ⟨-, lead, digits, -⟩⟩
      · exact several single
      · exact hc ⟨fun h => lead (congrArg some h), List.all_eq_true.2 digits⟩
  · next h => simp [h]

theorem index?_eq_some_iff {key : WideText} {n : Nat} :
    Members.index? key = some n ↔ IsIndex key n := by
  rw [Members.index?, IsIndex, Option.bind_eq_some_iff]
  simp only [WideText.string?_eq_some_iff, indexOf?_eq_some_iff]
  constructor
  · rintro ⟨text, rfl, bound, rfl⟩
    exact ⟨bound, rfl⟩
  · rintro ⟨bound, rfl⟩
    exact ⟨_, rfl, bound, rfl⟩

theorem index?_eq_none_iff {key : WideText} :
    Members.index? key = none ↔ ∀ n, ¬IsIndex key n := by
  simp only [Option.eq_none_iff_forall_ne_some, ne_eq, index?_eq_some_iff]

end Digits

theorem IsIndex.eq_key {a b : WideText} {n : Nat} (ha : IsIndex a n) (hb : IsIndex b n) : a = b :=
  ha.2.trans hb.2.symm

theorem IsIndex.eq_index {key : WideText} {m n : Nat} (hm : IsIndex key m) (hn : IsIndex key n) :
    m = n :=
  Option.some.inj ((index?_eq_some_iff.2 hm).symm.trans (index?_eq_some_iff.2 hn))

namespace KeyOrder

variable {written : List WideText} {a b c : WideText}

theorem irrefl : ¬KeyOrder written a a := by
  rintro (⟨ha, ha', h⟩ | ⟨ha, ha'⟩ | ⟨-, -, h⟩)
  · rw [ha.eq_index ha'] at h
    exact Nat.lt_irrefl _ h
  · exact ha' _ ha
  · exact Nat.lt_irrefl _ h

theorem trans (hab : KeyOrder written a b) (hbc : KeyOrder written b c) : KeyOrder written a c := by
  cases hab with
  | indices ha hb h =>
      cases hbc with
      | indices hb' hc h' =>
          rw [hb.eq_index hb'] at h
          exact .indices ha hc (Nat.lt_trans h h')
      | index _ hc => exact .index ha hc
      | appearance hb' => exact absurd hb (hb' _)
  | index ha hb =>
      cases hbc with
      | indices hb' | index hb' => exact absurd hb' (hb _)
      | appearance _ hc => exact .index ha hc
  | appearance ha hb h =>
      cases hbc with
      | indices hb' | index hb' => exact absurd hb' (hb _)
      | appearance _ hc h' => exact .appearance ha hc (Nat.lt_trans h h')

theorem of_precedes (h : Members.precedes a b = true) : KeyOrder written a b := by
  rw [Members.precedes] at h
  split at h
  · next m n ha hb =>
    exact .indices (index?_eq_some_iff.1 ha) (index?_eq_some_iff.1 hb) (of_decide_eq_true h)
  · next m ha hb => exact .index (index?_eq_some_iff.1 ha) (index?_eq_none_iff.1 hb)
  · cases h

/-- A key that does not have to stand before another stands behind it, if it is written later. -/
theorem of_not_precedes (h : ¬Members.precedes a b = true) (ne : a ≠ b)
    (later : written.idxOf b < written.idxOf a) : KeyOrder written b a := by
  rw [Members.precedes] at h
  split at h
  · next m n ha hb =>
    have hm := index?_eq_some_iff.1 ha
    have hn := index?_eq_some_iff.1 hb
    have apart : m ≠ n := by
      rintro rfl
      exact ne (hm.eq_key hn)
    rw [decide_eq_true_iff] at h
    exact .indices hn hm (by omega)
  · exact absurd rfl h
  · next ha =>
    cases hb : Members.index? b with
    | none => exact .appearance (index?_eq_none_iff.1 hb) (index?_eq_none_iff.1 ha) later
    | some n => exact .index (index?_eq_some_iff.1 hb) (index?_eq_none_iff.1 ha)

/-- Writing more keys changes nothing in the order of those that were written. -/
theorem append (h : KeyOrder written a b) (ha : a ∈ written) (hb : b ∈ written)
    (more : List WideText) : KeyOrder (written ++ more) a b := by
  cases h with
  | indices hm hn h => exact .indices hm hn h
  | index hm hn => exact .index hm hn
  | appearance hm hn h =>
      refine .appearance hm hn ?_
      rwa [List.idxOf_append_of_mem ha, List.idxOf_append_of_mem hb]

end KeyOrder

section Members

variable {α : Type} {ms : List (WideText × α)} {key : WideText} {written : List WideText}

theorem mem_keys_put_iff {k : WideText} {v : α} :
    k ∈ (Members.put key v ms).map Prod.fst ↔ k = key ∨ k ∈ ms.map Prod.fst := by
  fun_induction Members.put key v ms with
  | case1 => simp
  | case2 => simp
  | case3 => simp
  | case4 k' w ms _ _ ih =>
      rw [List.map_cons, List.mem_cons, ih, List.map_cons, List.mem_cons]
      tauto

theorem keys_put_of_mem (sorted : (ms.map Prod.fst).Pairwise (KeyOrder written))
    (mem : key ∈ ms.map Prod.fst) (v : α) :
    (Members.put key v ms).map Prod.fst = ms.map Prod.fst := by
  induction ms with
  | nil => cases mem
  | cons m ms ih =>
      obtain ⟨k, w⟩ := m
      rw [List.map_cons, List.pairwise_cons] at sorted
      rw [Members.put]
      by_cases hk : k = key
      · rw [if_pos hk, hk]
        rfl
      · have behind : key ∈ ms.map Prod.fst := by
          simpa [Ne.symm hk] using mem
        have ordered : ¬Members.precedes key k = true := by
          intro h
          exact KeyOrder.irrefl ((KeyOrder.of_precedes h).trans (sorted.1 key behind))
        rw [if_neg hk, if_neg ordered, List.map_cons, ih sorted.2 behind]
        rfl

/-- A key that is written last goes behind all others, but before those that it precedes. -/
theorem pairwise_keys_put (sorted : (ms.map Prod.fst).Pairwise (KeyOrder written))
    (last : ∀ k ∈ ms.map Prod.fst, written.idxOf k < written.idxOf key) (v : α) :
    ((Members.put key v ms).map Prod.fst).Pairwise (KeyOrder written) := by
  induction ms with
  | nil => exact List.pairwise_singleton _ _
  | cons m ms ih =>
      obtain ⟨k, w⟩ := m
      rw [List.map_cons, List.forall_mem_cons] at last
      have hk : k ≠ key := by
        rintro rfl
        exact Nat.lt_irrefl _ last.1
      rw [Members.put, if_neg hk]
      split
      · next h =>
        have first : KeyOrder written key k := KeyOrder.of_precedes h
        rw [List.map_cons, List.pairwise_cons]
        refine ⟨List.forall_mem_cons.2 ⟨first, fun b hb => ?_⟩, sorted⟩
        exact first.trans (List.rel_of_pairwise_cons sorted hb)
      · next h =>
        rw [List.map_cons, List.pairwise_cons] at sorted ⊢
        refine ⟨fun b hb => ?_, ih sorted.2 last.2⟩
        rcases mem_keys_put_iff.1 hb with rfl | hb
        · exact KeyOrder.of_not_precedes h hk.symm last.1
        · exact sorted.1 b hb

theorem mem_keys_ofList_iff {ms : List (WideText × α)} {k : WideText} :
    k ∈ (Members.ofList ms).map Prod.fst ↔ k ∈ ms.map Prod.fst := by
  induction ms using List.reverseRecOn with
  | nil => rfl
  | append_singleton ms m ih =>
      rw [Members.ofList_concat, mem_keys_put_iff, ih, List.map_append, List.mem_append, or_comm]
      simp

theorem pairwise_keys_ofList (ms : List (WideText × α)) :
    ((Members.ofList ms).map Prod.fst).Pairwise (KeyOrder (ms.map Prod.fst)) := by
  induction ms using List.reverseRecOn with
  | nil => exact .nil
  | append_singleton ms m ih =>
      obtain ⟨key, v⟩ := m
      have sorted : ((Members.ofList ms).map Prod.fst).Pairwise
          (KeyOrder (ms.map Prod.fst ++ [key])) :=
        ih.imp_of_mem fun ha hb h =>
          h.append (mem_keys_ofList_iff.1 ha) (mem_keys_ofList_iff.1 hb) [key]
      rw [Members.ofList_concat, List.map_append, List.map_singleton]
      by_cases mem : key ∈ (Members.ofList ms).map Prod.fst
      · rwa [keys_put_of_mem sorted mem]
      -- a new key appears after all that were written before it
      · refine pairwise_keys_put sorted (fun k hk => ?_) v
        rw [mem_keys_ofList_iff] at mem hk
        rw [List.idxOf_append_of_mem hk, List.idxOf_append_of_notMem mem]
        exact Nat.lt_add_right _ (List.idxOf_lt_length_of_mem hk)

theorem nodup_of_pairwise_keyOrder {keys : List WideText} (h : keys.Pairwise (KeyOrder written)) :
    keys.Nodup := by
  refine h.imp ?_
  rintro a _ hab rfl
  exact hab.irrefl

end Members

end BootImage.Json
