import Mathlib.Data.List.Basic
import BootImage.Shell.Pattern

/-!
# What patterns match

`Matches` says sign by sign which texts a pattern stands for. A pattern covers just these, so the
steps that are allowed for it are always enough, and a pattern without signs covers the one text
that it spells. What is trimmed from a text is the shortest beginning or end that the pattern
matches, or the longest.
-/

namespace BootImage.Shell

namespace Charset

theorem length_of_class? {ms after : List Mark} {item : Item}
    (h : class? ms = some (item, after)) : after.length < ms.length := by
  rw [class?] at h
  split at h
  · next rest dropped =>
      cases h
      have length := congrArg List.length dropped
      rw [List.length_drop, List.length_cons, List.length_cons] at length
      omega
  · cases h

theorem length_of_items? {n : Nat} {ms after : List Mark} {items : List Item}
    (h : items? n ms = some (items, after)) : after.length < ms.length := by
  induction n generalizing ms items with
  | zero => cases h
  | succ n ih =>
      -- whatever part is read first, the others are read from fewer marks
      have further {item : Item} {rest : List Mark} (shorter : rest.length < ms.length)
          (h : (items? n rest).map (fun p => (item :: p.1, p.2)) = some (items, after)) :
          after.length < ms.length := by
        obtain ⟨read, hr, heq⟩ := Option.map_eq_some_iff.1 h
        cases heq
        exact Nat.lt_trans (ih hr) shorter
      rw [items?.eq_def] at h
      dsimp only at h
      split at h
      · cases h
      · cases h
        simp
      · split at h
        · next read => exact further (by have := length_of_class? read; simp; omega) h
        · exact further (by simp) h
      · split at h
        · exact further (by simp) h
        · exact further (by simp; omega) h
      · exact further (by simp) h

theorem length_of_read? {negation : Char} {ms after : List Mark} {set : Charset}
    (h : read? negation ms = some (set, after)) : after.length < ms.length := by
  rw [read?.eq_def] at h
  obtain ⟨read, hr, heq⟩ := Option.map_eq_some_iff.1 h
  cases heq
  refine Nat.lt_of_lt_of_le (length_of_items? hr) ?_
  grind

end Charset

namespace Pattern

/-- A text is one that a pattern stands for. -/
inductive Matches : List Mark → List Char → Prop
  | nil : Matches [] []
  | star {ms : List Mark} {s : List Char} (t : List Char) (rest : Matches ms s) :
      Matches (('*', false) :: ms) (t ++ s)
  | any {ms : List Mark} {s : List Char} (c : Char) (rest : Matches ms s) :
      Matches (('?', false) :: ms) (c :: s)
  | set {ms after : List Mark} {s : List Char} {c : Char} {set : Charset}
      (read : Charset.read? '!' ms = some (set, after)) (has : set.has c = true)
      (rest : Matches after s) : Matches (('[', false) :: ms) (c :: s)
  /-- a bracket that is not closed stands for itself -/
  | bracket {ms : List Mark} {s : List Char} (read : Charset.read? '!' ms = none)
      (rest : Matches ms s) : Matches (('[', false) :: ms) ('[' :: s)
  | plain {m : Mark} {ms : List Mark} {s : List Char} (h : isOpen [m] = false)
      (rest : Matches ms s) : Matches (m :: ms) (m.1 :: s)

theorem matches_star_iff {ms : List Mark} {s : List Char} :
    Matches (('*', false) :: ms) s ↔
      Matches ms s ∨ ∃ c t, s = c :: t ∧ Matches (('*', false) :: ms) t := by
  constructor
  · intro h
    cases h with
    | star t rest =>
        cases t with
        | nil => exact .inl rest
        | cons c t => exact .inr ⟨c, _, rfl, .star t rest⟩
    | plain sign _ => cases sign
  · rintro (h | ⟨c, t, rfl, h⟩)
    · exact .star [] h
    · cases h with
      | star u rest => exact .star (c :: u) rest
      | plain sign _ => cases sign

theorem matchesWithin_iff {n : Nat} {ms : List Mark} {s : List Char}
    (h : ms.length + s.length < n) : matchesWithin n ms s = true ↔ Matches ms s := by
  fun_induction matchesWithin n ms s with
  | case1 => omega
  | case2 n s =>
      rw [List.isEmpty_iff]
      constructor
      · rintro rfl
        exact .nil
      · intro h
        cases h
        rfl
  | case3 n ms s here later =>
      simp only [List.length_cons] at h later
      rw [Bool.or_eq_true, here (by omega), matches_star_iff]
      refine or_congr_right ?_
      cases s with
      | nil => simp
      | cons c t =>
          simp only [List.length_cons] at h
          simp [later t (by omega)]
  | case4 n ms c s ih =>
      simp only [List.length_cons] at h
      rw [ih (by omega)]
      constructor
      · exact .any c
      · intro h
        cases h with
        | any _ rest => exact rest
        | plain sign _ => cases sign
  | case5 n ms c s set after read ih =>
      have shorter := Charset.length_of_read? read
      simp only [List.length_cons] at h
      rw [Bool.and_eq_true, ih (by omega)]
      constructor
      · rintro ⟨has, rest⟩
        exact .set read has rest
      · intro h
        cases h with
        | set read' has rest =>
            cases read.symm.trans read'
            exact ⟨has, rest⟩
        | bracket read' _ => cases read.symm.trans read'
        | plain sign _ => cases sign
  | case6 n ms c s read ih =>
      simp only [List.length_cons] at h
      rw [Bool.and_eq_true, beq_iff_eq, ih (by omega)]
      constructor
      · rintro ⟨rfl, rest⟩
        exact .bracket read rest
      · intro h
        cases h with
        | bracket _ rest => exact ⟨rfl, rest⟩
        | set read' _ _ => cases read.symm.trans read'
        | plain sign _ => cases sign
  | case7 n p quoted ms c s notStar notAny notSet ih =>
      simp only [List.length_cons] at h
      rw [Bool.and_eq_true, beq_iff_eq, ih (by omega)]
      constructor
      · rintro ⟨rfl, rest⟩
        exact .plain (by cases quoted <;> simp_all [isOpen]) rest
      · generalize text : c :: s = u
        intro h
        cases h with
        | star _ _ => exact (notStar rfl rfl).elim
        | any _ _ => exact (notAny rfl rfl).elim
        | set _ _ _ => exact (notSet rfl rfl).elim
        | bracket _ _ => exact (notSet rfl rfl).elim
        | plain _ rest =>
            cases text
            exact ⟨rfl, rest⟩
  | case8 n ms pos notNil notStar =>
      obtain ⟨n, rfl⟩ : ∃ k, n = k + 1 := ⟨n - 1, by omega⟩
      constructor
      · intro h
        cases h
      · generalize empty : [] = s
        intro h
        cases h with
        | nil => exact (notNil n rfl rfl).elim
        | star _ _ => exact (notStar n _ rfl rfl).elim
        | _ => cases empty

/-- A pattern covers what it matches; the steps that it may take are enough. -/
theorem covers_iff {ms : List Mark} {s : List Char} : covers ms s = true ↔ Matches ms s :=
  matchesWithin_iff (by omega)

/-- A pattern without signs covers the text that it spells, and no other. -/
theorem covers_iff_of_not_isOpen {ms : List Mark} (h : isOpen ms = false) {s : List Char} :
    covers ms s = true ↔ s = ms.map Prod.fst := by
  rw [covers_iff]
  induction ms generalizing s with
  | nil =>
      constructor
      · intro h
        cases h
        rfl
      · rintro rfl
        exact .nil
  | cons m ms ih =>
      obtain ⟨first, rest⟩ : isOpen [m] = false ∧ isOpen ms = false := by simpa [isOpen] using h
      rw [List.map_cons]
      constructor
      · intro h
        cases h with
        | plain _ h => rw [(ih rest).1 h]
        | _ => cases first
      · rintro rfl
        exact .plain first ((ih rest).2 rfl)

/-- The first of a list in order that will do comes before all others that will. -/
theorem rel_of_find? {α : Type} {R : α → α → Prop} {l : List α} (ordered : l.Pairwise R)
    {p : α → Bool} {a : α} (h : l.find? p = some a) {b : α} (hb : b ∈ l) (hp : p b = true) :
    b = a ∨ R a b := by
  obtain ⟨-, before, after, rfl, none⟩ := List.find?_eq_some_iff_append.1 h
  rcases List.mem_append.1 hb with hb | hb
  · exact absurd hp (by simpa using none b hb)
  · rcases List.mem_cons.1 hb with rfl | hb
    · exact .inl rfl
    · exact .inr ((List.pairwise_cons.1 (List.pairwise_append.1 ordered).2.1).1 b hb)

/-- Of the lengths up to `n` the first that will do is taken, from below or from above. -/
theorem find?_lengths_cases (down : Bool) (n : Nat) (p : Nat → Bool) :
    let lengths := if down then (List.range (n + 1)).reverse else List.range (n + 1)
    (∃ k, lengths.find? p = some k ∧ k ≤ n ∧ p k = true ∧
      ∀ j ≤ n, p j = true → if down then j ≤ k else k ≤ j) ∨
    lengths.find? p = none ∧ ∀ j ≤ n, p j = false := by
  intro lengths
  have mem (j : Nat) : j ∈ lengths ↔ j ≤ n := by
    have range : j ∈ List.range (n + 1) ↔ j ≤ n := List.mem_range.trans Nat.lt_succ_iff
    cases down with
    | false => exact range
    | true => exact List.mem_reverse.trans range
  cases found : lengths.find? p with
  | none => exact .inr ⟨rfl, fun j hj => by simpa using List.find?_eq_none.1 found j ((mem j).2 hj)⟩
  | some k =>
      refine .inl ⟨k, rfl, (mem k).1 (List.mem_of_find?_eq_some found), List.find?_some found, ?_⟩
      intro j hj hp
      cases down with
      | false =>
          have ordered : lengths.Pairwise (· < ·) := List.pairwise_lt_range
          rcases rel_of_find? ordered found ((mem j).2 hj) hp with rfl | less
          · exact Nat.le_refl j
          · exact Nat.le_of_lt less
      | true =>
          have ordered : lengths.Pairwise (· > ·) :=
            List.pairwise_reverse.2 List.pairwise_lt_range
          rcases rel_of_find? ordered found ((mem j).2 hj) hp with rfl | less
          · exact Nat.le_refl j
          · exact Nat.le_of_lt less

/-- What is trimmed from the start is the shortest beginning that the pattern matches, or the
longest, and nothing if it matches none. -/
theorem trimStart_cases (longest : Bool) (ms : List Mark) (s : List Char) :
    (∃ t, s = t ++ trimStart longest ms s ∧ Matches ms t ∧ ∀ u, u <+: s → Matches ms u →
      if longest then u.length ≤ t.length else t.length ≤ u.length) ∨
    trimStart longest ms s = s ∧ ∀ u, u <+: s → ¬ Matches ms u := by
  have covered {u : List Char} (hu : u <+: s) (h : Matches ms u) :
      covers ms (s.take u.length) = true := by
    rwa [← List.prefix_iff_eq_take.1 hu, covers_iff]
  rw [trimStart]
  rcases find?_lengths_cases longest s.length (fun n => covers ms (s.take n)) with
    ⟨k, found, hk, covers, first⟩ | ⟨found, none⟩
  · rw [found]
    refine .inl ⟨s.take k, by simp, covers_iff.1 covers, fun u hu h => ?_⟩
    rw [List.length_take_of_le hk]
    exact first _ hu.length_le (covered hu h)
  · rw [found]
    refine .inr ⟨rfl, fun u hu h => ?_⟩
    cases (covered hu h).symm.trans (none _ hu.length_le)

/-- What is trimmed from the end is the shortest end that the pattern matches, or the longest, and
nothing if it matches none. -/
theorem trimEnd_cases (longest : Bool) (ms : List Mark) (s : List Char) :
    (∃ t, s = trimEnd longest ms s ++ t ∧ Matches ms t ∧ ∀ u, u <:+ s → Matches ms u →
      if longest then u.length ≤ t.length else t.length ≤ u.length) ∨
    trimEnd longest ms s = s ∧ ∀ u, u <:+ s → ¬ Matches ms u := by
  have covered {u : List Char} (hu : u <:+ s) (h : Matches ms u) :
      covers ms (s.drop (s.length - u.length)) = true := by
    rwa [← List.suffix_iff_eq_drop.1 hu, covers_iff]
  have lengths : (if longest then List.range (s.length + 1)
      else (List.range (s.length + 1)).reverse) =
      if !longest then (List.range (s.length + 1)).reverse else List.range (s.length + 1) := by
    cases longest <;> rfl
  rw [trimEnd, lengths]
  rcases find?_lengths_cases (!longest) s.length (fun n => covers ms (s.drop n)) with
    ⟨k, found, hk, covers, first⟩ | ⟨found, none⟩
  · rw [found]
    refine .inl ⟨s.drop k, by simp, covers_iff.1 covers, fun u hu h => ?_⟩
    have bound := first _ (Nat.sub_le _ _) (covered hu h)
    have length := hu.length_le
    rw [List.length_drop]
    cases longest <;> simp at bound ⊢ <;> omega
  · rw [found]
    refine .inr ⟨rfl, fun u hu h => ?_⟩
    cases (covered hu h).symm.trans (none _ (Nat.sub_le _ _))

end Pattern

end BootImage.Shell
