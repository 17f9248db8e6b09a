/-!
# Cutting text at a separator

`pieces sep s` cuts `s` at every occurrence of the character `sep`. A text with `n` separators has
`n + 1` pieces, some of them perhaps empty, and putting the separator back between them gives the
text again. Paths are cut at `/` and lists of debug components at `,`.
-/

namespace BootImage.Text

def pieces (sep : Char) : List Char → List (List Char)
  | [] => [[]]
  | c :: s =>
    if c = sep then [] :: pieces sep s
    else match pieces sep s with
      | [] => [[c]]
      | p :: ps => (c :: p) :: ps

def joinPieces (sep : Char) : List (List Char) → List Char
  | [] => []
  | [p] => p
  | p :: q :: ps => p ++ sep :: joinPieces sep (q :: ps)

@[simp] theorem pieces_nil (sep : Char) : pieces sep [] = [[]] := rfl

theorem pieces_ne_nil (sep : Char) (s : List Char) : pieces sep s ≠ [] := by
  cases s with
  | nil => simp
  | cons c s =>
    rw [pieces]
    split
    · simp
    · split <;> simp

@[simp] theorem pieces_sep_cons (sep : Char) (s : List Char) :
    pieces sep (sep :: s) = [] :: pieces sep s := by simp [pieces]

theorem pieces_append_sep_cons (sep : Char) (s t : List Char) :
    pieces sep (s ++ sep :: t) = pieces sep s ++ pieces sep t := by
  induction s with
  | nil => simp
  | cons c s ih =>
    by_cases h : c = sep
    · subst h; simp [ih]
    · rw [List.cons_append, pieces, pieces, ih]
      cases hs : pieces sep s with
      | nil => exact absurd hs (pieces_ne_nil sep s)
      | cons p ps => simp [h]

theorem pieces_of_not_mem {sep : Char} {s : List Char} (h : sep ∉ s) : pieces sep s = [s] := by
  induction s with
  | nil => rfl
  | cons c s ih =>
    simp only [List.mem_cons, not_or] at h
    rw [pieces, ih h.2, if_neg (Ne.symm h.1)]

theorem joinPieces_pieces (sep : Char) (s : List Char) : joinPieces sep (pieces sep s) = s := by
  induction s with
  | nil => rfl
  | cons c s ih =>
    rw [pieces]
    cases hs : pieces sep s with
    | nil => exact absurd hs (pieces_ne_nil sep s)
    | cons p ps =>
      rw [hs] at ih
      split
      · next h => simp [joinPieces, ih, h]
      · cases ps with
        | nil => simpa [joinPieces] using ih
        | cons q qs => simpa [joinPieces] using ih

theorem not_mem_of_mem_pieces {sep : Char} {s p : List Char} (h : p ∈ pieces sep s) : sep ∉ p := by
  induction s generalizing p with
  | nil =>
      rw [pieces_nil, List.mem_singleton] at h
      rw [h]
      exact List.not_mem_nil
  | cons c s ih =>
      rw [pieces] at h
      split at h
      · rcases List.mem_cons.1 h with rfl | h
        · exact List.not_mem_nil
        · exact ih h
      · next hc =>
        cases hs : pieces sep s with
        | nil => exact absurd hs (pieces_ne_nil sep s)
        | cons q qs =>
            rw [hs] at h ih
            rcases List.mem_cons.1 h with rfl | h
            · simpa [Ne.symm hc] using ih List.mem_cons_self
            · exact ih (List.mem_cons_of_mem _ h)

theorem pieces_joinPieces {sep : Char} {ps : List (List Char)} (hne : ps ≠ [])
    (h : ∀ p ∈ ps, sep ∉ p) : pieces sep (joinPieces sep ps) = ps := by
  fun_induction joinPieces sep ps with
  | case1 => exact absurd rfl hne
  | case2 p => exact pieces_of_not_mem (h p List.mem_cons_self)
  | case3 p q ps ih =>
      rw [pieces_append_sep_cons, pieces_of_not_mem (h p List.mem_cons_self),
        ih (by simp) fun r hr => h r (List.mem_cons_of_mem _ hr)]
      rfl

end BootImage.Text
