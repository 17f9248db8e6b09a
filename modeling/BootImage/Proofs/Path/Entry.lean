import BootImage.Proofs.Path.Descent
import BootImage.Proofs.Path.NormalForm

/-!
# The last name of a path

A path that ends with a slash and a name behind it has this name as its last name, and what stands
before the slash is the directory that holds it. Joining names to a path in normal form gives paths
of this kind, so the names can be read off the joined path again.
-/

namespace BootImage

theorem Text.joinPieces_append_singleton {sep : Char} {ps : List (List Char)} (hne : ps ≠ [])
    (p : List Char) : joinPieces sep (ps ++ [p]) = joinPieces sep ps ++ sep :: p := by
  fun_induction joinPieces sep ps with
  | case1 => exact absurd rfl hne
  | case2 q => rfl
  | case3 q r ps ih =>
      rw [List.cons_append, List.cons_append, joinPieces, ← List.cons_append, ih (by simp)]
      simp

namespace Path

def IsFileName (name : String) : Prop := isName name.toList = true ∧ '/' ∉ name.toList

instance (name : String) : Decidable (IsFileName name) := inferInstanceAs (Decidable (_ ∧ _))

section LastName

variable {q : List Char} {s : Segment} (hs : s ≠ []) (slash : '/' ∉ s)

include slash

theorem ne_slash_of_mem_reverse : ∀ c ∈ s.reverse, (c != '/') = true := by
  intro c hc
  rw [bne_iff_ne]
  rintro rfl
  exact slash (List.mem_reverse.1 hc)

include hs

/-- A name at the end of a path is no slash that would not count. -/
theorem dropWhile_slash_reverse :
    (q ++ '/' :: s).reverse.dropWhile (· == '/') = s.reverse ++ '/' :: q.reverse := by
  obtain ⟨t, c, rfl⟩ := (List.eq_nil_or_concat s).resolve_left hs
  have other : (c == '/') = false := by
    rw [beq_eq_false_iff_ne]
    rintro rfl
    simp at slash
  simp [other]

theorem basename_of_toList {p : String} (h : p.toList = q ++ '/' :: s) :
    (basename p).toList = s := by
  rw [basename, String.toList_ofList, h, dropWhile_slash_reverse hs slash,
    List.takeWhile_append_of_pos (ne_slash_of_mem_reverse slash)]
  simp

theorem dirname_of_toList {p : String} (h : p.toList = q ++ '/' :: s) (below : q ≠ [])
    (root : q ≠ ['/']) : (dirname p).toList = q := by
  have before : ((q ++ '/' :: s).reverse.dropWhile (· == '/')).dropWhile (· != '/') =
      '/' :: q.reverse := by
    rw [dropWhile_slash_reverse hs slash,
      List.dropWhile_append_of_pos (ne_slash_of_mem_reverse slash)]
    simp
  have several : q.reverse ≠ [] := by simpa using below
  have named : q.reverse ≠ ['/'] := by
    rw [ne_eq, List.reverse_eq_iff]
    exact root
  rw [dirname, String.toList_ofList, h, beforeName, before]
  dsimp only
  rw [if_neg several, if_neg named, List.reverse_reverse]

end LastName

theorem fromRoot_append_singleton {ss : List Segment} (hne : ss ≠ []) (s : Segment) :
    fromRoot (ss ++ [s]) = fromRoot ss ++ '/' :: s := by
  rw [fromRoot, Text.joinPieces_append_singleton hne, fromRoot, List.cons_append]

/-- Paths in normal form are equal if they come to the same. -/
theorem eq_iff_reduce_eq {p p' : String} (h : IsNormal p.toList) (h' : IsNormal p'.toList) :
    p = p' ↔ reduce false p.toList = reduce false p'.toList := by
  constructor
  · rintro rfl
    rfl
  · intro same
    rw [← String.toList_inj, ← isNormal_iff.1 h, ← isNormal_iff.1 h', same]

section Entry

variable {p : String} {ss : List Segment} {s : Segment} (h : reduce false p.toList = ss ++ [s])

include h

theorem ne_nil_of_reduce : s ≠ [] := by
  have mem : s ∈ reduce false p.toList := by simp [h]
  exact ne_nil_of_mem_reduce mem

theorem slash_not_mem_of_reduce : '/' ∉ s := by
  have mem : s ∈ reduce false p.toList := by simp [h]
  exact not_mem_of_mem_reduce mem

theorem reduce_fromRoot_of_reduce : reduce false (fromRoot ss) = ss := by
  have mem {x : Segment} (hx : x ∈ ss) : x ∈ reduce false p.toList := by
    rw [h]
    exact List.mem_append_left _ hx
  exact reduce_fromRoot (fun x hx => isName_of_mem_reduce x (mem hx))
    fun x hx => not_mem_of_mem_reduce (mem hx)

variable (normal : IsNormal p.toList)

include normal

/-- The last name of a path in normal form is the last that it comes to. -/
theorem basename_of_reduce : (basename p).toList = s := by
  have path := isNormal_iff.1 normal
  rw [h] at path
  by_cases hne : ss = []
  · subst hne
    exact basename_of_toList (q := []) (ne_nil_of_reduce h) (slash_not_mem_of_reduce h) path.symm
  · rw [fromRoot_append_singleton hne] at path
    exact basename_of_toList (ne_nil_of_reduce h) (slash_not_mem_of_reduce h) path.symm

theorem dirname_of_reduce (hne : ss ≠ []) : (dirname p).toList = fromRoot ss := by
  have path := isNormal_iff.1 normal
  rw [h, fromRoot_append_singleton hne] at path
  refine dirname_of_toList (ne_nil_of_reduce h) (slash_not_mem_of_reduce h) path.symm
    (List.cons_ne_nil _ _) ?_
  -- the root would come to no names at all
  intro root
  have names := reduce_fromRoot_of_reduce h
  rw [root] at names
  exact hne names.symm

end Entry

end Path

end BootImage
