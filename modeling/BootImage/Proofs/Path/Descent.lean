import BootImage.Proofs.Path.Reduction

/-!
# What lies below a directory

A joined path comes to the segments of its parts, visited one after the other. As long as no `..` is
among them, nothing that was visited before is taken back, so the path leads down from where it
starts.
-/

namespace BootImage.Path

/-- The path leads to the entry `name` of the directory. -/
def IsEntry (dir name p : String) : Prop :=
  reduce false p.toList = reduce false dir.toList ++ [name.toList]

/-- The path leads to the directory or to something below it. -/
def LiesIn (dir p : String) : Prop := reduce false dir.toList <+: reduce false p.toList

def LiesBelow (dir p : String) : Prop :=
  ∃ way, way ≠ [] ∧ reduce false p.toList = reduce false dir.toList ++ way

instance (dir p : String) : Decidable (LiesIn dir p) := inferInstanceAs (Decidable (_ <+: _))

theorem LiesBelow.liesIn {dir p : String} (h : LiesBelow dir p) : LiesIn dir p := by
  obtain ⟨way, -, hp⟩ := h
  exact ⟨way, hp.symm⟩

variable (climbs : Bool) (stack : List Segment)

theorem suffix_visit {s : Segment} (h : s ≠ parent) : stack <:+ visit climbs stack s := by
  rw [visit.eq_def, if_neg h]
  split
  · exact List.suffix_rfl
  · exact List.suffix_cons s stack

theorem suffix_foldl_visit {ss : List Segment} (h : parent ∉ ss) :
    stack <:+ ss.foldl (visit climbs) stack := by
  induction ss generalizing stack with
  | nil => exact List.suffix_rfl
  | cons s ss ih =>
      rw [List.mem_cons, not_or] at h
      exact (suffix_visit climbs stack (Ne.symm h.1)).trans (ih _ h.2)

def segments (parts : List String) : List Segment :=
  parts.flatMap fun p => Text.pieces '/' p.toList

theorem foldl_visit_segments_filter (parts : List String) :
    (segments (parts.filter fun p => !p.isEmpty)).foldl (visit climbs) stack =
      (segments parts).foldl (visit climbs) stack := by
  induction parts generalizing stack with
  | nil => rfl
  | cons p parts ih =>
      by_cases empty : p = ""
      -- an empty part is an empty segment, which does not count
      · subst empty
        simpa [segments] using ih stack
      · have kept : (p :: parts).filter (fun p => !p.isEmpty) =
            p :: parts.filter fun p => !p.isEmpty :=
          List.filter_cons_of_pos (by simpa using empty)
        rw [kept]
        simp only [segments, List.flatMap_cons, List.foldl_append] at ih ⊢
        exact ih _

theorem pieces_intercalate (p : List Char) (ps : List (List Char)) :
    Text.pieces '/' (['/'].intercalate (p :: ps)) = (p :: ps).flatMap (Text.pieces '/') := by
  induction ps generalizing p with
  | nil => simp
  | cons q ps ih =>
      rw [List.intercalate_cons_cons, List.append_assoc, List.singleton_append,
        Text.pieces_append_sep_cons, ih, List.flatMap_cons, List.flatMap_cons, List.flatMap_cons]

theorem reduce_join_eq {d : String} (h : isAbsolute d.toList = true) (parts : List String) :
    reduce false (join (d :: parts)).toList =
      ((segments parts).foldl (visit false) (reduce false d.toList).reverse).reverse := by
  rw [toList_join_cons (ne_empty_of_isAbsolute h),
    reduce_normalizeChars (isAbsolute_intercalate h _), reduce, pieces_intercalate,
    List.flatMap_cons, List.foldl_append, List.flatMap_map, reduce, List.reverse_reverse]
  exact congrArg List.reverse (foldl_visit_segments_filter false _ parts)

theorem liesIn_join {d : String} (h : isAbsolute d.toList = true) {parts : List String}
    (down : parent ∉ segments parts) : LiesIn d (join (d :: parts)) := by
  rw [LiesIn, reduce_join_eq h, ← List.reverse_suffix, List.reverse_reverse]
  exact suffix_foldl_visit false _ down

/-- A name among the segments leads to something below, if no `..` is among them. -/
theorem liesBelow_join {d : String} (h : isAbsolute d.toList = true) {parts : List String}
    (down : parent ∉ segments parts) {s : Segment} (hs : isName s = true)
    (mem : s ∈ segments parts) : LiesBelow d (join (d :: parts)) := by
  obtain ⟨before, after, split⟩ := List.append_of_mem mem
  rw [split, List.mem_append, List.mem_cons, not_or, not_or] at down
  rw [LiesBelow, reduce_join_eq h, split, List.foldl_append, List.foldl_cons, visit_of_isName hs]
  obtain ⟨a, ha⟩ := suffix_foldl_visit false (reduce false d.toList).reverse down.1
  obtain ⟨b, hb⟩ := suffix_foldl_visit false
    (s :: before.foldl (visit false) (reduce false d.toList).reverse) down.2.2
  refine ⟨a.reverse ++ s :: b.reverse, by simp, ?_⟩
  rw [← hb, ← ha]
  simp

end BootImage.Path
