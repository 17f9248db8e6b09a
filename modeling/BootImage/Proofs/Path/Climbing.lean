import BootImage.Proofs.Path.Reduction

/-!
# Segments that lead out of where they start

Some segments visited one after the other may take back a segment from before the first of them. In
a relative path the `..` that does so stays, and once there it is never taken back, so the segments
climb exactly if a `..` is left of them. Segments that do not climb are visited above whatever is
there before as if there were nothing. Segments that climb forget the name right below them, so they
lead to the same from any name.
-/

namespace BootImage.Path

/-- The segments lead out of the directory that they start from. -/
def Climbs (ss : List Segment) : Prop := parent ∈ ss.foldl (visit true) []

instance (ss : List Segment) : Decidable (Climbs ss) := inferInstanceAs (Decidable (_ ∈ _))

theorem segment_cases (s : Segment) : (s = [] ∨ s = current) ∨ s = parent ∨ isName s = true := by
  by_cases idle : s = [] ∨ s = current
  · exact .inl idle
  by_cases up : s = parent
  · exact .inr (.inl up)
  · rw [not_or] at idle
    exact .inr (.inr (by simp [isName, idle.1, idle.2, up]))

theorem visit_parent_cons {t : Segment} (h : t ≠ parent) (climbs : Bool) (ts : List Segment) :
    visit climbs (t :: ts) parent = ts := by
  rw [visit, if_neg (by decide), if_pos rfl, if_neg h]

theorem visit_parent_parent_cons (climbs : Bool) (ts : List Segment) :
    visit climbs (parent :: ts) parent = parent :: parent :: ts := by
  rw [visit, if_neg (by decide), if_pos rfl, if_pos rfl]

variable {top : List Segment}

theorem parent_mem_visit (h : parent ∈ top) (s : Segment) : parent ∈ visit true top s := by
  rcases segment_cases s with (rfl | rfl) | rfl | name
  · rwa [visit_nil]
  · rwa [visit_current]
  · obtain ⟨t, ts, rfl⟩ := List.exists_cons_of_ne_nil (List.ne_nil_of_mem h)
    by_cases up : t = parent
    · subst up
      rw [visit_parent_parent_cons]
      exact List.mem_cons_self
    · rw [visit_parent_cons up]
      exact (List.mem_cons.1 h).resolve_left (Ne.symm up)
  · rw [visit_of_isName name]
    exact List.mem_cons_of_mem _ h

theorem parent_mem_foldl_visit (h : parent ∈ top) (ss : List Segment) :
    parent ∈ ss.foldl (visit true) top := by
  induction ss generalizing top with
  | nil => exact h
  | cons s ss ih => exact ih (parent_mem_visit h s)

/-- The only way to climb is a `..` with nothing to take back. -/
theorem eq_parent_of_parent_mem_visit {s : Segment} (h : parent ∈ visit true top s)
    (inside : parent ∉ top) : s = parent ∧ top = [] := by
  have last : s = parent := ((mem_of_mem_visit h).resolve_right inside).symm
  subst last
  cases top with
  | nil => exact ⟨rfl, rfl⟩
  | cons t ts =>
      rw [List.mem_cons, not_or] at inside
      rw [visit_parent_cons (Ne.symm inside.1)] at h
      exact absurd h inside.2

/-- A segment that does not climb is visited as if nothing were below. -/
theorem visit_append {s : Segment} (h : parent ∉ visit true top s) (below : List Segment) :
    visit false (top ++ below) s = visit true top s ++ below := by
  rcases segment_cases s with (rfl | rfl) | rfl | name
  · rw [visit_nil, visit_nil]
  · rw [visit_current, visit_current]
  · cases top with
    | nil => exact absurd List.mem_cons_self h
    | cons t ts =>
        have other : t ≠ parent := by
          rintro rfl
          exact h (parent_mem_visit List.mem_cons_self _)
        rw [List.cons_append, visit_parent_cons other, visit_parent_cons other]
  · rw [visit_of_isName name, visit_of_isName name, List.cons_append]

/-- Segments that do not climb are visited as if nothing were below. -/
theorem foldl_visit_append {ss : List Segment} (h : parent ∉ ss.foldl (visit true) top)
    (below : List Segment) :
    ss.foldl (visit false) (top ++ below) = ss.foldl (visit true) top ++ below := by
  induction ss generalizing top with
  | nil => rfl
  | cons s ss ih =>
      have inside : parent ∉ visit true top s := fun hm => h (parent_mem_foldl_visit hm ss)
      rw [List.foldl_cons, List.foldl_cons, visit_append inside, ih h]

theorem foldl_visit_forget {ss : List Segment} (h : parent ∈ ss.foldl (visit true) top)
    (inside : parent ∉ top) {x y : Segment} (hx : isName x = true) (hy : isName y = true)
    (below : List Segment) :
    ss.foldl (visit false) (top ++ x :: below) = ss.foldl (visit false) (top ++ y :: below) := by
  induction ss generalizing top with
  | nil => exact absurd h inside
  | cons s ss ih =>
      rw [List.foldl_cons, List.foldl_cons]
      by_cases hs : parent ∈ visit true top s
      · obtain ⟨rfl, rfl⟩ := eq_parent_of_parent_mem_visit hs inside
        rw [List.nil_append, List.nil_append, visit_parent_of_isName hx, visit_parent_of_isName hy]
      · rw [visit_append hs, visit_append hs]
        exact ih h hs

end BootImage.Path
