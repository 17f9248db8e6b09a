import BootImage.Text.Pieces

/-!
# The segments of a path

A path is cut into segments at `/`. Reducing the segments drops the empty ones and `.`, and lets
`..` take back the segment before it. What a `..` with nothing before it does is the difference
between the two kinds of path: below the root it does nothing, and in a relative path it stays,
since it climbs out of the directory the path starts from.

The segments read so far are kept latest first, so that `..` looks at the head of the list.
-/

namespace BootImage.Path

abbrev Segment := List Char

def current : Segment := ['.']

def parent : Segment := ['.', '.']

/-- The segments after one more, latest first. With `climbs` a `..` that has nothing to take back
stays. -/
def visit (climbs : Bool) (stack : List Segment) (s : Segment) : List Segment :=
  if s = [] ∨ s = current then stack
  else if s = parent then
    match stack with
    | [] => if climbs then [parent] else []
    | top :: below => if top = parent then parent :: top :: below else below
  else s :: stack

/-- The segments of `p` that are left when empty segments, `.` and `..` are worked out. -/
def reduce (climbs : Bool) (p : List Char) : List Segment :=
  ((Text.pieces '/' p).foldl (visit climbs) []).reverse

/-- Whether a segment stays as it is wherever it stands: it is not empty, not `.` and not `..`. -/
def isName (s : Segment) : Bool := s ≠ [] && s ≠ current && s ≠ parent

@[simp] theorem visit_nil (climbs : Bool) (stack : List Segment) :
    visit climbs stack [] = stack := by
  simp [visit]

@[simp] theorem visit_current (climbs : Bool) (stack : List Segment) :
    visit climbs stack current = stack := by simp [visit]

theorem visit_of_isName {s : Segment} (h : isName s = true) (climbs : Bool)
    (stack : List Segment) : visit climbs stack s = s :: stack := by
  simp only [isName, Bool.and_eq_true, decide_eq_true_eq] at h
  simp [visit, h.1.1, h.1.2, h.2]

theorem visit_parent_of_isName {s : Segment} (h : isName s = true) (climbs : Bool)
    (stack : List Segment) : visit climbs (s :: stack) parent = stack := by
  simp only [isName, Bool.and_eq_true, decide_eq_true_eq] at h
  simp [visit, h.2, show parent ≠ [] by decide, show parent ≠ current by decide]

theorem isName_of_mem_visit {stack : List Segment} (h : ∀ x ∈ stack, isName x = true)
    (s : Segment) : ∀ x ∈ visit false stack s, isName x = true := by
  intro x hx
  by_cases h₁ : s = [] ∨ s = current
  · rw [visit.eq_def, if_pos h₁] at hx
    exact h x hx
  by_cases h₂ : s = parent
  · subst h₂
    cases stack with
    | nil => simp [visit, h₁] at hx
    | cons top below =>
      rw [visit_parent_of_isName (h top (by simp))] at hx
      exact h x (List.mem_cons_of_mem _ hx)
  · rw [visit.eq_def, if_neg h₁, if_neg h₂] at hx
    rcases List.mem_cons.1 hx with rfl | hx
    · simp only [not_or] at h₁
      simp [isName, h₁.1, h₁.2, h₂]
    · exact h x hx

end BootImage.Path
