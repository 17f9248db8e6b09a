import BootImage.Report.Event
import Mathlib.Data.List.Basic

/-!
# What is seen of a report

A reader who sees debug lines of some components but not of others can tell from what is seen which
components are shown, as far as they tell anything: every debug line names its component, and the
names differ in their first letter. So two choices of components come to the same sights exactly if
they agree on every component that tells a detail.
-/

namespace BootImage

/-- Whether a sight is a text that has the first letter of the component where debug lines name
their component. -/
def Sight.marks (c : Component) : Sight → Bool
  | .err text => text.toList[14]? == c.name.toList.head?
  | _ => false

def Sight.isReport : Sight → Bool
  | .err _ => true
  | _ => false

def Event.tells (c : Component) : Event → Bool
  | .line (.detail d) => d.component == c
  | _ => false

theorem marks_render_debug (c c' : Component) (text : String) :
    Sight.marks c (.err ((LineKind.debug c').render text)) = (c' == c) := by
  have header : "[boot-builder:".toList.length = 14 := by decide
  have letter : 0 < c'.name.toList.length := by cases c' <;> decide
  have place : ((LineKind.debug c').render text).toList[14]? = c'.name.toList.head? := by
    change ("[boot-builder:" ++ c'.name ++ "] " ++ text ++ "\n").toList[14]? = _
    simp only [String.toList_append, List.append_assoc]
    rw [List.getElem?_append_right (Nat.le_of_eq header), header, Nat.sub_self,
      List.getElem?_append_left letter, List.head?_eq_getElem?]
  rw [Sight.marks, place]
  cases c <;> cases c' <;> decide

namespace Event

variable (v : Verbosity)

theorem shown?_detail (d : Detail) :
    (line (.detail d)).shown? v =
      if d.component ∈ v.components then
        some (.err ((LineKind.debug d.component).render d.text))
      else none := by
  by_cases h : d.component ∈ v.components <;>
    simp [shown?, Line.kind, Line.text, Verbosity.write?, Verbosity.shows, h]

/-- Whether an event other than a detail is seen does not depend on the components. -/
theorem shown?_eq_of_not_detail {e : Event} (h : ∀ d, e ≠ line (.detail d))
    (components : List Component) :
    e.shown? { v with components } = e.shown? v := by
  cases e with
  | line l =>
      cases l with
      | detail d => exact absurd rfl (h d)
      | _ => rfl
  | _ => rfl

/-- The sights marked with a component are its details, if it is shown, and lines of other kinds
that happen to look alike. -/
theorem countP_marks_shown? (c : Component) (trace : List Event) :
    (trace.filterMap (shown? v)).countP (Sight.marks c) =
      (if c ∈ v.components then trace.countP (tells c) else 0) +
        (trace.filterMap (shown? { v with components := [] })).countP (Sight.marks c) := by
  induction trace with
  | nil => simp
  | cons e trace ih =>
      by_cases h : ∃ d, e = line (.detail d)
      · obtain ⟨d, rfl⟩ := h
        have hidden : (line (.detail d)).shown? { v with components := [] } = none := by
          rw [shown?_detail, if_neg (List.not_mem_nil)]
        have marked := marks_render_debug c d.component d.text
        rw [List.filterMap_cons_none hidden, List.countP_cons, tells]
        -- a detail of another component is shown or not, but never marked with `c`
        by_cases hs : d.component ∈ v.components
        · have shown := shown?_detail v d
          rw [if_pos hs] at shown
          rw [List.filterMap_cons_some shown, List.countP_cons, marked, ih]
          by_cases hc : d.component = c
          · subst hc
            simp only [hs, if_true, beq_self_eq_true]
            omega
          · simp [hc]
        · have shown := shown?_detail v d
          rw [if_neg hs] at shown
          rw [List.filterMap_cons_none shown, ih]
          by_cases hc : d.component = c
          · subst hc
            simp [hs]
          · simp [hc]
      · have other := shown?_eq_of_not_detail v (fun d hd => h ⟨d, hd⟩) []
        have tells_e : e.tells c = false := by
          unfold tells
          split
          · exact absurd ⟨_, rfl⟩ h
          · rfl
        rw [List.countP_cons, tells_e]
        cases hs : e.shown? v with
        | none =>
            rw [List.filterMap_cons_none hs, List.filterMap_cons_none (other.trans hs), ih]
            simp
        | some x =>
            rw [List.filterMap_cons_some hs, List.filterMap_cons_some (other.trans hs),
              List.countP_cons, List.countP_cons, ih]
            simp only [Bool.false_eq_true, if_false, Nat.add_zero]
            omega

/-- Two choices of components come to the same sights exactly if they agree on every component that
tells a detail. -/
theorem filterMap_shown?_eq_iff {v v' : Verbosity} (hq : v.quiet = v'.quiet)
    (trace : List Event) :
    trace.filterMap (shown? v) = trace.filterMap (shown? v') ↔
      ∀ d, line (.detail d) ∈ trace →
        (d.component ∈ v.components ↔ d.component ∈ v'.components) := by
  obtain ⟨quiet, components⟩ := v
  obtain ⟨quiet', components'⟩ := v'
  dsimp only at hq ⊢
  subst hq
  constructor
  · intro h d hd
    -- the lines that only look like details of the component are as many on both sides
    have left := countP_marks_shown? ⟨quiet, components⟩ d.component trace
    have right := countP_marks_shown? ⟨quiet, components'⟩ d.component trace
    rw [h, right] at left
    have same := Nat.add_right_cancel left
    have pos : 0 < trace.countP (tells d.component) :=
      List.countP_pos_iff.2 ⟨_, hd, by simp [tells]⟩
    dsimp only at same
    by_cases hs : d.component ∈ components
    · rw [if_pos hs] at same
      by_cases hs' : d.component ∈ components'
      · exact ⟨fun _ => hs', fun _ => hs⟩
      · rw [if_neg hs'] at same
        omega
    · rw [if_neg hs] at same
      by_cases hs' : d.component ∈ components'
      · rw [if_pos hs'] at same
        omega
      · exact ⟨fun hc => absurd hc hs, fun hc => absurd hc hs'⟩
  · intro h
    refine List.filterMap_congr ?_
    intro e he
    by_cases hd : ∃ d, e = line (.detail d)
    · obtain ⟨d, rfl⟩ := hd
      rw [shown?_detail, shown?_detail]
      simp only [h d he]
    · exact shown?_eq_of_not_detail ⟨quiet, components'⟩ (fun d hd' => hd ⟨d, hd'⟩) components

theorem filter_filterMap_shown? {v v' : Verbosity} (trace : List Event) :
    (trace.filterMap (shown? v)).filter (fun x => !x.isReport) =
      (trace.filterMap (shown? v')).filter (fun x => !x.isReport) := by
  have hidden (v : Verbosity) (l : Line) :
      ((line l).shown? v).filter (fun x => !x.isReport) = none := by
    rw [shown?]
    cases v.write? l.kind l.text <;> rfl
  rw [List.filter_filterMap, List.filter_filterMap]
  refine List.filterMap_congr ?_
  intro e _
  cases e with
  | line l => rw [hidden, hidden]
  | _ => rfl

/-- Whether a choice of what is shown leaves an event to the reader: it takes away the progress of a
quiet run and the details of the components that are not chosen. -/
def keptBy (v : Verbosity) : Event → Bool
  | line (.progress _) => !v.quiet
  | line (.detail d) => v.components.contains d.component
  | _ => true

def isProblem : Event → Bool
  | line (.problem _) => true
  | _ => false

/-- What is seen is what the choice keeps of everything there is to see. -/
theorem filterMap_shown?_eq_filter (v : Verbosity) (trace : List Event) :
    trace.filterMap (shown? v) = (trace.filter (keptBy v)).filterMap (shown? .full) := by
  rw [List.filterMap_filter]
  refine List.filterMap_congr ?_
  intro e _
  cases e with
  | line l =>
      cases l with
      | progress p =>
          rw [shown?, shown?, keptBy]
          cases h : v.quiet <;>
            simp [Line.kind, Verbosity.write?, Verbosity.shows, Verbosity.full, h]
      | problem p => rfl
      | detail d =>
          have full := (shown?_detail .full d).trans (if_pos (Component.mem_all d.component))
          rw [shown?_detail, full, keptBy]
          simp
  | _ => rfl

theorem filter_isProblem_filter_keptBy (v : Verbosity) (trace : List Event) :
    (trace.filter (keptBy v)).filter isProblem = trace.filter isProblem := by
  rw [List.filter_filter]
  refine List.filter_congr ?_
  intro e _
  cases e with
  | line l => cases l <;> simp [isProblem, keptBy]
  | _ => rfl

end Event

end BootImage
