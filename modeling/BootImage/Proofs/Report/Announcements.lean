import BootImage.Proofs.Report.Openings
import BootImage.Proofs.Report.Shown

/-!
# Announcements of calls

A program that is run, not only asked, is announced by a progress line that holds its command and
its arguments. `Heralded` says of what is seen of a run that each such call comes right after its
announcement, where progress is shown, and that there is no other announcement. An announcement is
told by its opening words, which no other line of a report begins with.
-/

namespace BootImage

def Call.announcement (c : Call) : String := "Running: " ++ c.line ++ "\n"

namespace Sight

def Announces : Sight → Prop
  | err text => "Running: ".toList <+: text.toList
  | _ => False

def Starts : Sight → Prop
  | call c => c.mode = .run
  | _ => False

end Sight

/-- What is seen of a run in which programs are announced; a quiet run starts them without saying
so. -/
inductive Heralded (quiet : Bool) : List Sight → Prop
  | nil : Heralded quiet []
  | other {x : Sight} {xs : List Sight} (silent : ¬x.Announces) (unsaid : x.Starts → quiet = true)
      (rest : Heralded quiet xs) : Heralded quiet (x :: xs)
  | start {c : Call} {xs : List Sight} (mode : c.mode = .run) (rest : Heralded quiet xs) :
      Heralded quiet (.err c.announcement :: .call c :: xs)

namespace Heralded

variable {quiet : Bool} {xs ys : List Sight}

theorem append (h : Heralded quiet xs) (h' : Heralded quiet ys) : Heralded quiet (xs ++ ys) := by
  induction h with
  | nil => exact h'
  | other silent unsaid _ ih => exact .other silent unsaid ih
  | start mode _ ih => exact .start mode ih

end Heralded

theorem Event.not_announces_of_shown? {v : Verbosity} {e : Event} {x : Sight}
    (h : ∀ command args, e ≠ .line (.progress (.running command args))) (hx : e.shown? v = some x) :
    ¬x.Announces := by
  cases e with
  | line l =>
      rw [shown?, Verbosity.write?] at hx
      split at hx
      · cases hx
        intro announces
        obtain ⟨command, args, rfl⟩ := l.opensWith_running_iff.1 announces
        exact h command args rfl
      · cases hx
  | print text =>
      cases hx
      exact id
  | call c =>
      cases hx
      exact id
  | _ => cases hx

def Event.IsPlain : Event → Prop
  | line (.progress (.running ..)) => False
  | call c => c.mode = .capture
  | _ => True

theorem Heralded.of_plain {v : Verbosity} {es : List Event} (h : ∀ e ∈ es, e.IsPlain) :
    Heralded v.quiet (es.filterMap (Event.shown? v)) := by
  induction es with
  | nil => exact .nil
  | cons e es ih =>
      rw [List.forall_mem_cons] at h
      obtain ⟨plain, h⟩ := h
      cases hx : e.shown? v with
      | none =>
          rw [List.filterMap_cons_none hx]
          exact ih h
      | some x =>
          rw [List.filterMap_cons_some hx]
          refine .other (Event.not_announces_of_shown? ?_ hx) ?_ (ih h)
          · rintro command args rfl
            exact plain
          · intro starts
            cases e with
            | call c =>
                cases hx
                cases starts.symm.trans plain
            | line l =>
                obtain ⟨text, -, rfl⟩ := Option.map_eq_some_iff.1 hx
                exact absurd starts id
            | print text =>
                cases hx
                exact absurd starts id
            | _ => cases hx

end BootImage
