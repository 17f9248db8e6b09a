import BootImage.Proofs.Build.Accounts
import BootImage.Proofs.Program.Ambient
import BootImage.Proofs.Program.Courses
import BootImage.Proofs.Report.Announcements

/-!
# Every failing run is explained

A run whose status is not 0 says why, also where it is quiet: it prints what is wrong with its
words, or the last program it called gave this status itself, or the report ends with a problem and
at most details after it. And whatever a run starts it announces, each program right before it is
run. Both are read off the courses of a run, and what is seen of a run follows from its course.
-/

namespace BootImage

namespace Invocation

variable {runner : Runner} {inv : Invocation} {s : RunState} {as : List Act} {status : Int}

theorem announced_closing (outcome : Except Failure Int) : Announced (closing outcome) := by
  cases outcome with
  | ok code => exact .nil
  | error f => exact .plain trivial .nil

theorem announced_searched (o : BuildOptions) (settings : Settings) :
    Announced (inv.searched runner s o settings) := by
  refine .plain trivial (.plain rfl ?_)
  split
  · exact .nil
  · exact .details _

theorem Unfolds.announced (h : inv.Unfolds runner s as status) : Announced as := by
  cases h with
  | help _ => exact .plain trivial .nil
  | refused _ => exact .plain trivial (.plain trivial .nil)
  | unset _ _ => exact .plain trivial .nil
  | stopped _ _ _ => exact (announced_searched _ _).append (.plain trivial .nil)
  | unfound _ _ _ => exact (announced_searched _ _).append (.plain trivial .nil)
  | built _ _ _ _ builds =>
      exact (announced_searched _ _).append
        (.plain trivial (builds.announced.append (announced_closing _)))

theorem blamed_failure (as : List Act) (f : Failure) :
    Blamed 1 (as ++ [.line (.problem (.failure f))]) :=
  .told as _ [] rfl

theorem Unfolds.blamed (h : inv.Unfolds runner s as status) (nonzero : status ≠ 0) :
    (∃ e : UsageError, as = [.print s!"Error: {e.message}\n", .print (usageText ++ "\n")]) ∨
      Blamed status as := by
  cases h with
  | help _ => exact absurd rfl nonzero
  | refused _ => exact .inl ⟨_, rfl⟩
  | unset _ _ => exact .inr (blamed_failure [] _)
  | stopped _ _ _ => exact .inr (blamed_failure _ _)
  | unfound _ _ _ => exact .inr (blamed_failure _ _)
  | @built _ _ _ _ as outcome _ _ _ _ builds =>
      refine .inr ?_
      cases outcome with
      | ok code =>
          have blamed := builds.blamed rfl nonzero
          rw [closing, List.append_nil]
          exact (blamed.prepend [_]).prepend _
      | error f =>
          rw [closing, ← List.cons_append, ← List.append_assoc]
          exact blamed_failure _ f

end Invocation

end BootImage
