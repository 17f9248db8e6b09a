import BootImage.Build.Action
import BootImage.Call.Child

/-!
# Supervised calls

A runner that starts programs and supervises them. How a program is started, and what then becomes
of it, is a parameter: a start leads to a `Launch` or fails.
-/

namespace BootImage

/-- What the start of a program leads to: what its supervisor hears, what happens meanwhile, and the
files the program leaves. -/
structure Launch where
  heard : List ChildEvent
  meanwhile : List Event := []
  tree : FileTree
  isForeign : ∀ e ∈ meanwhile, e.isForeign := by simp

/-- The runner that supervises what `launch` starts. A call of which no end is heard never ends. -/
def Runner.supervising (launch : List Event → FileTree → Call → Except Failure Launch) : Runner :=
  fun past tree c =>
    match launch past tree c with
    | .error f =>
      { outcome := .error f
        tree
        events := [.line (.detail (.spawning c))]
        meanwhile := by simp [Event.isMeanwhile, Detail.component] }
    | .ok l => match h : (Supervision.hearAll c {} l.heard).answer? c l.meanwhile with
      | some (result, events) =>
        { outcome := .ok result
          tree := l.tree
          events
          meanwhile := Supervision.isMeanwhile_of_answer? l.isForeign h }
      | none =>
        { outcome := .error (.raised "the program never ended")
          tree := l.tree
          meanwhile := Event.isMeanwhile_of_mem_nil }

end BootImage
