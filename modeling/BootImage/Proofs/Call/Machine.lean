import BootImage.Machine.Launch
import BootImage.Proofs.Build.Frame
import BootImage.Proofs.Call.Supervision

/-!
# Calls on a machine

A machine hears of an end of every program that it runs, and of a failure for every program that it
refuses to run in a way that supervisors are told of. So a call on a machine has a definite result
unless nothing was started or the program takes too many steps, and a call that starts nothing
leaves the files as they are.
-/

namespace BootImage

namespace Launch

variable {env : Environment} {coming : List (Nat × Change)} {tree : FileTree} {dir : Location}
  {mode : CallMode} {image : Image} {l : Launch}

theorem heard_ofImage? (h : ofImage? env coming tree dir mode image = some l) :
    ∃ bytes code signal, l.heard = [bytes].map .output ++ .closed code signal :: [] := by
  have closes (ending : Shell.Ending) : ∃ code signal, heardOf ending = .closed code signal := by
    cases ending with
    | exited status => exact ⟨_, _, rfl⟩
    | killed g =>
        rw [heardOf]
        cases g.fullName? <;> exact ⟨_, _, rfl⟩
  rw [ofImage?.eq_def] at h
  dsimp only at h
  split at h
  · cases h
  · next ending s _ =>
      obtain ⟨code, signal, closed⟩ := closes ending
      cases h
      exact ⟨_, code, signal, congrArg (fun e => [_, e]) closed⟩

end Launch

namespace Runner

variable {env : Environment} {cwd : Location} {past : List Event} {tree : FileTree} {c : Call}

theorem onMachine_of_refused (whole : c.fault? = none) {why : Refusal}
    (planned : Launch.plan env cwd tree c = .error why) :
    (onMachine env cwd past tree c).tree = tree ∧ (onMachine env cwd past tree c).outcome =
      if Launch.isTold why then
        .ok { exitCode := 1, spawnError := some ⟨why.code, s!"spawn {c.command} {why.code}"⟩ }
      else .error (.start (.refused why)) := by
  by_cases told : Launch.isTold why = true
  · have launched : Launch.ofCall env cwd past tree c =
        .ok (Launch.refused tree c.command why) := by
      simp only [Launch.ofCall, whole, planned, told, if_true]
    have heard : (Launch.refused tree c.command why).heard =
        [].map .output ++ .failed ⟨some why.code, s!"spawn {c.command} {why.code}"⟩ :: [] := rfl
    rw [if_pos told]
    exact ⟨tree_supervising launched, (supervising_eq launched heard rfl).1⟩
  · have launched : Launch.ofCall env cwd past tree c = .error (.start (.refused why)) := by
      simp [Launch.ofCall, whole, planned, told]
    rw [if_neg told]
    exact (supervising_of_error launched).symm

theorem onMachine_of_plan (whole : c.fault? = none) {dir : Location} {image : Image}
    (planned : Launch.plan env cwd tree c = .ok (dir, image)) :
    (∃ r, (onMachine env cwd past tree c).outcome = .ok r ∧ r.Definite ∧ r.spawnError = none) ∨
      (onMachine env cwd past tree c).outcome = .error (.raised "the program never ended") := by
  cases ran : Launch.ofImage? env (Event.ahead Event.change? past) tree dir c.mode image with
  | none =>
      have launched : Launch.ofCall env cwd past tree c =
          .error (.raised "the program never ended") := by
        simp only [Launch.ofCall, whole, planned, ran]
      exact .inr (supervising_of_error launched).1
  | some l =>
      have launched : Launch.ofCall env cwd past tree c = .ok l := by
        simp only [Launch.ofCall, whole, planned, ran]
      obtain ⟨bytes, code, signal, heard⟩ := Launch.heard_ofImage? ran
      obtain ⟨r, result⟩ := ChildEvent.exists_result?
        (rfl : (ChildEvent.closed code signal).isEnd = true) [bytes].flatten
      have outcome := (supervising_eq launched heard result).1
      refine .inl ⟨r, outcome, definite_of_supervising outcome, ?_⟩
      cases signal <;> cases result <;> rfl

/-- What becomes of a call on a machine. A call that is at fault itself starts nothing. If the
machine refuses it, that is its result or a failure, as supervisors are told of it or not. Otherwise
the program has a definite result, which shows no failure to start, unless it takes too many
steps. -/
theorem onMachine_cases (env : Environment) (cwd : Location) (past : List Event) (tree : FileTree)
    (c : Call) :
    let reply := onMachine env cwd past tree c
    match c.fault? with
    | some f => reply.outcome = .error (.start f) ∧ reply.tree = tree
    | none => match Launch.plan env cwd tree c with
      | .error why =>
        reply.tree = tree ∧ reply.outcome =
          if Launch.isTold why then
            .ok { exitCode := 1, spawnError := some ⟨why.code, s!"spawn {c.command} {why.code}"⟩ }
          else .error (.start (.refused why))
      | .ok _ => (∃ r, reply.outcome = .ok r ∧ r.Definite ∧ r.spawnError = none) ∨
        reply.outcome = .error (.raised "the program never ended") := by
  intro reply
  cases fault : c.fault? with
  | some f => exact supervising_of_error (by rw [Launch.ofCall, fault])
  | none =>
      cases planned : Launch.plan env cwd tree c with
      | error why => exact onMachine_of_refused fault planned
      | ok found => exact onMachine_of_plan fault planned

/-- Programs on another machine leave the files as they are. -/
theorem leavesFiles_elsewhere (machine : FileTree) (runner : Runner) :
    (elsewhere machine runner).LeavesFiles := fun _ _ _ => rfl

end Runner

end BootImage
