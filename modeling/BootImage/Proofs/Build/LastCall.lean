import BootImage.Proofs.Build.Rounds

/-!
# The call that ends a build

A call of a build that does not return 0 is its last: after it the build tells the problems that the
call shows and one detail, and the code of the call is the status of the build.
-/

namespace BootImage

namespace Job

variable {runner : Runner} {job : Job}

theorem round_append_cases {st : Stage} {s : RunState} {x : Exchange} {ls : List Line}
    {as before rest : List Act} {c : Call} {outcome : Except Failure CallResult}
    (cut : job.round runner st s x ls ++ as = before ++ .call c outcome :: rest) :
    (x = ⟨c, outcome⟩ ∧ before = (job.heralds st c).map .line ∧
      rest = (x.problems ++ job.results (runner (after runner s before).trace
        (after runner s before).tree c).tree st x.status ++ ls).map .line ++ as) ∨
      ∃ before', before = job.round runner st s x ls ++ before' ∧
        as = before' ++ .call c outcome :: rest := by
  rw [round_eq]
  rw [round_eq, List.append_assoc, List.cons_append] at cut
  obtain ⟨before', rfl, behind⟩ := exists_append_of_not_mem cut (by simp)
  cases before' with
  | nil =>
      obtain ⟨call, rfl⟩ := List.cons.inj behind
      obtain ⟨rfl, rfl⟩ := Act.call.inj call
      rw [List.append_nil]
      exact .inl ⟨rfl, rfl, rfl⟩
  | cons a before' =>
      obtain ⟨rfl, later⟩ := List.cons.inj behind
      obtain ⟨before'', rfl, last⟩ := exists_append_of_not_mem later (by simp)
      exact .inr ⟨before'', by simp, last⟩

/-- A call that did not return 0 is found in the course of a stage or behind it. If it is the call
of the stage, its problems are told after it and nothing of results. -/
theorem round_append_eq {st : Stage} {s : RunState} {x : Exchange} {ls : List Line}
    {as before rest : List Act} {c : Call} {r : CallResult} (nonzero : r.exitCode ≠ 0)
    (cut : job.round runner st s x ls ++ as = before ++ .call c (.ok r) :: rest) :
    (x.status = .ok r.exitCode ∧
        rest = ((callProblems c.command r).map Line.problem ++ ls).map .line ++ as) ∨
      ∃ before', as = before' ++ .call c (.ok r) :: rest := by
  refine (round_append_cases cut).imp ?_ fun ⟨before', _, behind⟩ => ⟨before', behind⟩
  rintro ⟨rfl, -, rest⟩
  have other : (.ok r.exitCode : Except Failure Int) ≠ .ok 0 := by simpa using nonzero
  refine ⟨rfl, rest.trans ?_⟩
  rw [show Exchange.status ⟨c, .ok r⟩ = .ok r.exitCode from rfl, job.results_eq_nil other,
    List.append_nil]
  rfl

theorem eq_of_round_eq {st : Stage} {s : RunState} {x : Exchange} {ls : List Line}
    {before rest : List Act} {c : Call} {r : CallResult} (nonzero : r.exitCode ≠ 0)
    (cut : job.round runner st s x ls = before ++ .call c (.ok r) :: rest) :
    x.status = .ok r.exitCode ∧
      rest = ((callProblems c.command r).map Line.problem ++ ls).map .line := by
  rw [← List.append_nil (job.round runner st s x ls)] at cut
  rcases round_append_eq nonzero cut with h | ⟨before', cut⟩
  · simpa using h
  · simp at cut

/-- From a stage after the first, a call that does not return 0 is the last. -/
theorem Rounds.eq_of_nonzero {st : Stage} {s : RunState} {as : List Act} {o : Except Failure Int}
    (h : Rounds runner job st s as o) {before rest : List Act} {c : Call} {r : CallResult}
    (cut : as = before ++ .call c (.ok r) :: rest) (nonzero : r.exitCode ≠ 0) :
    o = .ok r.exitCode ∧
      ∃ d, rest = ((callProblems c.command r).map Line.problem ++ [Line.detail d]).map .line := by
  induction h generalizing before with
  | done s => simp at cut
  | threw _ status => cases status.symm.trans (eq_of_round_eq nonzero cut).1
  | emulated _ status =>
      obtain ⟨status', rest⟩ := eq_of_round_eq nonzero cut
      exact ⟨status.symm.trans status', _, rest⟩
  | failed _ status _ _ =>
      obtain ⟨status', rest⟩ := eq_of_round_eq nonzero cut
      exact ⟨status.symm.trans status', _, rest⟩
  | passed _ status _ _ ih =>
      rcases round_append_eq nonzero cut with ⟨status', -⟩ | ⟨before', cut⟩
      · exact absurd (Except.ok.inj (status'.symm.trans status)) nonzero
      · exact ih cut

/-- A call of a build that does not return 0 is the last: the build tells its problems and a detail,
and ends with its code. -/
theorem Builds.eq_of_nonzero {s : RunState} {as : List Act} {o : Except Failure Int}
    (h : Builds runner job s as o) {before rest : List Act} {c : Call} {r : CallResult}
    (cut : as = before ++ .call c (.ok r) :: rest) (nonzero : r.exitCode ≠ 0) :
    o = .ok r.exitCode ∧
      ∃ d, rest = ((callProblems c.command r).map Line.problem ++ [Line.detail d]).map .line := by
  cases h with
  | unmade _ =>
      have mem : Act.call c (.ok r) ∈ before ++ .call c (.ok r) :: rest := by simp
      rw [← cut] at mem
      simp at mem
  | made _ later =>
      rcases before with _ | ⟨a, _ | ⟨a', before⟩⟩
      · cases cut
      · cases cut
      · exact later.eq_of_nonzero (List.cons.inj (List.cons.inj cut).2).2 nonzero

end Job

end BootImage
