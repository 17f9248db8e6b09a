import BootImage.Proofs.Build.Rounds

/-!
# Calls that cannot be made

A call that cannot be made ends a build on the spot: the failure is the outcome of the build, and
the call is its last act. `Escapes` says so of a course and its outcome. The build itself tells
nothing of a failure, that is left to whoever started the build.
-/

namespace BootImage

def Answers (as : List Act) : Prop := ∀ x ∈ exchanges as, ∃ r, x.outcome = .ok r

theorem Answers.append {as bs : List Act} (h : Answers as) (h' : Answers bs) :
    Answers (as ++ bs) := by
  intro x hx
  rw [exchanges_append, List.mem_append] at hx
  exact hx.elim (h x) (h' x)

/-- A course whose calls all come to a result, or that ends with the first that does not; the
outcome is a status in the one case and the failure in the other. -/
inductive Escapes : List Act → Except Failure Int → Prop
  | never {as : List Act} {code : Int} (h : Answers as) : Escapes as (.ok code)
  | last {before : List Act} {c : Call} {f : Failure} (h : Answers before) :
      Escapes (before ++ [.call c (.error f)]) (.error f)

namespace Escapes

variable {as bs before : List Act} {o : Except Failure Int}

theorem prepend (h : Escapes bs o) (ha : Answers as) : Escapes (as ++ bs) o := by
  cases h with
  | never h => exact .never (ha.append h)
  | last h =>
      rw [← List.append_assoc]
      exact .last (ha.append h)

/-- A call that cannot be made is the last act. -/
theorem eq_of_prefix (h : Escapes as o) {c : Call} {f : Failure}
    (hp : before ++ [.call c (.error f)] <+: as) :
    o = .error f ∧ as = before ++ [.call c (.error f)] := by
  have unanswered {as : List Act} (h : Answers as) : Act.call c (.error f) ∉ as := by
    intro hm
    obtain ⟨r, hr⟩ := h ⟨c, .error f⟩ (List.mem_filterMap.2 ⟨_, hm, rfl⟩)
    cases hr
  have mem : Act.call c (.error f) ∈ before ++ [.call c (.error f)] := by simp
  cases h with
  | never h => exact absurd (hp.subset mem) (unanswered h)
  | @last before' c' f' h =>
      -- the call is not among those before the last, so nothing follows it
      rcases List.prefix_concat_iff.1 hp with heq | hp
      · obtain ⟨rfl, hc⟩ := List.append_inj' heq rfl
        cases hc
        exact ⟨rfl, rfl⟩
      · exact absurd (hp.subset mem) (unanswered h)

theorem exists_last {f : Failure} (h : Escapes as (.error f)) :
    ∃ before c, as = before ++ [.call c (.error f)] := by
  cases h with
  | last _ => exact ⟨_, _, rfl⟩

end Escapes

namespace Job

variable {runner : Runner} {job : Job}

theorem answers_round {st : Stage} {x : Exchange} {code : Int} (h : x.status = .ok code)
    (s : RunState) (ls : List Line) : Answers (job.round runner st s x ls) := by
  intro y hy
  rw [round, exchanges_roundActs, List.mem_singleton] at hy
  subst hy
  cases ho : y.outcome with
  | ok r => exact ⟨r, rfl⟩
  | error f =>
      rw [Exchange.status, ho] at h
      cases h

theorem escapes_round {st : Stage} {x : Exchange} {f : Failure} (h : x.status = .error f)
    (s : RunState) : Escapes (job.round runner st s x []) (.error f) := by
  obtain ⟨c, outcome⟩ := x
  cases outcome with
  | ok r => cases h
  | error f' =>
      cases h
      have failed : (.error f : Except Failure Int) ≠ .ok 0 := by simp
      have told := job.results_eq_nil failed
      have first : Answers (.line (.detail (.stage st)) :: (job.notices st).map .line ++
          [.line (.progress (.running c.command c.args))]) := by
        intro x hx
        simp at hx
      have course : job.round runner st s ⟨c, .error f⟩ [] =
          (.line (.detail (.stage st)) :: (job.notices st).map .line ++
            [.line (.progress (.running c.command c.args))]) ++ [.call c (.error f)] := by
        rw [round_nil, stageActs, callActs, startActs, Exchange.problems, Exchange.status]
        simp [Except.map, told]
      rw [course]
      exact .last first

theorem Rounds.escapes {st : Stage} {s : RunState} {as : List Act} {o : Except Failure Int}
    (h : Rounds runner job st s as o) : Escapes as o := by
  induction h with
  | done s => exact .never (by simp [Answers])
  | threw _ status => exact escapes_round status _
  | emulated _ status => exact .never (answers_round status _ _)
  | failed _ status _ _ => exact .never (answers_round status _ _)
  | passed _ status _ _ ih => exact ih.prepend (answers_round status _ _)

theorem Builds.escapes {s : RunState} {as : List Act} {o : Except Failure Int}
    (h : Builds runner job s as o) : Escapes as o := by
  cases h with
  | unmade _ => exact .never (by simp [Answers])
  | made _ rest =>
      have first : Answers [.line (.detail (.stage .ensureOutDir)),
          .makeDirectories job.layout.outDir (.ok ())] := by simp [Answers]
      exact rest.escapes.prepend first

theorem Builds.failure_not_mem {s : RunState} {as : List Act} {o : Except Failure Int}
    (h : Builds runner job s as o) (f : Failure) : .line (.problem (.failure f)) ∉ as := by
  intro mem
  have told := h.tells mem
  generalize failed : Line.problem (.failure f) = l at told
  cases told with
  | problem _ _ shown =>
      cases failed
      rcases eq_of_mem_callProblems shown with h | h | h | ⟨_, h⟩ | ⟨_, h⟩ <;> cases h
  | artifact _ _ _ tree a =>
      rw [artifactLine] at failed
      split at failed <;> cases failed
  | _ => cases failed

end Job

end BootImage
