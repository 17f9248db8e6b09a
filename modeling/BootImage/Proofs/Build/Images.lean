import BootImage.Proofs.Build.Accounts
import BootImage.Proofs.Build.LastCall
import BootImage.Proofs.Build.Plan
import BootImage.Proofs.Layout.Artifacts
import BootImage.Proofs.Layout.Resolution
import BootImage.Proofs.Path.Way

/-!
# The report of the images

A build that had its images built accounts for every artifact, each by one line: the way to it from
the project's directory if it is there, and a warning if it is not. The lines go by the files as the
builder left them. The build goes on as if nothing were missing, and one whose images were not built
says nothing of them.
-/

open BootImage.Path

namespace BootImage

namespace Line

def isProblem : Line → Bool
  | problem _ => true
  | progress _ | detail _ => false

def isDetail : Line → Bool
  | detail _ => true
  | progress _ | problem _ => false

def sight (l : Line) : Sight := .err (l.kind.render l.text)

/-- Whether a line other than a detail is shown: a quiet run shows the problems only. -/
def isKept (quiet : Bool) : Line → Bool
  | progress _ => !quiet
  | problem _ => true
  | detail _ => false

end Line

namespace Event

def isDetail : Event → Bool
  | line l => l.isDetail
  | _ => false

def seenUntilCall (v : Verbosity) (es : List Event) : List Sight :=
  ((es.takeWhile fun e => e.call?.isNone).filter fun e => !e.isDetail).filterMap (shown? v)

variable (v : Verbosity)

@[simp] theorem seenUntilCall_nil : seenUntilCall v [] = [] := rfl

@[simp] theorem seenUntilCall_call (c : Call) (es : List Event) :
    seenUntilCall v (.call c :: es) = [] := rfl

theorem seenUntilCall_append {es : List Event} (h : ∀ e ∈ es, e.call? = none)
    (fs : List Event) :
    seenUntilCall v (es ++ fs) =
      (es.filter fun e => !e.isDetail).filterMap (shown? v) ++ seenUntilCall v fs := by
  have silent : ∀ e ∈ es, e.call?.isNone = true := fun e he => by rw [h e he]; rfl
  rw [seenUntilCall, List.takeWhile_append_of_pos silent, List.filter_append,
    List.filterMap_append, seenUntilCall]

theorem seenUntilCall_map_line_append (ls : List Line) (es : List Event) :
    seenUntilCall v (ls.map .line ++ es) =
      (ls.filter (Line.isKept v.quiet)).map Line.sight ++ seenUntilCall v es := by
  have silent : ∀ e ∈ ls.map Event.line, e.call? = none := by
    simp [call?]
  rw [seenUntilCall_append v silent, List.filter_map, List.filterMap_map, List.filterMap_filter,
    ← List.filterMap_eq_map, List.filterMap_filter]
  congr 1
  refine List.filterMap_congr ?_
  intro l _
  cases l with
  | progress p =>
      cases h : v.quiet <;>
        simp [isDetail, Line.isDetail, Line.isKept, shown?, Verbosity.write?, Verbosity.shows,
          Line.kind, Line.sight, h]
  | problem p => rfl
  | detail d => rfl

end Event

namespace Job

def announcement (job : Job) : List Line :=
  if job.options.shouldRun then
    job.notices .run ++ (job.call? .run).toList.map fun c =>
      .progress (.running c.command c.args)
  else []

def lastCalls (job : Job) : List Call :=
  if job.options.shouldRun then (job.call? .run).toList else []

section Told

variable {runner : Runner} {job : Job} {s : RunState} {as : List Act} {o : Except Failure Int}

theorem Rounds.eq_nil_of_done (h : Rounds runner job .done s as o) : as = [] ∧ o = .ok 0 := by
  cases h with
  | done => exact ⟨rfl, rfl⟩
  | threw call _ | failed call _ _ _ | passed call _ _ _ => cases call

theorem Rounds.eq_round_of_run (h : Rounds runner job .run s as o) :
    ∃ x ls, as = job.round runner .run s x ls ∧ job.call? .run = some x.call ∧ o = x.status := by
  cases h with
  | threw call status => exact ⟨_, _, rfl, call, status.symm⟩
  | emulated call status => exact ⟨_, _, rfl, call, status.symm⟩
  | failed _ _ other _ | passed _ _ other _ => exact absurd rfl other

theorem exists_written_round (runner : Runner) (job : Job) (st : Stage) (s t : RunState)
    (x : Exchange) (ls : List Line) :
    ∃ later, written runner t (job.round runner st s x ls) =
      (job.heralds st x.call).map .line ++ .call x.call :: later := by
  rw [round_eq, written_append, written_map_line]
  exact ⟨_, rfl⟩

theorem Rounds.last (h : Rounds runner job (Stage.next job.options .buildImage) s as o)
    (t : RunState) :
    (∀ v, Event.seenUntilCall v (written runner t as) =
      (job.announcement.filter (Line.isKept v.quiet)).map Line.sight) ∧
      (exchanges as).map Exchange.call = job.lastCalls ∧ o = lastStatus (exchanges as) := by
  rw [announcement, lastCalls]
  rw [Stage.next] at h
  by_cases runs : job.options.shouldRun = true
  · rw [if_pos runs] at h
    rw [if_pos runs, if_pos runs]
    obtain ⟨x, ls, rfl, call, rfl⟩ := h.eq_round_of_run
    obtain ⟨later, course⟩ := exists_written_round runner job .run s t x ls
    rw [round, exchanges_roundActs, call]
    refine ⟨fun v => ?_, rfl, rfl⟩
    rw [← round, course, Event.seenUntilCall_map_line_append, Event.seenUntilCall_call,
      List.append_nil]
    rfl
  · rw [if_neg runs] at h
    rw [if_neg runs, if_neg runs]
    obtain ⟨rfl, rfl⟩ := h.eq_nil_of_done
    exact ⟨fun v => rfl, rfl, rfl⟩

end Told

section Resolved

variable {job : Job} {o : BuildOptions} {dependencyDir projectDir : String} {settings : Settings}
  {rootName : Option String} (h : isAbsolute job.cwd.toList = true)
  (laidOut : job.layout =
    Layout.resolve job.cwd o dependencyDir projectDir settings rootName)

include h laidOut

end Resolved

end Job

end BootImage
