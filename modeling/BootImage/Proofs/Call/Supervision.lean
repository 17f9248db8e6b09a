import BootImage.Call.Supervised
import BootImage.Proofs.Build.LastCall
import BootImage.Proofs.Report.Shown
import BootImage.Proofs.Text.Utf8

/-!
# A call is settled once

Whatever a supervisor hears, in whatever order and however often, its call is settled by the first
failure or end: that gives the only result and tells the only line of an end, and what is collected
up to there is the output. Hence a result that shows a failure to start or a signal shows just one
of them and has the code 1, so that a build ends with it.
-/

namespace BootImage

/-- The result of a call that an event settles, when `output` was collected before. -/
def ChildEvent.result? (output : List UInt8) : ChildEvent → Option CallResult
  | .output _ => none
  | .failed e => some { exitCode := 1, spawnError := some e, stdout := Text.decode output }
  | .closed _ (some signal) =>
    some { exitCode := 1, signal := some signal, stdout := Text.decode output }
  | .closed code none => some { exitCode := code.getD 1, stdout := Text.decode output }

theorem ChildEvent.exists_result? {e : ChildEvent} (h : e.isEnd = true) (output : List UInt8) :
    ∃ r, e.result? output = some r := by
  cases e with
  | output bytes => cases h
  | failed e => exact ⟨_, rfl⟩
  | closed code signal => cases signal <;> exact ⟨_, rfl⟩

theorem ChildEvent.stdout_of_result? {e : ChildEvent} {output : List UInt8} {r : CallResult}
    (h : e.result? output = some r) : r.stdout = Text.decode output := by
  cases e with
  | output bytes => cases h
  | failed e =>
      cases h
      rfl
  | closed code signal => cases signal <;> cases h <;> rfl

/-- What is heard of a program is output, up to the first failure or end if there is any. -/
theorem ChildEvent.first_end (heard : List ChildEvent) :
    (∃ pieces : List (List UInt8), heard = pieces.map .output) ∨
    ∃ (pieces : List (List UInt8)) (e : ChildEvent) (later : List ChildEvent),
      heard = pieces.map .output ++ e :: later ∧ e.isEnd = true := by
  induction heard with
  | nil => exact .inl ⟨[], rfl⟩
  | cons e heard ih =>
      cases e with
      | output bytes =>
          rcases ih with ⟨pieces, rfl⟩ | ⟨pieces, e, later, rfl, he⟩
          · exact .inl ⟨bytes :: pieces, rfl⟩
          · exact .inr ⟨bytes :: pieces, e, later, rfl, he⟩
      | failed e => exact .inr ⟨[], _, heard, rfl, rfl⟩
      | closed code signal => exact .inr ⟨[], _, heard, rfl, rfl⟩

/-- A result that is due to one thing at most: a program that was not started or that was ended by
a signal has the code 1, and not both happened. -/
structure CallResult.Definite (r : CallResult) : Prop where
  code (h : r.spawnError.isSome ∨ r.signal.isSome) : r.exitCode = 1
  either : r.spawnError = none ∨ r.signal = none

theorem ChildEvent.definite {e : ChildEvent} {output : List UInt8} {r : CallResult}
    (h : e.result? output = some r) : r.Definite := by
  cases e with
  | output bytes => cases h
  | failed e =>
      cases h
      exact ⟨fun _ => rfl, .inr rfl⟩
  | closed code signal =>
      cases signal with
      | none =>
          cases h
          exact ⟨by simp, .inl rfl⟩
      | some g =>
          cases h
          exact ⟨fun _ => rfl, .inl rfl⟩

theorem CallResult.Definite.callProblems_eq {r : CallResult} (h : r.Definite) (command : String)
    (failed : r.spawnError.isSome ∨ r.signal.isSome) :
    (∃ e, r.spawnError = some e ∧ callProblems command r = spawnProblems command e) ∨
      ∃ g, r.signal = some g ∧ callProblems command r = [.signalled g] := by
  rcases h.either with none | none
  · obtain ⟨g, hg⟩ := Option.isSome_iff_exists.1 (failed.resolve_left (by simp [none]))
    exact .inr ⟨g, hg, by simp [callProblems, none, hg]⟩
  · obtain ⟨e, he⟩ := Option.isSome_iff_exists.1 (failed.resolve_right (by simp [none]))
    exact .inl ⟨e, he, by simp [callProblems, none, he]⟩

namespace Supervision

variable {c : Call} {s : Supervision}

theorem hear_of_settled (h : s.settled = true) (e : ChildEvent) :
    (s.hear c e).settled = true ∧ (s.hear c e).results = s.results ∧
      (s.hear c e).told = s.told := by
  cases e with
  | output bytes => exact ⟨h, rfl, rfl⟩
  | failed e => simp [hear, finish, h]
  | closed code signal => simp [hear, finish, h]

theorem hearAll_of_settled (h : s.settled = true) (heard : List ChildEvent) :
    (s.hearAll c heard).results = s.results ∧ (s.hearAll c heard).told = s.told := by
  induction heard generalizing s with
  | nil => exact ⟨rfl, rfl⟩
  | cons e heard ih =>
      obtain ⟨settled, results, told⟩ := hear_of_settled (c := c) h e
      obtain ⟨results', told'⟩ := ih settled
      exact ⟨results'.trans results, told'.trans told⟩

theorem hearAll_outputs (pieces : List (List UInt8)) :
    s.hearAll c (pieces.map .output) = { s with pieces := s.pieces ++ pieces } := by
  induction pieces generalizing s with
  | nil => simp
  | cons bytes pieces ih => simp [hear, ih]

theorem hearAll_append (heard later : List ChildEvent) :
    s.hearAll c (heard ++ later) = (s.hearAll c heard).hearAll c later := List.foldl_append

theorem hear_of_result?_eq_some {e : ChildEvent} {r : CallResult} (h : s.settled = false)
    (hr : e.result? s.pieces.flatten = some r) :
    s.hear c e =
      ⟨s.pieces, true, s.results ++ [r], s.told ++ [.exited c.command r.exitCode]⟩ := by
  cases e with
  | output bytes => cases hr
  | failed e =>
      cases hr
      simp [hear, finish, h]
  | closed code signal =>
      cases signal <;> cases hr <;> simp [hear, finish, h, CallResult.ofEnd]

/-- A call is settled by the first end, and by no other. -/
theorem hearAll_eq (pieces : List (List UInt8)) {e : ChildEvent} {r : CallResult}
    (h : e.result? pieces.flatten = some r) (later : List ChildEvent) :
    (hearAll c {} (pieces.map .output ++ e :: later)).results = [r] ∧
      (hearAll c {} (pieces.map .output ++ e :: later)).told = [.exited c.command r.exitCode] := by
  rw [hearAll_append, hearAll_outputs, hearAll_cons, hear_of_result?_eq_some rfl (by simpa using h)]
  exact hearAll_of_settled rfl later

end Supervision

namespace Runner

variable {launch : List Event → FileTree → Call → Except Failure Launch} {past : List Event}
  {tree : FileTree} {c : Call} {l : Launch}

theorem supervising_of_error {f : Failure} (launched : launch past tree c = .error f) :
    (supervising launch past tree c).outcome = .error f ∧
      (supervising launch past tree c).tree = tree := by
  rw [supervising]
  simp only [launched, and_self]

theorem tree_supervising (launched : launch past tree c = .ok l) :
    (supervising launch past tree c).tree = l.tree := by
  rw [supervising]
  simp only [launched]
  split <;> rfl

theorem supervising_eq (launched : launch past tree c = .ok l) {pieces : List (List UInt8)}
    {e : ChildEvent} {later : List ChildEvent} {r : CallResult}
    (heard : l.heard = pieces.map .output ++ e :: later)
    (result : e.result? pieces.flatten = some r) :
    (supervising launch past tree c).outcome = .ok r ∧
      (supervising launch past tree c).events =
        .line (.detail (.spawning c)) :: l.meanwhile ++
          [.line (.detail (.exited c.command r.exitCode))] := by
  obtain ⟨results, told⟩ := Supervision.hearAll_eq (c := c) pieces result later
  rw [← heard] at results told
  have answer : (Supervision.hearAll c {} l.heard).answer? c l.meanwhile =
      some (r, .line (.detail (.spawning c)) :: l.meanwhile ++
        [.line (.detail (.exited c.command r.exitCode))]) := by
    rw [Supervision.answer?, results, told]
    rfl
  rw [supervising]
  simp only [launched]
  split
  · next result' events answered =>
      cases answer.symm.trans answered
      exact ⟨rfl, rfl⟩
  · next answered => cases answer.symm.trans answered

theorem supervising_of_outputs (launched : launch past tree c = .ok l)
    {pieces : List (List UInt8)} (heard : l.heard = pieces.map .output) :
    ∃ f, (supervising launch past tree c).outcome = .error f := by
  have answer : (Supervision.hearAll c {} l.heard).answer? c l.meanwhile = none := by
    rw [heard, Supervision.hearAll_outputs]
    rfl
  rw [supervising]
  simp only [launched]
  split
  · next result events answered => cases answer.symm.trans answered
  · exact ⟨_, rfl⟩

/-- The result of a supervised call comes from an end that is heard. -/
theorem definite_of_supervising {r : CallResult}
    (h : (supervising launch past tree c).outcome = .ok r) : r.Definite := by
  cases launched : launch past tree c with
  | error f => cases (supervising_of_error launched).1.symm.trans h
  | ok l =>
      rcases ChildEvent.first_end l.heard with ⟨pieces, heard⟩ | ⟨pieces, e, later, heard, ends⟩
      · obtain ⟨f, hf⟩ := supervising_of_outputs launched heard
        cases hf.symm.trans h
      · obtain ⟨r', result⟩ := ChildEvent.exists_result? ends pieces.flatten
        cases (supervising_eq launched heard result).1.symm.trans h
        exact ChildEvent.definite result

theorem filterMap_shown?_meanwhile (l : Launch) (v : Verbosity) :
    l.meanwhile.filterMap (Event.shown? v) = [] := by
  rw [List.filterMap_eq_nil_iff]
  intro e he
  have foreign := l.isForeign e he
  cases e with
  | print _ | line _ | call _ => cases foreign
  | _ => rfl

theorem filterMap_shown?_told (l : Launch) (c : Call) (exitCode : Int) (v : Verbosity) :
    (Event.line (.detail (.spawning c)) :: l.meanwhile ++
        [Event.line (.detail (.exited c.command exitCode))]).filterMap (Event.shown? v) =
      if .exec ∈ v.components then
        [.err ("[boot-builder:exec] " ++ (Detail.spawning c).text ++ "\n"),
          .err ("[boot-builder:exec] " ++ (Detail.exited c.command exitCode).text ++ "\n")]
      else [] := by
  have shown (d : Detail) := Event.shown?_detail v d
  by_cases exec : Component.exec ∈ v.components
  · have spawned := (shown (.spawning c)).trans (if_pos exec)
    have exited := (shown (.exited c.command exitCode)).trans (if_pos exec)
    rw [if_pos exec, List.filterMap_append, List.filterMap_cons_some spawned,
      filterMap_shown?_meanwhile, List.filterMap_cons_some exited]
    rfl
  · have spawned := (shown (.spawning c)).trans (if_neg exec)
    have exited := (shown (.exited c.command exitCode)).trans (if_neg exec)
    rw [if_neg exec, List.filterMap_append, List.filterMap_cons_none spawned,
      filterMap_shown?_meanwhile, List.filterMap_cons_none exited]
    rfl

/-- A supervised call of whose program an end is heard has one result: that of the first failure or
end, with the text of the output before it. It is told in one line when the call starts and in one
when it ends. What is heard later does not matter, nor how the output is cut. A result that shows a
failure to start or a signal has the code 1 and shows one of them only; in a build the call is the
last, that one is told, and the status is 1. -/
theorem supervising_settles_once
    (launch : List Event → FileTree → Call → Except Failure Launch) :
    (∀ past tree c l, launch past tree c = .ok l → (∃ e ∈ l.heard, e.isEnd = true) →
      ∃ (pieces : List (List UInt8)) (e : ChildEvent) (later : List ChildEvent) (r : CallResult),
        l.heard = pieces.map .output ++ e :: later ∧ e.result? pieces.flatten = some r ∧
        (Supervision.hearAll c {} l.heard).results = [r] ∧
        (supervising launch past tree c).outcome = .ok r ∧
        Text.Decodes pieces.flatten r.stdout.toList ∧
        ∀ v, (supervising launch past tree c).events.filterMap (Event.shown? v) =
          if .exec ∈ v.components then
            [.err ("[boot-builder:exec] " ++ (Detail.spawning c).text ++ "\n"),
              .err ("[boot-builder:exec] " ++ (Detail.exited c.command r.exitCode).text ++ "\n")]
          else []) ∧
    (∀ c (pieces pieces' : List (List UInt8)) (e : ChildEvent) (later later' : List ChildEvent),
      e.isEnd = true → pieces.flatten = pieces'.flatten →
      (Supervision.hearAll c {} (pieces.map .output ++ e :: later)).results =
        (Supervision.hearAll c {} (pieces'.map .output ++ e :: later')).results) ∧
    (∀ past tree c r, (supervising launch past tree c).outcome = .ok r → r.Definite) ∧
    ∀ (job : Job) (s : RunState), ∃ as o,
      Takes (supervising launch) (job.run (supervising launch)) s as o ∧
      ∀ before c r rest, as = before ++ .call c (.ok r) :: rest →
        r.Definite ∧
        (r.spawnError.isSome ∨ r.signal.isSome →
          o = .ok 1 ∧ ∃ (ps : List Problem) (d : Detail),
            rest = (ps.map Line.problem ++ [Line.detail d]).map .line ∧
            ((∃ e, r.spawnError = some e ∧ ps = spawnProblems c.command e) ∨
              ∃ g, r.signal = some g ∧ ps = [.signalled g])) := by
  refine ⟨?_, ?_, fun _ _ _ _ => definite_of_supervising, ?_⟩
  · intro past tree c l launched ended
    rcases ChildEvent.first_end l.heard with ⟨pieces, heard⟩ | ⟨pieces, e, later, heard, ends⟩
    · obtain ⟨e, he, ends⟩ := ended
      rw [heard] at he
      obtain ⟨bytes, -, rfl⟩ := List.mem_map.1 he
      cases ends
    · obtain ⟨r, result⟩ := ChildEvent.exists_result? ends pieces.flatten
      obtain ⟨outcome, events⟩ := supervising_eq launched heard result
      refine ⟨pieces, e, later, r, heard, result, ?_, outcome, ?_, fun v => ?_⟩
      · rw [heard]
        exact (Supervision.hearAll_eq pieces result later).1
      · rw [ChildEvent.stdout_of_result? result]
        exact (Text.decode_eq_iff _ _).1 rfl
      · rw [events]
        exact filterMap_shown?_told l c r.exitCode v
  · intro c pieces pieces' e later later' ends same
    obtain ⟨r, result⟩ := ChildEvent.exists_result? ends pieces.flatten
    rw [(Supervision.hearAll_eq pieces result later).1,
      (Supervision.hearAll_eq pieces' (same ▸ result) later').1]
  · intro job s
    obtain ⟨as, o, takes, builds⟩ := job.run_builds (supervising launch) s
    refine ⟨as, o, takes, fun before c r rest cut => ?_⟩
    have course := takes.course
    rw [cut] at course
    have answered : .ok r = (supervising launch _ _ c).outcome := course.answered
    have definite := definite_of_supervising answered.symm
    refine ⟨definite, fun failed => ?_⟩
    have code := definite.code failed
    obtain ⟨rfl, d, rest⟩ := builds.eq_of_nonzero cut (by simp [code])
    exact ⟨by rw [code], _, d, rest, definite.callProblems_eq c.command failed⟩

/-- A character may be cut in two, and what is heard after the end does not count. -/
theorem supervising_settles_once_late_output :
    let heard : List ChildEvent := [.output [0xE2, 0x82], .output [0xAC], .closed (some 3) none,
      .output [0x41], .failed ⟨none, "late"⟩]
    let runner := supervising fun _ tree _ => .ok { heard, tree }
    (runner [] ⟨"/", []⟩ ⟨.capture, "cargo", ["metadata"], none⟩).outcome =
      .ok { exitCode := 3, stdout := "€" } := by
  intro heard runner
  let c : Call := ⟨.capture, "cargo", ["metadata"], none⟩
  obtain ⟨pieces, e, later, r, -, -, results, outcome, -, -⟩ :=
    (supervising_settles_once fun _ tree _ => .ok { heard, tree }).1 [] ⟨"/", []⟩ c _ rfl
      ⟨.closed (some 3) none, by simp [heard], rfl⟩
  have settled : (Supervision.hearAll c {} heard).results = [{ exitCode := 3, stdout := "€" }] := by
    decide
  obtain rfl : r = _ := List.singleton_inj.1 (results.symm.trans settled)
  exact outcome

end Runner

end BootImage
