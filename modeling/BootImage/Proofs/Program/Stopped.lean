import BootImage.Proofs.Build.Escapes
import BootImage.Proofs.Program.Ambient
import BootImage.Proofs.Program.Courses
import BootImage.Proofs.Report.Openings
import BootImage.Proofs.Settings.Load

/-!
# What stops a run

A run that is for a build is stopped if its settings cannot be loaded, if a call cannot be made, or
if the answer of the build tool leads to no dependency. `Stops` says which failure stops a run and
which acts come before it; it goes by the files and by what the runner answers. Then the run only
adds lines to its report, of which the last tells the failure, and its status is 1. What a user is
expected to meet is told as it is; everything else is told as an internal error, and nothing but
these failures is. A build that is not part of a run hands on the failure to make a call.
-/

namespace BootImage

namespace Invocation

def asked (inv : Invocation) (o : BuildOptions) (settings : Settings) (answer : CallResult) :
    List Act :=
  [.line (.detail (.options o)),
    .call (metadataCall settings.cargoPath.written (some inv.projectDir)) (.ok answer)]

/-- A run from `s` that takes the course `as` cannot go on after the acts `before`, because of a
failure. -/
inductive Stops (runner : Runner) (inv : Invocation) (s : RunState) (as : List Act) :
    List Act → Failure → Prop
  /-- the settings file is there and cannot be read -/
  | unreadable {o : BuildOptions} {e : FileError} (request : Request.parse inv.args = .build o)
      (there : s.tree.exists? (Settings.pathIn inv.projectDir) = true)
      (read : s.tree.read (Settings.pathIn inv.projectDir) = .error e) :
      Stops runner inv s as [] (.file e)
  /-- the settings file holds no settings -/
  | misset {o : BuildOptions} {bytes : List UInt8} {e : SettingsError}
      (request : Request.parse inv.args = .build o)
      (there : s.tree.exists? (Settings.pathIn inv.projectDir) = true)
      (read : s.tree.read (Settings.pathIn inv.projectDir) = .ok bytes)
      (parsed : SettingsFile.parse inv.complain (Settings.pathIn inv.projectDir)
        (Text.decode bytes) = .error e) :
      Stops runner inv s as [] (.settings e)
  /-- a call cannot be made -/
  | threw {before : List Act} {c : Call} {f : Failure}
      (made : before ++ [.call c (.error f)] <+: as) :
      Stops runner inv s as (before ++ [.call c (.error f)]) f
  /-- the answer of the build tool leads to no dependency -/
  | unfound {o : BuildOptions} {settings : Settings} {answer : CallResult} {e : MetadataError}
      (request : Request.parse inv.args = .build o) (loaded : inv.settings s.tree = .ok settings)
      (answered : inv.answer runner s o settings = .ok answer)
      (search : searchOutcome inv.complain settings.cargoPath.written
        settings.bootloaderDependency answer = .ok (.error e)) :
      Stops runner inv s as (inv.asked o settings answer) (.metadata e)
  /-- the edge to the dependency leads to a package that is not listed -/
  | dangling {o : BuildOptions} {settings : Settings} {answer : CallResult}
      {g : DependencyGraph} {id : WideText} (request : Request.parse inv.args = .build o)
      (loaded : inv.settings s.tree = .ok settings)
      (answered : inv.answer runner s o settings = .ok answer) (prints : answer.Prints g)
      (leads : g.LeadsTo settings.bootloaderDependency id)
      (unlisted : ∀ p ∈ g.packages, p.id ≠ id) :
      Stops runner inv s as (inv.asked o settings answer) (.unlistedPackage id)

variable {runner : Runner} {inv : Invocation} {tree : FileTree} {s : RunState} {as : List Act}
  {status : Int} {before : List Act} {f : Failure}

theorem searched_eq {o : BuildOptions} {settings : Settings} {answer : CallResult}
    (answered : inv.answer runner s o settings = .ok answer) :
    ∃ ds : List Detail, inv.searched runner s o settings =
      inv.asked o settings answer ++ (ds.map .detail).map .line :=
  ⟨_, by rw [searched, answered]; rfl⟩

theorem line_failure_not_mem_searched (runner : Runner) (inv : Invocation) (s : RunState)
    (o : BuildOptions) (settings : Settings) (f : Failure) :
    .line (.problem (.failure f)) ∉ inv.searched runner s o settings := by
  cases answered : inv.answer runner s o settings with
  | error f' =>
      rw [searched, answered]
      simp [searchActs]
  | ok answer =>
      obtain ⟨ds, searched⟩ := searched_eq answered
      simp [searched, asked]

theorem answers_searched {o : BuildOptions} {settings : Settings} {answer : CallResult}
    (h : inv.answer runner s o settings = .ok answer) :
    Answers (inv.searched runner s o settings) := by
  intro x hx
  rw [exchanges_searched, List.mem_singleton] at hx
  subst hx
  exact ⟨answer, h⟩

theorem answer_of_found {o : BuildOptions} {settings : Settings}
    {result : Except MetadataError FoundDependency}
    (h : inv.found runner s o settings = .ok result) :
    ∃ answer, inv.answer runner s o settings = .ok answer := by
  rw [found] at h
  cases ha : inv.answer runner s o settings with
  | error f =>
      rw [ha] at h
      cases h
  | ok answer => exact ⟨answer, rfl⟩

/-- A call that cannot be made is the last act of a run but for telling the failure. -/
theorem Unfolds.escapes (h : inv.Unfolds runner s as status) :
    ∃ done o, as = done ++ closing o ∧ status = exitStatus o ∧ Escapes done o := by
  have calm {as : List Act} {code : Int} (h : Answers as) :
      ∃ done o, as = done ++ closing o ∧ code = exitStatus o ∧ Escapes done o :=
    ⟨as, .ok code, by simp [closing], rfl, .never h⟩
  cases h with
  | help _ => exact calm (by simp [Answers])
  | refused _ => exact calm (by simp [Answers])
  | unset _ _ => exact calm (by simp [Answers])
  | @stopped o settings f _ _ found =>
      cases ha : inv.answer runner s o settings with
      | error f' =>
          rw [Invocation.found, ha] at found
          cases found
          refine ⟨inv.searched runner s o settings, .error f, rfl, rfl, ?_⟩
          have first : Answers [.line (.detail (.options o))] := by simp [Answers]
          rw [searched, ha]
          exact .last first
      | ok answer => exact calm ((answers_searched ha).append (by simp [Answers]))
  | unfound _ _ found =>
      obtain ⟨answer, ha⟩ := answer_of_found found
      exact calm ((answers_searched ha).append (by simp [Answers]))
  | @built o settings _ job as outcome _ _ found _ builds =>
      obtain ⟨answer, ha⟩ := answer_of_found found
      have first : Answers (inv.searched runner s o settings ++
          [.line (.detail (.binary job.layout.expectedBinaryPath))]) :=
        (answers_searched ha).append (by simp [Answers])
      exact ⟨_, outcome, by simp, rfl, builds.escapes.prepend first⟩

/-- A build without settings does nothing but tell why. -/
theorem Unfolds.eq_of_unset (h : inv.Unfolds runner s as status) {o : BuildOptions}
    {e : Settings.LoadError} (request : Request.parse inv.args = .build o)
    (loaded : inv.settings s.tree = .error e) :
    status = 1 ∧ as = [.line (.problem (.failure (.ofLoadError e)))] := by
  cases h with
  | unset _ loaded' =>
      cases loaded.symm.trans loaded'
      exact ⟨rfl, rfl⟩
  | help request' => cases request.symm.trans request'
  | refused request' => cases request.symm.trans request'
  | stopped _ loaded' _ => cases loaded.symm.trans loaded'
  | unfound _ loaded' _ => cases loaded.symm.trans loaded'
  | built _ loaded' _ _ _ => cases loaded.symm.trans loaded'

/-- A build that got an answer which leads to no dependency only tells lines after it. -/
theorem Unfolds.eq_of_answer (h : inv.Unfolds runner s as status) {o : BuildOptions}
    {settings : Settings} {answer : CallResult} (request : Request.parse inv.args = .build o)
    (loaded : inv.settings s.tree = .ok settings)
    (answered : inv.answer runner s o settings = .ok answer)
    (search : inv.found runner s o settings = .error f ∨
      ∃ e, f = .metadata e ∧ inv.found runner s o settings = .ok (.error e)) :
    status = 1 ∧
      ∃ ls, as = inv.asked o settings answer ++ (ls ++ [Line.problem (.failure f)]).map .line := by
  obtain ⟨ds, searched⟩ := searched_eq answered
  cases h with
  | help request' => cases request.symm.trans request'
  | refused request' => cases request.symm.trans request'
  | unset _ loaded' => cases loaded.symm.trans loaded'
  | stopped request' loaded' found =>
      cases request.symm.trans request'
      cases loaded.symm.trans loaded'
      rcases search with search | ⟨e, -, search⟩
      · cases found.symm.trans search
        exact ⟨rfl, ds.map .detail, by simp [searched]⟩
      · cases found.symm.trans search
  | unfound request' loaded' found =>
      cases request.symm.trans request'
      cases loaded.symm.trans loaded'
      rcases search with search | ⟨e, rfl, search⟩
      · cases found.symm.trans search
      · cases found.symm.trans search
        exact ⟨rfl, ds.map .detail, by simp [searched]⟩
  | built request' loaded' found _ _ =>
      cases request.symm.trans request'
      cases loaded.symm.trans loaded'
      rcases search with search | ⟨e, -, search⟩
      · cases found.symm.trans search
      · cases found.symm.trans search

/-- A failure that stops a run ends it: what follows are lines, and the last of them tells it. -/
theorem Unfolds.halts (h : inv.Unfolds runner s as status)
    (stops : inv.Stops runner s as before f) :
    status = 1 ∧ ∃ ls, as = before ++ (ls ++ [Line.problem (.failure f)]).map .line := by
  cases stops with
  | unreadable request there read =>
      obtain ⟨rfl, rfl⟩ :=
        h.eq_of_unset request (Settings.load_eq_error_file_iff.2 ⟨there, read⟩)
      exact ⟨rfl, [], rfl⟩
  | misset request there read parsed =>
      obtain ⟨rfl, rfl⟩ :=
        h.eq_of_unset request (Settings.load_eq_error_settings_iff.2 ⟨there, _, read, parsed⟩)
      exact ⟨rfl, [], rfl⟩
  | threw made =>
      obtain ⟨done, o, rfl, rfl, escapes⟩ := h.escapes
      -- the call is no line, so it stands before what is told in the end
      have hd := made
      cases o with
      | ok code =>
          rw [closing, List.append_nil] at hd
          cases (escapes.eq_of_prefix hd).1
      | error f' =>
          rcases List.prefix_concat_iff.1 hd with heq | hd
          · cases (List.append_inj' heq rfl).2
          · obtain ⟨ho, rfl⟩ := escapes.eq_of_prefix hd
            cases ho
            exact ⟨rfl, [], rfl⟩
  | unfound request loaded answered search =>
      refine h.eq_of_answer request loaded answered (.inr ⟨_, rfl, ?_⟩)
      rw [found, answered]
      exact search
  | dangling request loaded answered prints leads unlisted =>
      refine h.eq_of_answer request loaded answered (.inl ?_)
      rw [found, answered]
      exact searchOutcome_eq_error_iff.2 ⟨_, _, rfl, prints, leads, unlisted⟩

/-- What a run tells as an internal error did stop it. -/
theorem Unfolds.stops (h : inv.Unfolds runner s as status)
    (told : .line (.problem (.failure f)) ∈ as) (internal : f.kind.isExpected = false) :
    ∃ before, inv.Stops runner s as before f := by
  have details (o : BuildOptions) (settings : Settings) :=
    line_failure_not_mem_searched runner inv s o settings f
  cases h with
  | help _ => simp at told
  | refused _ => simp at told
  | @unset o e request loaded =>
      obtain rfl : f = .ofLoadError e := by simpa using told
      cases e with
      | settings e => cases internal
      | file e =>
          obtain ⟨there, read⟩ := Settings.load_eq_error_file_iff.1 loaded
          exact ⟨[], .unreadable request there read⟩
  | @stopped o settings f' request loaded found =>
      obtain rfl : f = f' := by simpa [details] using told
      cases answered : inv.answer runner s o settings with
      | error f' =>
          rw [Invocation.found, answered] at found
          cases found
          have made : [.line (.detail (.options o))] ++
              [.call (metadataCall settings.cargoPath.written (some inv.projectDir)) (.error f)] <+:
                inv.searched runner s o settings ++ [.line (.problem (.failure f))] := by
            rw [searched, answered]
            exact List.prefix_append _ _
          exact ⟨_, .threw made⟩
      | ok answer =>
          rw [Invocation.found, answered] at found
          obtain ⟨g, id, rfl, prints, leads, unlisted⟩ := searchOutcome_eq_error_iff.1 found
          exact ⟨_, .dangling request loaded answered prints leads unlisted⟩
  | unfound _ _ _ =>
      obtain rfl : f = .metadata _ := by simpa [details] using told
      cases internal
  | @built o settings _ job as outcome _ _ _ _ builds =>
      have last : .line (.problem (.failure f)) ∈ closing outcome := by
        simpa [details, builds.failure_not_mem f] using told
      cases outcome with
      | ok code => simp [closing] at last
      | error f' =>
          obtain rfl : f = f' := by simpa [closing] using last
          obtain ⟨before, c, rfl⟩ := builds.escapes.exists_last
          refine ⟨inv.searched runner s o settings ++
            .line (.detail (.binary job.layout.expectedBinaryPath)) :: before ++
              [.call c (.error f)], .threw ?_⟩
          simp

theorem getLast?_sights (v : Verbosity) (before : List Act) (ls : List Line) (p : Problem) :
    ((after runner s (before ++ (ls ++ [Line.problem p]).map .line)).trace.filterMap
      (Event.shown? v)).getLast? = some (.err (p.text ++ "\n")) := by
  have shown : (Event.line (.problem p)).shown? v = some (.err (p.text ++ "\n")) := rfl
  rw [after_append, after_map_line]
  simp [List.filterMap_append, shown]

theorem line_failure (f : Failure) : f.line ++ "\n" =
    if f.kind.isExpected then f.message.written ++ "\n"
      else "Internal error: " ++ f.message.written ++ "\n" := by
  rw [Failure.line, FailureKind.line]
  split <;> rfl

/-- What looks like an internal error tells of a failure that no user is expected to meet. -/
theorem exists_failure_of_opensWith_internal {v : Verbosity} {text : String}
    (mem : .err text ∈ (after runner { tree } as).trace.filterMap (Event.shown? v))
    (opens : OpensWith "Internal error: " text) :
    ∃ f : Failure, f.kind.isExpected = false ∧ .line (.problem (.failure f)) ∈ as ∧
      text = "Internal error: " ++ f.message.written ++ "\n" := by
  obtain ⟨e, he, shown⟩ := List.mem_filterMap.1 mem
  cases e with
  | line l =>
      obtain ⟨written, hw, heq⟩ := Option.map_eq_some_iff.1 shown
      cases heq
      rw [Verbosity.write?] at hw
      split at hw
      · cases hw
        obtain ⟨f, internal, rfl⟩ := l.opensWith_internal_iff.1 opens
        have told : .line (.problem (.failure f)) ∈ as :=
          (mem_of_line_mem_trace_after runner { tree } as rfl he).resolve_left (by simp)
        exact ⟨f, internal, told, (line_failure f).trans (if_neg (by simp [internal]))⟩
      · cases hw
  | _ => cases shown

/-- Whatever stops a run is the last that is told of it: nothing but lines comes after the acts that
led to the failure, the files stay as they are then, and the status is 1. What users are expected to
meet is told as it is, all else as an internal error, and nothing else is seen of a run that looks
like one. A build that is no part of a run ends with the call that cannot be made and hands on its
failure as it is, and has no other failures. -/
theorem failures_told_last (runner : Runner) :
    (∀ (inv : Invocation) (tree : FileTree),
      let seen := inv.observe runner tree
      ∃ as, inv.Runs runner { tree } as seen.status ∧ inv.Unfolds runner { tree } as seen.status ∧
        (∀ before f, inv.Stops runner { tree } as before f →
          seen.status = 1 ∧
          (inv.trace runner tree).filterMap Event.call? = (exchanges before).map Exchange.call ∧
          seen.tree = (after runner { tree } before).tree ∧
          seen.sights.getLast? = some (.err
            (if f.kind.isExpected then f.message.written ++ "\n"
              else "Internal error: " ++ f.message.written ++ "\n"))) ∧
        ∀ text, .err text ∈ seen.sights → OpensWith "Internal error: " text →
          ∃ before f, inv.Stops runner { tree } as before f ∧ f.kind.isExpected = false ∧
            text = "Internal error: " ++ f.message.written ++ "\n") ∧
    ∀ (job : Job) (s : RunState), ∃ as o,
      Takes runner (job.run runner) s as o ∧ job.Builds runner s as o ∧
        (∀ before c f, before ++ [.call c (.error f)] <+: as →
          o = .error f ∧ as = before ++ [.call c (.error f)]) ∧
        ∀ f, o = .error f → ∃ before c, as = before ++ [.call c (.error f)] := by
  refine ⟨?_, ?_⟩
  · intro inv tree seen
    obtain ⟨as, status, runs, unfolds⟩ := run_unfolds runner inv { tree }
    have hstate : (inv.run runner).run { tree } = (status, after runner { tree } as) := runs.ends
    obtain rfl : seen.status = status := congrArg Prod.fst hstate
    have htrace : inv.trace runner tree = (after runner { tree } as).trace :=
      congrArg (fun r => r.2.trace) hstate
    have hsights : seen.sights =
        (after runner { tree } as).trace.filterMap (Event.shown? (inv.verbosity tree)) :=
      congrArg (fun r => r.2.trace.filterMap (Event.shown? (inv.verbosity tree))) hstate
    have htree : seen.tree = (after runner { tree } as).tree := congrArg (fun r => r.2.tree) hstate
    refine ⟨as, runs, unfolds, ?_, ?_⟩
    · intro before f stops
      obtain ⟨one, ls, rfl⟩ := unfolds.halts stops
      refine ⟨one, ?_, ?_, ?_⟩
      · have calls := calls_after runner { tree }
          (before ++ (ls ++ [Line.problem (.failure f)]).map .line)
        rw [exchanges_append, exchanges_map_line, List.append_nil] at calls
        rw [htrace]
        exact calls
      · rw [htree, after_append, after_map_line]
      · rw [hsights, getLast?_sights, ← line_failure]
        rfl
    · intro text mem opens
      rw [hsights] at mem
      obtain ⟨f, internal, told, written⟩ := exists_failure_of_opensWith_internal mem opens
      obtain ⟨before, stops⟩ := unfolds.stops told internal
      exact ⟨before, f, stops, internal, written⟩
  · intro job s
    obtain ⟨as, o, takes, builds⟩ := job.run_builds runner s
    refine ⟨as, o, takes, builds, fun before c f hp => builds.escapes.eq_of_prefix hp, ?_⟩
    rintro f rfl
    exact builds.escapes.exists_last

end Invocation

end BootImage
