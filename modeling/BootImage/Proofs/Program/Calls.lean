import BootImage.Call.Scripted
import BootImage.Proofs.Dependency.Document
import BootImage.Proofs.Path.Reduction
import BootImage.Proofs.Program.Ambient
import BootImage.Proofs.Program.Courses
import BootImage.Proofs.Settings.Precedence

/-!
# What a run can call

Whatever a run calls is the metadata call of its settings or belongs to the plan of its job. So what
is to hold of every call is shown for the settings that can be loaded and for the layouts that can
be resolved: no setting is empty, hence no command is, and all paths start from the root, hence so
does every path that a program is given.
-/

namespace BootImage

/-- No text of the settings is empty. -/
structure Settings.Filled (s : Settings) : Prop where
  binaryName : s.binaryName ≠ some ""
  targetTriple : s.targetTriple ≠ ""
  manifestFile : s.manifestFile ≠ ""
  bootloaderDependency : s.bootloaderDependency ≠ ""
  cargoPath : s.cargoPath ≠ ""
  qemuPath : s.qemuPath ≠ ""
  biosPath : s.biosPath ≠ ""

theorem Settings.filled_of_load {complain : String → String} {tree : FileTree}
    {env : Environment} {projectDir : String} {s : Settings}
    (h : load complain tree env projectDir = .ok s) : s.Filled := by
  have field (f : SettingsField) := value?_ne_empty h f
  constructor
  · intro empty
    exact field .binaryName (by rw [value?, empty]; rfl)
  · intro empty
    exact field .targetTriple (by rw [value?, empty])
  · intro empty
    exact field .manifestFile (by rw [value?, empty])
  · intro empty
    exact field .bootloaderDependency (by rw [value?, empty])
  · intro empty
    exact field .cargoPath (by rw [value?, empty])
  · intro empty
    exact field .qemuPath (by rw [value?, empty])
  · intro empty
    exact field .biosPath (by rw [value?, empty])

def Path.Rooted (p : String) : Prop := isAbsolute p.toList = true

/-- The arguments that a run gives to a program. Every path among them starts from the root. -/
inductive ArgsRooted : List String → Prop
  | metadata : ArgsRooted ["metadata"]
  | compile {flags : List String} (given : flags = [] ∨ flags = ["--release"]) :
      ArgsRooted ("build" :: flags)
  | images {manifest binary targetDir outDir : String} (manifestRooted : Path.Rooted manifest)
      (binaryRooted : Path.Rooted binary) (targetRooted : Path.Rooted targetDir)
      (outRooted : Path.Rooted outDir) :
      ArgsRooted ["builder", "--kernel-manifest", manifest, "--kernel-binary", binary,
        "--target-dir", targetDir, "--out-dir", outDir]
  | emulator {bios image : String} {flags : List String} (biosRooted : Path.Rooted bios)
      (imageRooted : Path.Rooted image) (given : flags = [] ∨ flags = ["-s", "-S"]) :
      ArgsRooted ("-bios" :: bios :: image :: flags)

/-- The paths of a layout that programs are given start from the root. -/
structure Layout.Rooted (l : Layout) : Prop where
  projectDir : Path.Rooted l.projectDir
  manifestPath : Path.Rooted l.manifestPath
  targetDir : Path.Rooted l.targetDir
  outDir : Path.Rooted l.outDir
  expectedBinaryPath : Path.Rooted l.expectedBinaryPath

theorem Layout.rooted_resolve {cwd projectDir : String}
    (h : Path.Rooted cwd ∨ Path.Rooted projectDir) (o : BuildOptions) (dependencyDir : String)
    (settings : Settings) (rootName : Option String) :
    (resolve cwd o dependencyDir projectDir settings rootName).Rooted := by
  have root : Path.Rooted (Path.resolve cwd [projectDir]) :=
    Path.isAbsolute_resolve (h.imp_right fun rooted => ⟨_, List.mem_singleton_self _, rooted⟩)
  have target : Path.Rooted (Path.join [Path.resolve cwd [projectDir], "target"]) :=
    Path.isAbsolute_join root _
  exact ⟨root, Path.isAbsolute_join root _, target, Path.isAbsolute_join root _,
    Path.isAbsolute_join target _⟩

namespace Job

variable {job : Job}

theorem argsRooted_compile (o : BuildOptions) : ArgsRooted (compileArgs o) := by
  refine .compile ?_
  split
  · exact .inr rfl
  · exact .inl rfl

theorem argsRooted_emulator (h : job.layout.Rooted) :
    ArgsRooted (emulatorArgs job.options job.biosPath (job.layout.artifact .uefiImage)) := by
  have bios : Path.Rooted job.biosPath :=
    Path.isAbsolute_resolve (.inr ⟨_, List.mem_cons_self, h.projectDir⟩)
  refine .emulator bios (Path.isAbsolute_join h.outDir _) ?_
  split
  · exact .inr rfl
  · exact .inl rfl

theorem exists_call?_of_mem_plan {c : Call} (hc : c ∈ job.plan) : ∃ st, job.call? st = some c := by
  rcases List.mem_append.1 hc with hc | hc
  · rcases List.mem_pair.1 hc with rfl | rfl
    · exact ⟨.compile, rfl⟩
    · exact ⟨.buildImage, rfl⟩
  · split at hc
    · cases List.mem_singleton.1 hc
      exact ⟨.run, rfl⟩
    · cases hc

theorem argsRooted_of_call? (h : job.layout.Rooted) {st : Stage} {c : Call}
    (hc : job.call? st = some c) : ArgsRooted c.args := by
  cases st with
  | ensureOutDir => cases hc
  | compile =>
      cases hc
      exact argsRooted_compile job.options
  | buildImage =>
      cases hc
      exact .images h.manifestPath h.expectedBinaryPath h.targetDir h.outDir
  | run =>
      cases hc
      exact argsRooted_emulator h
  | done => cases hc

theorem command_ne_empty_of_call? (h : job.settings.Filled) {st : Stage} {c : Call}
    (hc : job.call? st = some c) : c.command ≠ "" := by
  cases st with
  | ensureOutDir => cases hc
  | compile | buildImage =>
      cases hc
      exact mt WideText.written_eq_empty_iff.1 h.cargoPath
  | run =>
      cases hc
      exact mt WideText.written_eq_empty_iff.1 h.qemuPath
  | done => cases hc

end Job

namespace Invocation

variable {runner : Runner} {inv : Invocation} {s : RunState} {as : List Act} {status : Int}

def CanCall (inv : Invocation) (settings : Settings) (c : Call) : Prop :=
  c = metadataCall settings.cargoPath.written (some inv.projectDir) ∨
    ∃ o found, c ∈ (inv.job o settings found).plan

/-- A run that calls anything has loaded its settings, and it calls what these let it. -/
theorem Unfolds.canCall (h : inv.Unfolds runner s as status) {x : Exchange}
    (hx : x ∈ exchanges as) :
    ∃ settings, inv.settings s.tree = .ok settings ∧ inv.CanCall settings x.call := by
  cases h with
  | help _ => cases hx
  | refused _ => cases hx
  | unset _ _ => cases hx
  | stopped _ loaded _ | unfound _ loaded _ =>
      rw [exchanges_append, exchanges_searched, List.mem_append, List.mem_singleton] at hx
      cases hx.resolve_right List.not_mem_nil
      exact ⟨_, loaded, .inl rfl⟩
  | built _ loaded _ given builds =>
      rw [exchanges_append, exchanges_searched, exchanges_line_cons, exchanges_append,
        exchanges_closing, List.append_nil, List.mem_append, List.mem_singleton] at hx
      rcases hx with rfl | hx
      · exact ⟨_, loaded, .inl rfl⟩
      · rw [← given] at builds
        exact ⟨_, loaded, .inr ⟨_, _, builds.mem_plan hx⟩⟩

theorem CanCall.command_ne_empty {settings : Settings} {c : Call} (h : inv.CanCall settings c)
    (filled : settings.Filled) : c.command ≠ "" := by
  rcases h with rfl | ⟨o, found, hc⟩
  · exact mt WideText.written_eq_empty_iff.1 filled.cargoPath
  · obtain ⟨st, hc⟩ := Job.exists_call?_of_mem_plan hc
    exact Job.command_ne_empty_of_call? filled hc

theorem CanCall.argsRooted {settings : Settings} {c : Call} (h : inv.CanCall settings c)
    (rooted : Path.Rooted inv.cwd ∨ Path.Rooted inv.projectDir) : ArgsRooted c.args := by
  rcases h with rfl | ⟨o, found, hc⟩
  · exact .metadata
  · obtain ⟨st, hc⟩ := Job.exists_call?_of_mem_plan hc
    exact Job.argsRooted_of_call? (Layout.rooted_resolve rooted ..) hc

/-- No source of settings leaves one empty, so whatever runner a run has and however it ends, no
command that it calls is empty. And since a process is always in a directory that starts from the
root, so does every path that it gives to a program. -/
theorem calls_filled_and_rooted (runner : Runner) (inv : Invocation) (tree : FileTree) :
    (∀ settings, inv.settings tree = .ok settings → settings.Filled) ∧
    ∀ c ∈ (inv.trace runner tree).filterMap Event.call?,
      c.command ≠ "" ∧
      (Path.Rooted inv.cwd ∨ Path.Rooted inv.projectDir → ArgsRooted c.args) := by
  refine ⟨fun _ => Settings.filled_of_load, ?_⟩
  intro c hc
  obtain ⟨as, status, runs, unfolds⟩ := run_unfolds runner inv { tree }
  have calls := calls_after runner { tree } as
  rw [trace, runs.ends] at hc
  rw [RunState.calls, RunState.calls, List.filterMap_nil, List.nil_append] at calls
  rw [calls] at hc
  obtain ⟨x, hx, rfl⟩ := List.mem_map.1 hc
  obtain ⟨settings, loaded, can⟩ := unfolds.canCall hx
  exact ⟨can.command_ne_empty (Settings.filled_of_load loaded), can.argsRooted⟩

/-- Where the environment chooses an empty build tool, the default one is called, and the paths of a
project that is named relative to its process start from the root. -/
theorem calls_filled_and_rooted_kernel :
    let graph : DependencyGraph :=
      ⟨some "k", [⟨"k", [⟨"bootloader", "b"⟩]⟩], [⟨"b", "", "/Cargo.toml"⟩]⟩
    let runner := Runner.scripted
      [("cargo metadata", { result := { stdout := graph.toJson.render } })]
    let inv : Invocation :=
      { args := ["run"], env := [("BOOT_BUILDER_CARGO", "")], projectDir := "kernel",
        cwd := "/work" }
    let calls := (inv.trace runner ⟨"/work", [(["work"], .directory)]⟩).filterMap Event.call?
    calls.map Call.command = ["cargo", "cargo", "cargo", "qemu-system-x86_64"] ∧
      ∀ c ∈ calls, c.command ≠ "" ∧ ArgsRooted c.args := by
  intro graph runner inv calls
  refine ⟨by decide +kernel, ?_⟩
  intro c hc
  have sound := (calls_filled_and_rooted runner inv _).2 c hc
  have rooted : Path.isAbsolute "/work".toList = true := by decide
  exact ⟨sound.1, sound.2 (.inl rooted)⟩

end Invocation

end BootImage
