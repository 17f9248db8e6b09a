import BootImage.Proofs.Build.Plan
import BootImage.Proofs.Files.Making

/-!
# What a build does to the files

If the programs that a build runs leave the files as they are, the only thing a build does to them
is to make its output directory, and it does so before it runs anything. If a file is in the way
there is no build: its status is 1, and the files are as they were. Over links it may be otherwise:
one that leads nowhere is in the way as well.
-/

namespace BootImage

/-- The programs that are called leave the files as they are. -/
def Runner.LeavesFiles (runner : Runner) : Prop :=
  ∀ past tree c, (runner past tree c).tree = tree

/-- Where programs leave the files as they are, only directories that are made change them. -/
theorem Runner.LeavesFiles.tree_after {runner : Runner} (still : runner.LeavesFiles)
    (s : RunState) {as : List Act} (hd : directories as = []) :
    (after runner s as).tree = s.tree := by
  induction as generalizing s with
  | nil => rfl
  | cons a as ih =>
      cases a with
      | print text => exact ih _ hd
      | line l => exact ih _ hd
      | makeDirectories path made => cases hd
      | call c outcome => exact (ih _ hd).trans (still s.trace s.tree c)

/-- What a course from `s` with the outcome `o` that is to run programs does to the files, when `l`
is the location of its output directory. -/
structure Prepares (runner : Runner) (s : RunState) (l : Location) (as : List Act)
    (o : Except Failure Int) : Prop where
  /-- a file in the way is the end of it -/
  blocked (h : s.tree.Blocked l) : o = .ok 1 ∧ (∀ x ∈ exchanges as, x.call.mode ≠ .run) ∧
    (after runner s as).tree = s.tree
  /-- otherwise just the missing directories are added -/
  made (h : ¬ s.tree.Blocked l) (l' : Location) : (after runner s as).tree.find? l' =
    if l' <+: l ∧ s.tree.find? l' = none then some .directory else s.tree.find? l'
  /-- and they are there before any program is run -/
  ready (h : ¬ s.tree.Blocked l) (before : List Act) (c : Call)
    (outcome : Except Failure CallResult) (rest : List Act)
    (cut : as = before ++ .call c outcome :: rest) (mode : c.mode = .run) :
    (after runner s before).tree.find? l = some .directory

variable {runner : Runner} {s : RunState} {l : Location} {as : List Act} {o : Except Failure Int}

/-- A course may have a beginning that runs nothing and an end that calls nothing. -/
theorem Prepares.extend (still : runner.LeavesFiles) {first last : List Act}
    (hd : directories first = []) (hx : ∀ x ∈ exchanges first, x.call.mode ≠ .run)
    (hd' : directories last = []) (hx' : exchanges last = [])
    (h : Prepares runner (after runner s first) l as o) {o' : Except Failure Int}
    (ho : o = .ok 1 → o' = .ok 1) : Prepares runner s l (first ++ (as ++ last)) o' := by
  have start := still.tree_after s hd
  have finish : (after runner s (first ++ (as ++ last))).tree =
      (after runner (after runner s first) as).tree := by
    rw [after_append, after_append, still.tree_after _ hd']
  constructor
  · intro blocked
    obtain ⟨status, calls, tree⟩ := h.blocked (by rwa [start])
    refine ⟨ho status, ?_, by rw [finish, tree, start]⟩
    intro x hmem
    rw [exchanges_append, exchanges_append, hx', List.append_nil, List.mem_append] at hmem
    exact hmem.elim (hx x) (calls x)
  · intro free l'
    rw [finish, h.made (by rwa [start]), start]
  · intro free before c outcome rest cut mode
    have notFirst : Act.call c outcome ∉ first := fun hm =>
      hx ⟨c, outcome⟩ (List.mem_filterMap.2 ⟨_, hm, rfl⟩) mode
    have notLast : Act.call c outcome ∉ last := by
      intro hm
      have mem : (⟨c, outcome⟩ : Exchange) ∈ exchanges last := List.mem_filterMap.2 ⟨_, hm, rfl⟩
      rw [hx'] at mem
      cases mem
    obtain ⟨before', rfl, behind⟩ := exists_append_of_not_mem cut notFirst
    obtain ⟨rest', within, -⟩ := exists_append_of_not_mem_right behind notLast
    rw [after_append]
    exact h.ready (by rwa [start]) before' c outcome rest' within mode

theorem Job.Builds.tree_after {job : Job} (h : job.Builds runner s as o)
    (still : runner.LeavesFiles) :
    (after runner s as).tree = (s.tree.makeDirectories job.layout.outDir).2 := by
  cases h with
  | unmade _ => rfl
  | made _ rest => exact still.tree_after _ rest.carries.1.directories

/-- A build prepares its output directory, if no link lies on the way there. -/
theorem Job.Builds.prepares {job : Job} (h : job.Builds runner s as o)
    (still : runner.LeavesFiles) (proper : s.tree.Proper)
    (named : s.tree.canName job.layout.outDir = true)
    (direct : s.tree.Direct [] (s.tree.way job.layout.outDir)) :
    Prepares runner s (s.tree.way job.layout.outDir) as o := by
  cases h with
  | unmade failed =>
      have unblocked (free : ¬ s.tree.Blocked (s.tree.way job.layout.outDir)) : False := by
        cases failed.symm.trans (direct.makeDirectories_of_free proper named free).1
      refine ⟨fun blocked => ⟨rfl, by simp, ?_⟩, fun free => (unblocked free).elim,
        fun free => (unblocked free).elim⟩
      obtain ⟨e, unmade⟩ := direct.makeDirectories_of_blocked proper blocked
      simp [Act.after, unmade]
  | @made later o made rest =>
      have unmade (blocked : s.tree.Blocked (s.tree.way job.layout.outDir)) : False := by
        obtain ⟨e, unmade⟩ := direct.makeDirectories_of_blocked proper blocked
        rw [unmade] at made
        cases made
      have hd : directories later = [] := rest.carries.1.directories
      have tree (before : List Act) (hb : directories before = []) :
          (after runner s (.line (.detail (.stage .ensureOutDir)) ::
            .makeDirectories job.layout.outDir (.ok ()) :: before)).tree =
          (s.tree.makeDirectories job.layout.outDir).2 := still.tree_after _ hb
      refine ⟨fun blocked => (unmade blocked).elim, fun free l => ?_, ?_⟩
      · rw [tree later hd]
        exact (direct.makeDirectories_of_free proper named free).2 l
      · intro free before c outcome rest cut mode
        change [Act.line (.detail (.stage .ensureOutDir)),
          .makeDirectories job.layout.outDir (.ok ())] ++ later = _ at cut
        obtain ⟨before', rfl, behind⟩ := exists_append_of_not_mem cut (by simp)
        have hb : directories before' = [] := by
          rw [behind, directories_append] at hd
          exact (List.append_eq_nil_iff.1 hd).1
        exact (congrArg (fun t => FileTree.find? t _) (tree before' hb)).trans
          (direct.find?_makeDirectories_self proper named free)

end BootImage
