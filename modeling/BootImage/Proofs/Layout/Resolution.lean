import BootImage.Layout
import BootImage.Proofs.Path.Descent
import BootImage.Proofs.Path.NormalForm
import BootImage.Proofs.Path.Respelling

/-!
# Where the paths of a layout lead

Whatever a project is called and wherever it is, the paths of its layout start from the root, and
those that are joined to the project's directory are in normal form and lie where they belong. The
two directories that a layout is resolved from are in normal form as well if the current directory
is, as that of a process always is. Then a layout resolves to itself wherever it is seen from. The
current directory has no part in a layout whose directories start from the root, nor has the way in
which they are spelled.
-/

namespace BootImage.Layout

open BootImage.Path

/-- The paths of a layout are in normal form, apart from the two directories it is resolved from,
and lie where the settings ask for them. -/
structure WellPlaced (l : Layout) (settings : Settings) : Prop where
  projectDir : isAbsolute l.projectDir.toList = true
  dependencyRootDir : isAbsolute l.dependencyRootDir.toList = true
  targetDir : IsNormal l.targetDir.toList
  outDir : IsNormal l.outDir.toList
  manifestPath : IsNormalToSlash l.manifestPath.toList
  expectedBinaryPath : IsNormalToSlash l.expectedBinaryPath.toList
  targetEntry : IsEntry l.projectDir "target" l.targetDir
  outEntry : IsEntry l.projectDir "out" l.outDir
  manifest : parent ∉ Text.pieces '/' settings.manifestFile.written.toList →
    LiesIn l.projectDir l.manifestPath
  binary : parent ∉ Text.pieces '/' settings.targetTriple.written.toList →
    parent ∉ Text.pieces '/' l.binaryName.toList → LiesBelow l.targetDir l.expectedBinaryPath

theorem isName_profile (o : BuildOptions) :
    isName o.profile.toList = true ∧ '/' ∉ o.profile.toList := by
  rw [BuildOptions.profile]
  split <;> decide

theorem liesBelow_binary {targetDir triple name : String} (h : isAbsolute targetDir.toList = true)
    (o : BuildOptions) (downTriple : parent ∉ Text.pieces '/' triple.toList)
    (downName : parent ∉ Text.pieces '/' name.toList) :
    LiesBelow targetDir (join [targetDir, triple, o.profile, name]) := by
  obtain ⟨hs, slash⟩ := isName_profile o
  have visited : segments [triple, o.profile, name] =
      Text.pieces '/' triple.toList ++ o.profile.toList :: Text.pieces '/' name.toList := by
    simp [segments, Text.pieces_of_not_mem slash]
  have named : parent ≠ o.profile.toList := by
    intro climbs
    rw [← climbs] at hs
    cases hs
  refine liesBelow_join h ?_ hs ?_
  · rw [visited, List.mem_append, List.mem_cons, not_or, not_or]
    exact ⟨downTriple, named, downName⟩
  · rw [visited]
    exact List.mem_append_right _ List.mem_cons_self

section Resolved

variable {cwd : String} (o : BuildOptions) (dependencyDir projectDir : String)
  (settings : Settings) (rootName : Option String)

theorem wellPlaced_resolve (h : isAbsolute cwd.toList = true) :
    (resolve cwd o dependencyDir projectDir settings rootName).WellPlaced settings := by
  have directory (d : String) : isAbsolute (Path.resolve cwd [d]).toList = true :=
    isAbsolute_resolve (.inl h)
  have root := directory projectDir
  have target : isAbsolute (join [Path.resolve cwd [projectDir], "target"]).toList = true :=
    isAbsolute_join root _
  exact
    { projectDir := root
      dependencyRootDir := directory dependencyDir
      targetDir := isNormal_join root (by decide) (by decide)
      outDir := isNormal_join root (by decide) (by decide)
      manifestPath := isNormalToSlash_join root _
      expectedBinaryPath := isNormalToSlash_join target _
      targetEntry := reduce_join root (by decide) (by decide)
      outEntry := reduce_join root (by decide) (by decide)
      manifest := fun down => liesIn_join root (by simpa [segments] using down)
      binary := liesBelow_binary target o }

/-- The paths of a layout that is seen from a directory start from the root, and all of them are in
normal form, but for a slash at the end of the manifest or of the binary. The target and the output
directory are entries of the project's directory, and without `..` in what the settings say the
manifest and the binary lie where the settings ask for them. -/
theorem resolved_paths_normal (here : IsNormal cwd.toList) :
    let l := resolve cwd o dependencyDir projectDir settings rootName
    l.WellPlaced settings ∧ IsNormal l.projectDir.toList ∧ IsNormal l.dependencyRootDir.toList := by
  have h := isAbsolute_of_isNormal here
  exact ⟨wellPlaced_resolve o dependencyDir projectDir settings rootName h,
    (isNormal_resolve_iff h projectDir).2 fun _ => here,
    (isNormal_resolve_iff h dependencyDir).2 fun _ => here⟩

end Resolved

/-- The path of a dependency loses its detour, and that of the manifest a slash. -/
theorem resolved_paths_normal_slash_at_end :
    let settings : Settings := { targetTriple := "../..", manifestFile := "sub//Cargo.toml/" }
    let l := resolve "/a/b" {} "dep/../x" "." settings none
    IsNormal l.projectDir.toList ∧ IsNormal l.dependencyRootDir.toList ∧
      IsNormalToSlash l.manifestPath.toList ∧ LiesIn l.projectDir l.manifestPath := by
  intro settings l
  obtain ⟨placed, project, dependency⟩ := resolved_paths_normal {} "dep/../x" "." settings none
    (by decide : IsNormal "/a/b".toList)
  exact ⟨project, dependency, placed.manifestPath, placed.manifest (by decide)⟩

section Again

variable (o : BuildOptions) (settings : Settings) (rootName : Option String)

/-- A layout depends on its two directories only by what they resolve to. -/
theorem resolve_congr {cwd cwd' dependencyDir dependencyDir' projectDir projectDir' : String}
    (dependency : Path.resolve cwd [dependencyDir] = Path.resolve cwd' [dependencyDir'])
    (project : Path.resolve cwd [projectDir] = Path.resolve cwd' [projectDir']) :
    resolve cwd o dependencyDir projectDir settings rootName =
      resolve cwd' o dependencyDir' projectDir' settings rootName := by
  simp only [resolve, dependency, project]

/-- A layout resolves to itself wherever it is seen from. Directories that start from the root give
one layout, wherever they are seen from and however they are spelled. -/
theorem resolve_stable :
    (∀ cwd cwd' dependencyDir projectDir : String, IsNormal cwd.toList →
      let l := resolve cwd o dependencyDir projectDir settings rootName
      resolve cwd' o l.dependencyRootDir l.projectDir settings rootName = l) ∧
      ∀ cwd cwd' dependencyDir dependencyDir' projectDir projectDir' : String,
        isAbsolute dependencyDir.toList = true → isAbsolute projectDir.toList = true →
        Respelled dependencyDir.toList dependencyDir'.toList →
        Respelled projectDir.toList projectDir'.toList →
        resolve cwd o dependencyDir projectDir settings rootName =
          resolve cwd' o dependencyDir' projectDir' settings rootName := by
  constructor
  · intro cwd cwd' dependencyDir projectDir here
    have h := isAbsolute_of_isNormal here
    have again (d : String) : Path.resolve cwd' [Path.resolve cwd [d]] = Path.resolve cwd [d] :=
      (resolve_eq_self_iff (isAbsolute_resolve (.inl h)) cwd').2
        ((isNormal_resolve_iff h d).2 fun _ => here)
    exact resolve_congr o settings rootName (again dependencyDir) (again projectDir)
  · intro cwd cwd' dependencyDir dependencyDir' projectDir projectDir' hd hp spelledD spelledP
    exact resolve_congr o settings rootName (spelledD.resolve_eq hd cwd cwd')
      (spelledP.resolve_eq hp cwd cwd')

end Again

/-- Relative directories come to a layout that no longer depends on where they were seen from, and
a detour beside a slash at the end makes no difference. -/
theorem resolve_stable_respelled :
    let l := resolve "/a/b" {} "../dep//x/.." "os/" {} (some "kernel")
    resolve "/work" {} l.dependencyRootDir l.projectDir {} (some "kernel") = l ∧
      resolve "/a" {} "/dep" "/work/os" {} none =
        resolve "/b" {} "/dep/" "/work/x/../os" {} none := by
  intro l
  refine ⟨(resolve_stable {} {} (some "kernel")).1 _ _ _ _ (by decide), ?_⟩
  exact (resolve_stable {} {} none).2 _ _ _ _ _ _ (by decide) (by decide) (.ending (by decide))
    (.detour (x := "x".toList) (by decide) (by decide) "/work".toList "os".toList)

end BootImage.Layout
