import BootImage.Proofs.Layout.Artifacts
import BootImage.Proofs.Layout.Resolution

/-!
# Builds of one project

The binary of a build lies in the directory of its profile, in that of its target, and each of its
artifacts right in the output directory. Where the target's name leads does not matter: it leads
both builds there. So two builds of one project for one target share their binary exactly if they
have the same profile and the same name, and an artifact exactly if it is the same artifact of the
same name.
-/

namespace BootImage.Layout

open BootImage.Path

theorem profile_eq_iff {o o' : BuildOptions} :
    o.profile = o'.profile ↔ o.optimized = o'.optimized := by
  rw [BuildOptions.profile, BuildOptions.profile]
  cases o.optimized <;> cases o'.optimized <;> decide

/-- What the binary and the artifacts of a build are called and where they lie. -/
structure NamedAlike (l : Layout) (o : BuildOptions) : Prop where
  /-- the binary has the binary's name -/
  binary : basename l.expectedBinaryPath = l.binaryName
  /-- and lies in a directory with the name of the profile -/
  profile : basename (dirname l.expectedBinaryPath) = o.profile
  /-- an artifact lies right in the output directory -/
  outDir (a : Artifact) : dirname (l.artifact a) = l.outDir
  /-- and has the file name that is made from the binary's name -/
  fileName (a : Artifact) : basename (l.artifact a) = a.fileName l.binaryName
  /-- which holds this name -/
  within (a : Artifact) : l.binaryName.toList <:+: (basename (l.artifact a)).toList

section Binary

variable {targetDir name : String} (h : isAbsolute targetDir.toList = true) (o : BuildOptions)
  (triple : String) (hn : IsFileName name)

include h hn

theorem isNormal_binary : IsNormal (join [targetDir, triple, o.profile, name]).toList := by
  refine isNormal_join_append h [triple, o.profile] (ne_empty_of_isName hn.1) ?_
  exact fun last => hn.2 (List.mem_of_getLast? last)

theorem reduce_binary :
    reduce false (join [targetDir, triple, o.profile, name]).toList =
      reduce false (join [targetDir, triple]).toList ++ [o.profile.toList] ++ [name.toList] := by
  obtain ⟨profile, slash⟩ := isName_profile o
  rw [reduce_join_eq h, reduce_join_eq h]
  simp only [segments, List.flatMap_cons, List.flatMap_nil, List.append_nil, List.foldl_append,
    Text.pieces_of_not_mem slash, Text.pieces_of_not_mem hn.2, List.foldl_cons, List.foldl_nil,
    visit_of_isName profile, visit_of_isName hn.1, List.reverse_cons]

/-- Two binaries for one target are one exactly if profile and name are the same. -/
theorem binary_eq_iff {name' : String} (hn' : IsFileName name') (o' : BuildOptions) :
    join [targetDir, triple, o.profile, name] = join [targetDir, triple, o'.profile, name'] ↔
      o.optimized = o'.optimized ∧ name = name' := by
  rw [eq_iff_reduce_eq (isNormal_binary h o triple hn) (isNormal_binary h o' triple hn'),
    reduce_binary h o triple hn, reduce_binary h o' triple hn', List.append_assoc,
    List.append_assoc, List.append_cancel_left_eq, List.cons_append, List.cons_append,
    List.cons.injEq, String.toList_inj, profile_eq_iff]
  simp [String.toList_inj]

theorem basename_binary : basename (join [targetDir, triple, o.profile, name]) = name := by
  rw [← String.toList_inj]
  exact basename_of_reduce (reduce_binary h o triple hn) (isNormal_binary h o triple hn)

theorem basename_dirname_binary :
    basename (dirname (join [targetDir, triple, o.profile, name])) = o.profile := by
  have path := reduce_binary h o triple hn
  have dir := dirname_of_reduce path (isNormal_binary h o triple hn) (by simp)
  have names := reduce_fromRoot_of_reduce path
  rw [← dir] at names
  rw [← String.toList_inj]
  refine basename_of_reduce names ?_
  rw [isNormal_iff, names, dir]

end Binary

section Artifacts

variable {outDir name : String} (h : isAbsolute outDir.toList = true) (slash : '/' ∉ name.toList)
  (a : Artifact)

include h slash

theorem basename_artifact : basename (a.path outDir name) = a.fileName name := by
  rw [← String.toList_inj]
  exact basename_of_reduce (a.reduce_path_of_not_mem h slash) (a.isNormal_path h name)

theorem dirname_artifact (normal : IsNormal outDir.toList)
    (below : reduce false outDir.toList ≠ []) : dirname (a.path outDir name) = outDir := by
  rw [← String.toList_inj, dirname_of_reduce (a.reduce_path_of_not_mem h slash)
    (a.isNormal_path h name) below]
  exact isNormal_iff.1 normal

theorem artifact_eq_iff {name' : String} (slash' : '/' ∉ name'.toList) (a' : Artifact) :
    a.path outDir name = a'.path outDir name' ↔ a = a' ∧ name = name' := by
  rw [eq_iff_reduce_eq (a.isNormal_path h name) (a'.isNormal_path h name'),
    a.reduce_path_of_not_mem h slash, a'.reduce_path_of_not_mem h slash',
    List.append_cancel_left_eq, List.singleton_inj, String.toList_inj, Artifact.fileName_eq_iff]

end Artifacts

theorem getElem?_emulatorArgs (o : BuildOptions) (biosPath imagePath : String) :
    (emulatorArgs o biosPath imagePath)[2]? = some imagePath := rfl

theorem getElem?_imageArgs (l : Layout) : (imageArgs l)[4]? = some l.expectedBinaryPath := rfl

section Resolved

variable {cwd projectDir : String} (h : isAbsolute cwd.toList = true)

include h

theorem namedAlike_resolve (o : BuildOptions) (dependencyDir : String) (settings : Settings)
    (rootName : Option String) :
    let l := resolve cwd o dependencyDir projectDir settings rootName
    IsFileName l.binaryName → l.NamedAlike o := by
  intro l hn
  have placed : l.WellPlaced settings :=
    wellPlaced_resolve o dependencyDir projectDir settings rootName h
  have out : isAbsolute l.outDir.toList = true := isAbsolute_join placed.projectDir _
  have target : isAbsolute l.targetDir.toList = true := isAbsolute_join placed.projectDir _
  have below : reduce false l.outDir.toList ≠ [] := by
    rw [placed.outEntry]
    simp
  have fileName (a : Artifact) := basename_artifact out hn.2 a
  exact
    { binary := basename_binary target o settings.targetTriple.written hn
      profile := basename_dirname_binary target o settings.targetTriple.written hn
      outDir := fun a => dirname_artifact out hn.2 a placed.outDir below
      fileName := fileName
      within := fun a => by
        rw [artifact, fileName, Artifact.toList_fileName]
        exact ⟨_, _, rfl⟩ }

/-- Builds of one project for one target agree on where they leave what. A binary whose name can be
that of a file is in the directory of its profile under its name, and its artifacts are right in the
output directory with this name within their own. Two builds share the binary exactly if they agree
on optimizing and on the name, and two of their artifacts are one exactly if they are the same
artifact of the same name. So the image among the arguments of the emulator and the file name of the
binary among those of the builder determine each other. -/
theorem outputs_apart (o o' : BuildOptions) (dependencyDir dependencyDir' : String)
    (settings settings' : Settings) (rootName rootName' : Option String)
    (triple : settings.targetTriple = settings'.targetTriple) :
    let l := resolve cwd o dependencyDir projectDir settings rootName
    let l' := resolve cwd o' dependencyDir' projectDir settings' rootName'
    IsFileName l.binaryName → IsFileName l'.binaryName →
      l.NamedAlike o ∧
      (l.expectedBinaryPath = l'.expectedBinaryPath ↔
        o.optimized = o'.optimized ∧ l.binaryName = l'.binaryName) ∧
      (∀ a a', l.artifact a = l'.artifact a' ↔ a = a' ∧ l.binaryName = l'.binaryName) ∧
      ∀ bios bios' : String,
        (emulatorArgs o bios (l.artifact .uefiImage))[2]? =
            (emulatorArgs o' bios' (l'.artifact .uefiImage))[2]? ↔
          (imageArgs l)[4]?.map basename = (imageArgs l')[4]?.map basename := by
  intro l l' hn hn'
  have root : isAbsolute (Path.resolve cwd [projectDir]).toList = true :=
    isAbsolute_resolve (.inl h)
  have target : isAbsolute l.targetDir.toList = true := isAbsolute_join root _
  have out : isAbsolute l.outDir.toList = true := isAbsolute_join root _
  have binary : l.expectedBinaryPath =
      join [l.targetDir, settings.targetTriple.written, o.profile, l.binaryName] := rfl
  have binary' : l'.expectedBinaryPath =
      join [l.targetDir, settings'.targetTriple.written, o'.profile, l'.binaryName] := rfl
  have artifacts (a a' : Artifact) :
      l.artifact a = l'.artifact a' ↔ a = a' ∧ l.binaryName = l'.binaryName :=
    artifact_eq_iff out hn.2 a hn'.2 a'
  have named := namedAlike_resolve h o dependencyDir settings rootName hn
  have named' := namedAlike_resolve h o' dependencyDir' settings' rootName' hn'
  refine ⟨named, ?_, artifacts, fun bios bios' => ?_⟩
  · rw [binary, binary', ← triple]
    exact binary_eq_iff target o settings.targetTriple.written hn hn' o'
  · rw [getElem?_emulatorArgs, getElem?_emulatorArgs, getElem?_imageArgs, getElem?_imageArgs,
      Option.map_some, Option.map_some, named.binary, named'.binary, Option.some.injEq,
      Option.some.injEq, artifacts]
    exact and_iff_right rfl

end Resolved

/-- A target that leads out of the target directory keeps the two profiles apart, and a name that
looks like the file name of an artifact is a name like any other. -/
theorem outputs_apart_climbing_triple :
    let settings : Settings := { binaryName := some "x.img", targetTriple := "../..//t/" }
    let l := resolve "/work" { optimized := true } "dep" "os" settings none
    let l' := resolve "/work" {} "dep" "os" { settings with binaryName := none }
      (some "boot-uefi-x")
    IsFileName l.binaryName ∧ IsFileName l'.binaryName ∧
      l.expectedBinaryPath ≠ l'.expectedBinaryPath ∧
      l.artifact .uefiImage ≠ l'.artifact .uefiEfi := by
  intro settings l l'
  have apart := @outputs_apart "/work" "os" (by decide)
    { optimized := true } {} "dep" "dep" settings { settings with binaryName := none } none
    (some "boot-uefi-x") rfl (by decide) (by decide)
  refine ⟨by decide, by decide, fun same => ?_, fun same => ?_⟩
  · exact absurd (apart.2.1.1 same).1 (by decide)
  · exact absurd ((apart.2.2.1 _ _).1 same).1 (by decide)

end BootImage.Layout
