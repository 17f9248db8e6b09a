import BootImage.Build.Stage
import BootImage.Proofs.Path.Climbing
import BootImage.Proofs.Path.Entry
import BootImage.Proofs.Settings.File
import BootImage.Settings.Load

/-!
# What the outputs of a build are called

The file name of an artifact is the binary's name between an opening and an ending, which tell the
artifact. A binary's name without a slash stands whole in the file names of its artifacts, so
builds of one project share an output exactly if they are for one binary, and the image that is
booted and the binary it is made from name each other.

A settings file may set any name but the empty one. A name with slashes leads its artifacts along:
they stay below the output directory and apart from one another as long as what stands between the
first slash and the last does not lead out of the directory that the opening leads into. If it does,
the opening is lost, and with it the difference between the two images.
-/

namespace BootImage

open BootImage.Path

namespace Text

/-- Text before and behind a text without separators belongs to the first of its pieces and to the
last. -/
theorem pieces_between {sep : Char} {s p q pre post : List Char} {inner : List (List Char)}
    (h : pieces sep s = p :: (inner ++ [q])) (hpre : sep ∉ pre) (hpost : sep ∉ post) :
    pieces sep (pre ++ s ++ post) = (pre ++ p) :: (inner ++ [q ++ post]) := by
  have apart {r : List Char} (hr : r ∈ p :: (inner ++ [q])) : sep ∉ r :=
    not_mem_of_mem_pieces (h ▸ hr)
  have rest : joinPieces sep (inner ++ [q]) ++ post = joinPieces sep (inner ++ [q ++ post]) := by
    by_cases empty : inner = []
    · rw [empty]
      rfl
    · rw [joinPieces_append_singleton empty, joinPieces_append_singleton empty, List.append_assoc,
        List.cons_append]
  have whole : s = p ++ sep :: joinPieces sep (inner ++ [q]) := by
    rw [← joinPieces_pieces sep s, h]
    cases inner <;> rfl
  have around : pre ++ s ++ post = (pre ++ p) ++ sep :: joinPieces sep (inner ++ [q ++ post]) := by
    rw [whole, ← rest]
    simp
  have first : sep ∉ pre ++ p := by
    rw [List.mem_append, not_or]
    exact ⟨hpre, apart List.mem_cons_self⟩
  have behind : ∀ r ∈ inner ++ [q ++ post], sep ∉ r := by
    intro r hr
    rcases List.mem_append.1 hr with hr | hr
    · exact apart (List.mem_cons_of_mem _ (List.mem_append_left _ hr))
    · rw [List.mem_singleton.1 hr, List.mem_append, not_or]
      exact ⟨apart (by simp), hpost⟩
  rw [around, pieces_append_sep_cons, pieces_of_not_mem first,
    pieces_joinPieces (by simp) behind, List.singleton_append]

end Text

namespace Artifact

def opening : Artifact → List Char
  | biosImage => "boot-bios-".toList
  | uefiImage | uefiEfi | uefiFat => "boot-uefi-".toList

def ending : Artifact → List Char
  | biosImage | uefiImage => ".img".toList
  | uefiEfi => ".efi".toList
  | uefiFat => ".fat".toList

theorem toList_fileName (a : Artifact) (name : String) :
    (a.fileName name).toList = a.opening ++ name.toList ++ a.ending := by
  have template (first last : String) :
      (first ++ name ++ last).toList = first.toList ++ name.toList ++ last.toList := by
    rw [String.toList_append, String.toList_append]
  cases a <;> exact template _ _

theorem slash_not_mem_opening (a : Artifact) : '/' ∉ a.opening := by cases a <;> decide

theorem slash_not_mem_ending (a : Artifact) : '/' ∉ a.ending := by cases a <;> decide

theorem length_opening (a : Artifact) : a.opening.length = 10 := by cases a <;> rfl

theorem length_ending (a : Artifact) : a.ending.length = 4 := by cases a <;> rfl

theorem eq_of_opening_of_ending {a b : Artifact} (first : a.opening = b.opening)
    (last : a.ending = b.ending) : a = b := by
  revert first last
  cases a <;> cases b <;> decide

theorem isName_of_length {s : Segment} (h : 2 < s.length) : isName s = true := by
  rcases segment_cases s with (rfl | rfl) | rfl | name
  · simp at h
  · simp [current] at h
  · simp [parent] at h
  · exact name

theorem isName_opening_append (a : Artifact) (s : Segment) : isName (a.opening ++ s) = true := by
  refine isName_of_length ?_
  rw [List.length_append, length_opening]
  omega

theorem isName_append_ending (a : Artifact) (s : Segment) : isName (s ++ a.ending) = true := by
  refine isName_of_length ?_
  rw [List.length_append, length_ending]
  omega

/-- A binary's name can be read off the file names of its artifacts, and each of them tells its
artifact. -/
theorem fileName_eq_iff {a b : Artifact} {name name' : String} :
    a.fileName name = b.fileName name' ↔ a = b ∧ name = name' := by
  constructor
  · intro h
    rw [← String.toList_inj, toList_fileName, toList_fileName] at h
    obtain ⟨h, last⟩ := List.append_inj' h (by rw [length_ending, length_ending])
    obtain ⟨first, same⟩ := List.append_inj h (by rw [length_opening, length_opening])
    exact ⟨eq_of_opening_of_ending first last, String.toList_inj.1 same⟩
  · rintro ⟨rfl, rfl⟩
    rfl

theorem isFileName_fileName (a : Artifact) {name : String} (slash : '/' ∉ name.toList) :
    IsFileName (a.fileName name) := by
  rw [IsFileName, toList_fileName]
  refine ⟨a.isName_append_ending _, ?_⟩
  simp [a.slash_not_mem_opening, a.slash_not_mem_ending, slash]

section Paths

variable {outDir : String} (h : isAbsolute outDir.toList = true) (a : Artifact) (name : String)

include h

theorem isNormal_path : IsNormal (a.path outDir name).toList := by
  refine isNormal_join_append h [] ?_ ?_
  · intro empty
    have named := a.isName_append_ending (a.opening ++ name.toList)
    rw [← toList_fileName, empty] at named
    cases named
  · obtain ⟨c, last, other⟩ : ∃ c, a.ending.getLast? = some c ∧ c ≠ '/' := by
      cases a <;> exact ⟨_, rfl, by decide⟩
    rw [toList_fileName, List.getLast?_append, last]
    simpa using other

theorem reduce_path :
    reduce false (a.path outDir name).toList =
      ((Text.pieces '/' (a.opening ++ name.toList ++ a.ending)).foldl (visit false)
        (reduce false outDir.toList).reverse).reverse := by
  rw [path, reduce_join_eq h, segments, List.flatMap_singleton, toList_fileName]

variable {name}

theorem reduce_path_of_not_mem (slash : '/' ∉ name.toList) :
    reduce false (a.path outDir name).toList =
      reduce false outDir.toList ++ [(a.fileName name).toList] :=
  reduce_join h (a.isFileName_fileName slash).1 (a.isFileName_fileName slash).2

/-- With slashes, its ending names an entry of where the other segments lead from the opening. -/
theorem reduce_path_of_pieces {p q : Segment} {inner : List Segment}
    (hp : Text.pieces '/' name.toList = p :: (inner ++ [q])) :
    reduce false (a.path outDir name).toList =
      (inner.foldl (visit false)
        ((a.opening ++ p) :: (reduce false outDir.toList).reverse)).reverse ++ [q ++ a.ending] := by
  rw [reduce_path h, Text.pieces_between hp a.slash_not_mem_opening a.slash_not_mem_ending,
    List.foldl_cons, visit_of_isName (a.isName_opening_append p), List.foldl_append,
    List.foldl_cons, List.foldl_nil, visit_of_isName (a.isName_append_ending q), List.reverse_cons]

/-- If the other segments climb, nothing is left of the opening, and the two images have one
path. -/
theorem path_eq_of_climbs {p q : Segment} {inner : List Segment}
    (hp : Text.pieces '/' name.toList = p :: (inner ++ [q])) (climbs : Climbs inner) :
    biosImage.path outDir name = uefiImage.path outDir name := by
  have out : parent ∈ inner.foldl (visit true) [] := climbs
  have forgotten := foldl_visit_forget out List.not_mem_nil (biosImage.isName_opening_append p)
    (uefiImage.isName_opening_append p) (reduce false outDir.toList).reverse
  rw [List.nil_append, List.nil_append] at forgotten
  rw [eq_iff_reduce_eq (isNormal_path h biosImage name) (isNormal_path h uefiImage name),
    reduce_path_of_pieces h biosImage hp, reduce_path_of_pieces h uefiImage hp, forgotten]
  rfl

/-- If they do not climb, an artifact lies below where its opening leads. -/
theorem reduce_path_of_not_climbs {p q : Segment} {inner : List Segment}
    (hp : Text.pieces '/' name.toList = p :: (inner ++ [q])) (stays : ¬Climbs inner) :
    reduce false (a.path outDir name).toList =
      reduce false outDir.toList ++
        (a.opening ++ p) :: ((inner.foldl (visit true) []).reverse ++ [q ++ a.ending]) := by
  have inside : parent ∉ inner.foldl (visit true) [] := stays
  have above := foldl_visit_append inside
    ((a.opening ++ p) :: (reduce false outDir.toList).reverse)
  rw [List.nil_append] at above
  rw [reduce_path_of_pieces h a hp, above]
  simp

end Paths

end Artifact

/-- The segments of a name between its first slash and its last. -/
def innerSegments (name : String) : List Segment := (Text.pieces '/' name.toList).tail.dropLast

/-- A name has no slash, or its pieces are the inner segments between a first and a last. -/
theorem pieces_name_cases (name : String) :
    ('/' ∉ name.toList ∧ innerSegments name = []) ∨
      ∃ p q, Text.pieces '/' name.toList = p :: (innerSegments name ++ [q]) := by
  obtain ⟨p, ps, hp⟩ := List.exists_cons_of_ne_nil (Text.pieces_ne_nil '/' name.toList)
  rcases List.eq_nil_or_concat ps with rfl | ⟨inner, q, rfl⟩
  · refine .inl ⟨fun slash => ?_, by simp [innerSegments, hp]⟩
    obtain ⟨before, after, cut⟩ := List.append_of_mem slash
    rw [cut, Text.pieces_append_sep_cons] at hp
    have length := congrArg List.length hp
    have first := List.length_pos_iff.2 (Text.pieces_ne_nil '/' before)
    have second := List.length_pos_iff.2 (Text.pieces_ne_nil '/' after)
    simp only [List.length_append, List.length_cons, List.length_nil] at length
    omega
  · rw [List.concat_eq_append] at hp
    exact .inr ⟨p, q, by simp [innerSegments, hp]⟩

namespace Layout

/-- The artifacts lie below the output directory, each in a place of its own. -/
structure ArtifactsApart (l : Layout) : Prop where
  below (a : Artifact) : LiesBelow l.outDir (l.artifact a)
  distinct (a b : Artifact) (h : l.artifact a = l.artifact b) : a = b

theorem artifactsApart_of_not_mem {l : Layout} (h : isAbsolute l.outDir.toList = true)
    (slash : '/' ∉ l.binaryName.toList) : l.ArtifactsApart := by
  have path (a : Artifact) := a.reduce_path_of_not_mem h slash
  refine ⟨fun a => ⟨_, List.cons_ne_nil _ _, path a⟩, fun a b same => ?_⟩
  have segments := congrArg (fun p => reduce false p.toList) same
  simp only [artifact, path] at segments
  have fileName := List.append_cancel_left segments
  rw [List.cons.injEq, String.toList_inj] at fileName
  exact (Artifact.fileName_eq_iff.1 fileName.1).1

theorem artifactsApart_of_not_climbs {l : Layout} (h : isAbsolute l.outDir.toList = true)
    {p q : Segment} {inner : List Segment}
    (hp : Text.pieces '/' l.binaryName.toList = p :: (inner ++ [q])) (stays : ¬Climbs inner) :
    l.ArtifactsApart := by
  have path (a : Artifact) := a.reduce_path_of_not_climbs h hp stays
  refine ⟨fun a => ⟨_, List.cons_ne_nil _ _, path a⟩, fun a b same => ?_⟩
  have segments := congrArg (fun p => reduce false p.toList) same
  simp only [artifact, path] at segments
  obtain ⟨first, rest⟩ := List.cons.inj (List.append_cancel_left segments)
  have last := List.append_cancel_left rest
  rw [List.cons.injEq] at last
  exact Artifact.eq_of_opening_of_ending (List.append_cancel_right first)
    (List.append_cancel_left last.1)

/-- Artifacts are apart exactly if their openings are not lost. -/
theorem artifactsApart_iff_not_climbs {l : Layout} (h : isAbsolute l.outDir.toList = true) :
    l.ArtifactsApart ↔ ¬Climbs (innerSegments l.binaryName) := by
  rcases pieces_name_cases l.binaryName with ⟨slash, inner⟩ | ⟨p, q, hp⟩
  · refine iff_of_true (artifactsApart_of_not_mem h slash) ?_
    rw [inner]
    decide
  · refine ⟨fun apart climbs => ?_, artifactsApart_of_not_climbs h hp⟩
    cases apart.distinct _ _ (Artifact.path_eq_of_climbs h hp climbs)

/-- A settings file can set any name for the binary but the empty one. Whatever the name is and
wherever it comes from, the artifacts lie below the output directory and apart from one another
exactly if the segments between the first slash and the last of the name do not climb. -/
theorem artifacts_apart_iff {cwd : String} (h : isAbsolute cwd.toList = true)
    (complain : String → String) (path : String) (o : BuildOptions)
    (dependencyDir projectDir : String) (settings : Settings) (rootName : Option String) :
    let l := resolve cwd o dependencyDir projectDir settings rootName
    (∀ name, (∃ text file, SettingsFile.parse complain path text = .ok file ∧
        file.binaryName = some name) ↔ name ≠ "") ∧
      (l.ArtifactsApart ↔ ¬Climbs (innerSegments l.binaryName)) := by
  intro l
  have root : isAbsolute (Path.resolve cwd [projectDir]).toList = true :=
    isAbsolute_resolve (.inl h)
  exact ⟨SettingsFile.exists_parse_binaryName_iff complain path,
    artifactsApart_iff_not_climbs (isAbsolute_join root _)⟩

/-- Segments that go down before they go up again keep the artifacts apart. -/
theorem artifacts_apart_below_opening :
    (resolve "/work/kernel" {} "/deps/bootloader" "." { binaryName := some "sub/x/../kernel" }
      none).ArtifactsApart := by
  have rooted : isAbsolute "/work/kernel".toList = true := by decide
  refine (artifacts_apart_iff rooted id settingsFileName {} "/deps/bootloader" "." _ none).2.2 ?_
  decide

/-- A settings file can set a name that takes the images out of the output directory, to one
path. -/
theorem artifacts_not_apart :
    let text := "\x7b\"binaryName\":\"x/../../y\"\x7d"
    ∃ file, SettingsFile.parse id settingsFileName text = .ok file ∧
      let l := resolve "/work/kernel" {} "/deps/bootloader" "/work/kernel"
        (Settings.ofSources file []) none
      l.artifact .uefiImage = "/work/kernel/y.img" ∧
        l.artifact .biosImage = l.artifact .uefiImage ∧
        ¬LiesBelow l.outDir (l.artifact .uefiImage) := by
  refine ⟨{ binaryName := some "x/../../y" }, by decide, by decide, by decide, ?_⟩
  exact fun below => absurd below.liesIn (by decide)

end Layout

end BootImage
