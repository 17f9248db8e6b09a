import BootImage.Proofs.Settings.File
import BootImage.Proofs.Settings.Load
import BootImage.Proofs.Text.Casing

/-!
# Which source a setting is taken from

Each field of the settings has the value that its variable of the environment gives it; where that
says nothing, the value that the settings file gives it; and where the file says nothing either, its
default. The three sources are read field by field, so no field depends on another, and no variable
but those of the fields matters. All that a source can give to a text field is a text that is not
empty, so no setting is ever empty.
-/

namespace BootImage

theorem isOn_iff {text : String} : isOn text = true ↔ text = "1" ∨ text.toLower = "true" := by
  have plain : ∀ l ∈ "true".toList, l ≠ 'i' ∧ l ≠ 'k' ∧ l.toNat < 128 := by simp
  have word : Text.lowerCase text.toList = "true".toList ↔ text.toLower = "true" := by
    change _ ↔ text.map Char.toLower = "true"
    rw [Text.lowerCase_eq_iff plain, ← String.toList_inj, String.toList_map]
  rw [isOn, Text.isKeyword, Bool.or_eq_true, beq_iff_eq, beq_iff_eq, word]

namespace SettingsField

def envName? : SettingsField → Option String
  | cargoPath => some "BOOT_BUILDER_CARGO"
  | qemuPath => some "BOOT_BUILDER_QEMU"
  | quiet => some "BOOT_BUILDER_QUIET"
  | _ => none

def ofText : SettingsField → String → Json
  | quiet, text => .bool (text = "1" ∨ text.toLower = "true")
  | _, text => .string text

end SettingsField

/-- What the environment sets a field to; a variable that is empty sets nothing. -/
def Environment.setting? (env : Environment) (field : SettingsField) : Option Json :=
  ((field.envName?.bind fun name => env.lookup name).filter fun text => text ≠ "").map field.ofText

theorem Environment.value?_eq (env : Environment) (name : String) :
    env.value? name = (env.lookup name).filter fun text => text ≠ "" := by
  rw [value?]
  congr 1
  funext text
  rw [Bool.eq_iff_iff]
  simp

namespace Settings

def value? (s : Settings) : SettingsField → Option Json
  | .binaryName => s.binaryName.map .string
  | .targetTriple => some (.string s.targetTriple)
  | .manifestFile => some (.string s.manifestFile)
  | .bootloaderDependency => some (.string s.bootloaderDependency)
  | .cargoPath => some (.string s.cargoPath)
  | .qemuPath => some (.string s.qemuPath)
  | .biosPath => some (.string s.biosPath)
  | .quiet => some (.bool s.quiet)

theorem map_or_some {α : Type} (o : Option α) (f : α → Json) (a : α) :
    (o.map f).or (some (f a)) = some (f (o.getD a)) := by
  cases o <;> rfl

theorem text_or_some (given : Option String) (set : Option WideText) (default : WideText) :
    (given.map fun text : String => Json.string text).or
        ((set.map Json.string).or (some (.string default))) =
      some (.string ((given.map WideText.ofString).getD (set.getD default))) := by
  cases given <;> cases set <;> rfl

theorem value?_ofSources (file : SettingsFile) (env : Environment) (field : SettingsField) :
    (ofSources file env).value? field =
      (env.setting? field).or ((file.value? field).or (({} : Settings).value? field)) := by
  cases field with
  | binaryName => exact Option.or_none.symm
  | cargoPath | qemuPath =>
      simp only [ofSources, Environment.value?_eq]
      exact (text_or_some _ _ _).symm
  | quiet =>
      simp only [ofSources, Environment.value?_eq]
      change some (Json.bool _) = ((env.lookup "BOOT_BUILDER_QUIET").filter _ |>.map _).or
        ((file.quiet.map Json.bool).or (some (.bool false)))
      rw [map_or_some]
      cases (env.lookup "BOOT_BUILDER_QUIET").filter fun text => text ≠ "" with
      | none => rfl
      | some text =>
          have on : isOn text = decide (text = "1" ∨ text.toLower = "true") := by
            rw [Bool.eq_iff_iff, isOn_iff, decide_eq_true_iff]
          rw [Option.map_some, Option.some_or]
          exact congrArg (fun b => some (Json.bool b)) on
  | _ => exact (map_or_some _ _ _).symm

/-- What the settings file of a project sets: nothing if it is not there, and otherwise what the
object sets that it holds. -/
inductive FileSets (complain : String → String) (tree : FileTree) (projectDir : String) :
    SettingsFile → Prop
  | absent (absent : tree.exists? (pathIn projectDir) = false) :
      FileSets complain tree projectDir {}
  | read {bytes : List UInt8} {written : List (WideText × Json)} {file : SettingsFile}
      (there : tree.exists? (pathIn projectDir) = true)
      (content : tree.read (pathIn projectDir) = .ok bytes)
      (accepted : SettingsFile.parse complain (pathIn projectDir) (Text.decode bytes) = .ok file)
      (object : Json.IsObjectText (Text.decode bytes) written)
      (values : ∀ field, file.value? field = written.reverse.lookup (field.key : WideText)) :
      FileSets complain tree projectDir file

/-- The settings file of a project is there, and it cannot be read or is not accepted. -/
def FileAtFault (complain : String → String) (tree : FileTree) (projectDir : String) : Prop :=
  tree.exists? (pathIn projectDir) = true ∧
    ((∃ e, tree.read (pathIn projectDir) = .error e) ∨
      ∃ bytes e, tree.read (pathIn projectDir) = .ok bytes ∧
        SettingsFile.parse complain (pathIn projectDir) (Text.decode bytes) = .error e)

variable {complain : String → String} {tree : FileTree} {projectDir : String}

theorem exists_loadFile_eq_error_iff :
    (∃ e, loadFile complain tree projectDir = .error e) ↔ FileAtFault complain tree projectDir := by
  -- a file that cannot be loaded is met with any environment, so also with an empty one
  have met (e : LoadError) : loadFile complain tree projectDir = .error e ↔
      load complain tree [] projectDir = .error e := load_eq_error_iff.symm
  simp only [met]
  constructor
  · rintro ⟨e, h⟩
    cases e with
    | file e =>
        obtain ⟨there, unread⟩ := load_eq_error_file_iff.1 h
        exact ⟨there, .inl ⟨e, unread⟩⟩
    | settings e =>
        obtain ⟨there, bytes, content, refused⟩ := load_eq_error_settings_iff.1 h
        exact ⟨there, .inr ⟨bytes, e, content, refused⟩⟩
  · rintro ⟨there, ⟨e, unread⟩ | ⟨bytes, e, content, refused⟩⟩
    · exact ⟨.file e, load_eq_error_file_iff.2 ⟨there, unread⟩⟩
    · exact ⟨.settings e, load_eq_error_settings_iff.2 ⟨there, bytes, content, refused⟩⟩

theorem fileSets_of_loadFile {file : SettingsFile}
    (h : loadFile complain tree projectDir = .ok file) :
    FileSets complain tree projectDir file := by
  rw [loadFile] at h
  by_cases there : tree.exists? (pathIn projectDir) = true
  · rw [if_pos there] at h
    cases content : tree.read (pathIn projectDir) with
    | error e =>
        rw [content] at h
        cases h
    | ok bytes =>
        rw [content] at h
        have accepted := Json.mapError_eq_ok_iff.1 h
        obtain ⟨written, object⟩ := SettingsFile.exists_isObjectText_of_parse accepted
        exact .read there content accepted object
          ((SettingsFile.parse_eq_ok_iff object).1 accepted).2
  · rw [if_neg there] at h
    cases h
    exact .absent (by simpa using there)

theorem load_eq_ok_iff {env : Environment} {s : Settings} :
    load complain tree env projectDir = .ok s ↔
      ∃ file, loadFile complain tree projectDir = .ok file ∧ ofSources file env = s := by
  rw [load]
  cases loadFile complain tree projectDir <;> simp [Except.map]

theorem FileSets.value?_ne_empty {file : SettingsFile} (h : FileSets complain tree projectDir file)
    (field : SettingsField) : file.value? field ≠ some (.string "") := by
  cases h with
  | absent _ => cases field <;> simp [SettingsFile.value?]
  | read there content accepted object values =>
      intro empty
      rw [values] at empty
      have held := ((SettingsFile.parse_eq_ok_iff object).1 accepted).1.accepted field _ empty
      cases field <;> simp [SettingsField.Accepts] at held

/-- No source sets a text field to the empty text, so none that is loaded is empty. -/
theorem value?_ne_empty {env : Environment} {s : Settings}
    (h : load complain tree env projectDir = .ok s)
    (field : SettingsField) : s.value? field ≠ some (.string "") := by
  obtain ⟨file, loaded, rfl⟩ := load_eq_ok_iff.1 h
  rw [value?_ofSources]
  have given : env.setting? field ≠ some (.string "") := by
    intro empty
    obtain ⟨text, ht, empty⟩ := Option.map_eq_some_iff.1 empty
    have filled : text ≠ "" := by simpa using (Option.filter_eq_some_iff.1 ht).2
    cases field <;> simp [SettingsField.ofText, filled] at empty
  have default : ({} : Settings).value? field ≠ some (.string "") := by
    cases field <;> simp [value?]
  have written := (fileSets_of_loadFile loaded).value?_ne_empty field
  cases hs : env.setting? field with
  | some d => rwa [hs] at given
  | none =>
      cases hf : file.value? field with
      | some d => rwa [hf] at written
      | none => exact default

/-- Settings can be loaded unless the settings file is at fault, and then they cannot whatever the
environment says. Each field that is loaded has the value that its variable gives it, else the one
that the file gives it, else its default, and no other variable matters. -/
theorem load_precedence (complain : String → String) (tree : FileTree) (projectDir : String) :
    (FileAtFault complain tree projectDir →
      ∃ e, ∀ env, load complain tree env projectDir = .error e) ∧
    (¬FileAtFault complain tree projectDir → ∃ file, FileSets complain tree projectDir file ∧
      ∀ env, ∃ s, load complain tree env projectDir = .ok s ∧ ∀ field, s.value? field =
        (env.setting? field).or ((file.value? field).or (({} : Settings).value? field))) ∧
    ∀ env env' : Environment,
      (∀ field name, SettingsField.envName? field = some name →
        env.lookup name = env'.lookup name) →
      load complain tree env projectDir = load complain tree env' projectDir := by
  refine ⟨?_, ?_, ?_⟩
  · intro fault
    obtain ⟨e, h⟩ := exists_loadFile_eq_error_iff.2 fault
    exact ⟨e, fun env => load_eq_error_iff.2 h⟩
  · intro fine
    cases loaded : loadFile complain tree projectDir with
    | error e => exact absurd (exists_loadFile_eq_error_iff.1 ⟨e, loaded⟩) fine
    | ok file =>
        refine ⟨file, fileSets_of_loadFile loaded, ?_⟩
        intro env
        exact ⟨_, load_eq_ok_iff.2 ⟨file, loaded, rfl⟩, value?_ofSources file env⟩
  · intro env env' same
    have cargo := same .cargoPath _ rfl
    have qemu := same .qemuPath _ rfl
    have quiet := same .quiet _ rfl
    have sources (file : SettingsFile) : ofSources file env = ofSources file env' := by
      simp only [ofSources, Environment.value?, cargo, qemu, quiet]
    simp only [load, sources]

end Settings

end BootImage
