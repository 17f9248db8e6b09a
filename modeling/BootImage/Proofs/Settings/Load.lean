import BootImage.Proofs.Json.Readers
import BootImage.Settings.Load

/-!
# When settings cannot be loaded

Settings cannot be loaded in two ways: the settings file of the project is there and cannot be read,
or it can be read and is no settings file. The environment has no part in either.
-/

namespace BootImage.Settings

variable {complain : String → String} {tree : FileTree} {env : Environment} {projectDir : String}

theorem load_eq_error_iff {e : LoadError} :
    load complain tree env projectDir = .error e ↔
      loadFile complain tree projectDir = .error e := by
  rw [load]
  cases loadFile complain tree projectDir <;> simp [Except.map]

theorem load_eq_error_file_iff {e : FileError} :
    load complain tree env projectDir = .error (.file e) ↔
      tree.exists? (pathIn projectDir) = true ∧ tree.read (pathIn projectDir) = .error e := by
  rw [load_eq_error_iff, loadFile]
  by_cases there : tree.exists? (pathIn projectDir) = true
  · rw [if_pos there]
    cases tree.read (pathIn projectDir) with
    | error e' => simp [there]
    | ok bytes =>
        simp [Json.mapError_eq_error_iff]
  · simp [there]

theorem load_eq_error_settings_iff {e : SettingsError} :
    load complain tree env projectDir = .error (.settings e) ↔
      tree.exists? (pathIn projectDir) = true ∧ ∃ bytes, tree.read (pathIn projectDir) = .ok bytes ∧
        SettingsFile.parse complain (pathIn projectDir) (Text.decode bytes) = .error e := by
  rw [load_eq_error_iff, loadFile]
  by_cases there : tree.exists? (pathIn projectDir) = true
  · rw [if_pos there]
    cases tree.read (pathIn projectDir) with
    | error e' => simp [there]
    | ok bytes =>
        simp [there, Json.mapError_eq_error_iff]
  · simp [there]

end BootImage.Settings
