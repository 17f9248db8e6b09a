import BootImage.Report.Event

/-!
# How the lines of a report begin

Every line of a report begins with words that its kind alone decides; what it tells of comes after
them. So two lines whose opening words differ, none of them a beginning of the other, are different
texts whatever paths, commands and messages they hold, and a reader can tell the kinds of lines
apart.
-/

namespace BootImage

def SettingsError.opening (e : SettingsError) : String :=
  match e.fault with
  | .notJson _ => "Invalid JSON in "
  | .illFormed _ => "Invalid "

def MetadataError.opening : MetadataError → String
  | notStarted .. => "Failed to query project metadata: could not start '"
  | failed .. => "Failed to query project metadata: '"
  | notJson _ => "cargo metadata output is not valid JSON: "
  | illFormed _ => "Unexpected cargo metadata format"
  | dependencyNotFound _ => "No dependency '"

def Failure.opening : Failure → String
  | settings e => e.opening
  | metadata e => e.opening
  | unlistedPackage _ | file _ | start _ | raised _ | thrown _ => "Internal error: "

def Problem.opening : Problem → String
  | failure f => f.opening
  | outDirNotMade .. => "Failed to create output directory "
  | notFound _ => "Error: '"
  | emulatorNeeded => "QEMU needs to be installed to use 'run'."
  | emulatorSource => "To install, follow instructions at https://www.qemu.org/download/."
  | notStarted .. => "Error: failed to start '"
  | signalled _ => "process exited due to signal "
  | imageMissing _ => "Warning: expected disk image not found: "

def Progress.opening : Progress → String
  | running .. => "Running: "
  | diskImages => "Disk images:"
  | diskImage _ => "  "
  | waitingForDebugger => "QEMU is waiting for gdb on tcp::1234"

def Line.opening : Line → String
  | progress p => p.opening
  | problem p => p.opening
  | detail d => "[boot-builder:" ++ d.component.name

def OpensWith (opening text : String) : Prop := opening.toList <+: text.toList

namespace OpensWith

variable {opening text : String}

theorem self (text : String) : OpensWith text text := List.prefix_rfl

theorem append (h : OpensWith opening text) (rest : String) : OpensWith opening (text ++ rest) := by
  rw [OpensWith, String.toList_append]
  exact h.trans (List.prefix_append _ _)

theorem wide (words : String) (rest : WideText) :
    OpensWith words (WideText.ofString words ++ rest).written := by
  rw [WideText.written_ofString_append]
  exact (self words).append _

end OpensWith

instance (opening text : String) : Decidable (OpensWith opening text) :=
  inferInstanceAs (Decidable (opening.toList <+: text.toList))

theorem SettingsError.opens (e : SettingsError) : OpensWith e.opening e.message.written := by
  obtain ⟨path, fault⟩ := e
  cases fault with
  | notJson complaint =>
      rw [message, WideText.written_ofString]
      exact (((OpensWith.self _).append _).append _).append _
  | illFormed issues =>
      change OpensWith "Invalid " (WideText.ofString "Invalid " ++ _ ++ _).written
      rw [WideText.append_assoc]
      exact .wide _ _

theorem MetadataError.opens (e : MetadataError) : OpensWith e.opening e.message.written := by
  cases e with
  | notStarted command message =>
      rw [MetadataError.message, WideText.written_ofString]
      exact (((OpensWith.self _).append _).append _).append _
  | failed command exitCode =>
      rw [message, WideText.written_ofString]
      exact (((OpensWith.self _).append _).append _).append _
  | notJson complaint =>
      rw [message, WideText.written_ofString]
      exact (OpensWith.self _).append _
  | illFormed issue =>
      rw [message, WideText.append_assoc, WideText.append_assoc]
      exact .wide _ _
  | dependencyNotFound name =>
      rw [message, WideText.append_assoc]
      exact .wide _ _

theorem Failure.opens (f : Failure) : OpensWith f.opening f.line := by
  cases f with
  | settings e => exact e.opens
  | metadata e => exact e.opens
  | _ => exact (OpensWith.self _).append _

theorem Problem.opens (p : Problem) : OpensWith p.opening p.text := by
  cases p with
  | failure f => exact f.opens
  | outDirNotMade path e => exact (((OpensWith.self _).append _).append _).append _
  | notFound command => exact ((OpensWith.self _).append _).append _
  | notStarted command message => exact (((OpensWith.self _).append _).append _).append _
  | signalled signal => exact (OpensWith.self _).append _
  | imageMissing path => exact (OpensWith.self _).append _
  | _ => exact .self _

theorem Progress.opens (p : Progress) : OpensWith p.opening p.text := by
  cases p with
  | running command args => exact (OpensWith.self _).append _
  | diskImage path => exact (OpensWith.self _).append _
  | _ => exact .self _

def Line.openings : List String :=
  ["Running: ", "Disk images:", "  ", "QEMU is waiting for gdb on tcp::1234", "Invalid JSON in ",
    "Invalid ", "Failed to query project metadata: could not start '",
    "Failed to query project metadata: '", "cargo metadata output is not valid JSON: ",
    "Unexpected cargo metadata format", "No dependency '", "Internal error: ",
    "Failed to create output directory ", "Error: '", "QEMU needs to be installed to use 'run'.",
    "To install, follow instructions at https://www.qemu.org/download/.",
    "Error: failed to start '", "process exited due to signal ",
    "Warning: expected disk image not found: ", "[boot-builder:args", "[boot-builder:metadata",
    "[boot-builder:pipeline", "[boot-builder:exec"]

theorem Line.opening_mem (l : Line) : l.opening ∈ openings := by
  cases l with
  | progress p => cases p <;> simp [opening, Progress.opening, openings]
  | problem p =>
      have settings (e : SettingsError) : e.opening ∈ openings := by
        rw [SettingsError.opening]
        split <;> simp [openings]
      have metadata (e : MetadataError) : e.opening ∈ openings := by
        cases e <;> simp [MetadataError.opening, openings]
      cases p with
      | failure f =>
          cases f with
          | settings e => exact settings e
          | metadata e => exact metadata e
          | _ => simp [opening, Problem.opening, Failure.opening, openings]
      | _ => simp [opening, Problem.opening, openings]
  | detail d =>
      rw [opening]
      cases d.component <;> decide

theorem Line.opens (l : Line) : OpensWith l.opening (l.kind.render l.text) := by
  cases l with
  | progress p => exact p.opens.append _
  | problem p => exact p.opens.append _
  | detail d => exact (((OpensWith.self _).append _).append _).append _

/-- Words that can be taken for the opening words of no other line tell the lines that they open. -/
theorem Line.opensWith_iff {mark : String}
    (distinct : ∀ words ∈ openings, words = mark ∨ ¬OpensWith words mark ∧ ¬OpensWith mark words)
    (l : Line) : OpensWith mark (l.kind.render l.text) ↔ l.opening = mark := by
  constructor
  · intro h
    refine (distinct _ l.opening_mem).resolve_right ?_
    rintro ⟨longer, shorter⟩
    rcases List.prefix_or_prefix_of_prefix l.opens h with hp | hp
    · exact longer hp
    · exact shorter hp
  · rintro rfl
    exact l.opens

theorem Failure.opening_eq_internal_iff (f : Failure) :
    f.opening = "Internal error: " ↔ f.kind.isExpected = false := by
  cases f with
  | settings e =>
      obtain ⟨path, fault⟩ := e
      cases fault <;> simp [opening, SettingsError.opening, kind, FailureKind.isExpected]
  | metadata e =>
      cases e <;> simp [opening, MetadataError.opening, kind, FailureKind.isExpected]
  | _ => simp [opening, kind, FailureKind.isExpected]

theorem Failure.opening_ne_running (f : Failure) : f.opening ≠ "Running: " := by
  cases f with
  | settings e =>
      obtain ⟨path, fault⟩ := e
      cases fault <;> simp [opening, SettingsError.opening]
  | metadata e => cases e <;> simp [opening, MetadataError.opening]
  | _ => simp [opening]

/-- Only announcements look like announcements. -/
theorem Line.opensWith_running_iff (l : Line) :
    OpensWith "Running: " (l.kind.render l.text) ↔
      ∃ command args, l = .progress (.running command args) := by
  rw [opensWith_iff (by decide)]
  cases l with
  | progress p => cases p <;> simp [opening, Progress.opening]
  | problem p =>
      cases p with
      | failure f => simp [opening, Problem.opening, f.opening_ne_running]
      | _ => simp [opening, Problem.opening]
  | detail d => cases h : d.component <;> simp [opening, h, Component.name]

/-- Only what no user is expected to meet looks like an internal error. -/
theorem Line.opensWith_internal_iff (l : Line) :
    OpensWith "Internal error: " (l.kind.render l.text) ↔
      ∃ f : Failure, f.kind.isExpected = false ∧ l = .problem (.failure f) := by
  rw [opensWith_iff (by decide)]
  cases l with
  | progress p => cases p <;> simp [opening, Progress.opening]
  | problem p =>
      cases p with
      | failure f => simp [opening, Problem.opening, f.opening_eq_internal_iff]
      | _ => simp [opening, Problem.opening]
  | detail d => cases h : d.component <;> simp [opening, h, Component.name]

end BootImage
