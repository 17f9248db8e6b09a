import BootImage.Text.Wide

/-!
# Settings

What a project can set for its builds. Every setting but the binary's name has a default value; the
name, where it is not set, is found during the build.

A text that is set is what the settings file says, code unit for code unit. The dependency's name is
compared so with the names of the metadata; the others go to the system as they are written out.
-/

namespace BootImage

def settingsFileName : String := "boot-builder.json"

structure Settings where
  /-- the kernel binary's name, if it is set -/
  binaryName : Option WideText := none
  /-- the target the kernel is compiled for -/
  targetTriple : WideText := "x86_64-unknown-none"
  /-- the manifest's file name in the project's directory -/
  manifestFile : WideText := "Cargo.toml"
  /-- the dependency that builds the disk images -/
  bootloaderDependency : WideText := "bootloader"
  /-- the build tool -/
  cargoPath : WideText := "cargo"
  /-- the emulator -/
  qemuPath : WideText := "qemu-system-x86_64"
  /-- the emulator's firmware, seen from the project's directory -/
  biosPath : WideText := "bios.bin"
  /-- leave out progress lines -/
  quiet : Bool := false
  deriving DecidableEq, Repr, Inhabited

structure SettingsFile where
  binaryName : Option WideText := none
  targetTriple : Option WideText := none
  manifestFile : Option WideText := none
  bootloaderDependency : Option WideText := none
  cargoPath : Option WideText := none
  qemuPath : Option WideText := none
  biosPath : Option WideText := none
  quiet : Option Bool := none
  deriving DecidableEq, Repr, Inhabited

abbrev Environment := List (String × String)

namespace Environment

/-- The value of a variable; an empty value counts as none. -/
def value? (env : Environment) (name : String) : Option String :=
  (env.lookup name).filter fun v => !v.isEmpty

end Environment

end BootImage
