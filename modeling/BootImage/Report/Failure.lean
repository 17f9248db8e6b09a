import BootImage.Call.Basic
import BootImage.Dependency.Document
import BootImage.Settings.Load

/-!
# Why a run ends early

A `Failure` is anything that stops a run before it has a status. Faults in the settings and in the
metadata are what a user is expected to meet, and their message says all there is to say. Everything
else is a fault of the program or its surroundings and is announced as an internal error.
-/

namespace BootImage

inductive FailureKind where
  | settings
  | metadata
  | unlistedPackage
  | file
  | start
  | raised
  | thrown
  deriving DecidableEq, Repr

namespace FailureKind

def isExpected : FailureKind → Bool
  | settings | metadata => true
  | unlistedPackage | file | start | raised | thrown => false

def line (k : FailureKind) (message : String) : String :=
  if k.isExpected then message else "Internal error: " ++ message

end FailureKind

inductive Failure where
  /-- the settings file is at fault -/
  | settings (e : SettingsError)
  /-- the dependency could not be found -/
  | metadata (e : MetadataError)
  /-- an edge of the dependency graph leads to a package that is not listed -/
  | unlistedPackage (id : WideText)
  /-- a file could not be read -/
  | file (e : FileError)
  /-- a program could not be started at all -/
  | start (f : StartFault)
  /-- starting a program raised an error -/
  | raised (message : String)
  /-- starting a program threw a plain value, printed here -/
  | thrown (value : String)
  deriving DecidableEq, Repr

namespace Failure

def kind : Failure → FailureKind
  | settings _ => .settings
  | metadata _ => .metadata
  | unlistedPackage _ => .unlistedPackage
  | file _ => .file
  | start _ => .start
  | raised _ => .raised
  | thrown _ => .thrown

def message : Failure → WideText
  | settings e => e.message
  | metadata e => e.message
  | unlistedPackage id =>
    "cargo metadata is inconsistent: package '" ++ id ++ "' is referenced but not listed"
  | file e => e.message
  | start f => f.message
  | raised message => message
  | thrown value => value

def line (f : Failure) : String := f.kind.line f.message.written

def ofLoadError : Settings.LoadError → Failure
  | .settings e => settings e
  | .file e => file e

end Failure

end BootImage
