import BootImage.Text.NullByte

/-!
# Refusals

The system refuses what cannot be done with its files and programs, and says why. Each reason has a
code, a phrase in which this program tells of it, and a phrase in which the tools of the system do.
A `FileError` is a refusal together with what was to be done.
-/

namespace BootImage

inductive Refusal where
  | notFound
  | notDirectory
  | isDirectory
  | alreadyExists
  | nameTooLong
  | linkLoop
  | denied
  | notEmpty
  | sameFile
  | notExecutable
  | tooManyWords
  | badDescriptor
  | noSpace
  deriving DecidableEq, Repr

namespace Refusal

def code : Refusal → String
  | notFound => "ENOENT"
  | notDirectory => "ENOTDIR"
  | isDirectory => "EISDIR"
  | alreadyExists => "EEXIST"
  | nameTooLong => "ENAMETOOLONG"
  | linkLoop => "ELOOP"
  | denied => "EACCES"
  | notEmpty => "ENOTEMPTY"
  | sameFile => "EINVAL"
  | notExecutable => "ENOEXEC"
  | tooManyWords => "E2BIG"
  | badDescriptor => "EBADF"
  | noSpace => "ENOSPC"

def phrase : Refusal → String
  | notFound => "no such file or directory"
  | notDirectory => "not a directory"
  | isDirectory => "illegal operation on a directory"
  | alreadyExists => "file already exists"
  | nameTooLong => "name too long"
  | linkLoop => "too many symbolic links encountered"
  | denied => "permission denied"
  | notEmpty => "directory not empty"
  | sameFile => "invalid argument"
  | notExecutable => "exec format error"
  | tooManyWords => "argument list too long"
  | badDescriptor => "bad file descriptor"
  | noSpace => "no space left on device"

def description : Refusal → String
  | notFound => "No such file or directory"
  | notDirectory => "Not a directory"
  | isDirectory => "Is a directory"
  | alreadyExists => "File exists"
  | nameTooLong => "File name too long"
  | linkLoop => "Too many levels of symbolic links"
  | denied => "Permission denied"
  | notEmpty => "Directory not empty"
  | sameFile => "Invalid argument"
  | notExecutable => "Exec format error"
  | tooManyWords => "Argument list too long"
  | badDescriptor => "Bad file descriptor"
  | noSpace => "No space left on device"

end Refusal

inductive FileError where
  | makingDirectory (why : Refusal) (path : String)
  | opening (why : Refusal) (path : String)
  /-- a directory was read as if it were a file -/
  | readingDirectory
  | nullByte (f : Text.NullFault)
  deriving DecidableEq, Repr

namespace FileError

def ofNull (path : String) : FileError := .nullByte ⟨"argument 'path'", true, path⟩

def message : FileError → String
  | makingDirectory why path => s!"{why.code}: {why.phrase}, mkdir '{path}'"
  | opening why path => s!"{why.code}: {why.phrase}, open '{path}'"
  | readingDirectory => s!"{Refusal.isDirectory.code}: {Refusal.isDirectory.phrase}, read"
  | nullByte f => f.message

end FileError

end BootImage
