import BootImage.Files.Change
import BootImage.Text.Utf8

/-!
# The system around a project

Besides the files of a project a machine has those of its system: the usual directories, a few files
that everyone may read, and the programs that are installed with it. `/bin`, `/sbin` and the
library directories are links to those below `/usr`.
-/

namespace BootImage

namespace System

def directories : List Location :=
  [["boot"], ["dev"], ["dev", "shm"], ["etc"], ["home"], ["media"], ["mnt"], ["opt"], ["proc"],
    ["root"], ["run"], ["srv"], ["sys"], ["tmp"], ["usr"], ["usr", "bin"], ["usr", "games"],
    ["usr", "include"], ["usr", "lib"], ["usr", "lib64"], ["usr", "local"], ["usr", "local", "bin"],
    ["usr", "local", "etc"], ["usr", "local", "include"], ["usr", "local", "lib"],
    ["usr", "local", "sbin"], ["usr", "local", "share"], ["usr", "local", "src"], ["usr", "sbin"],
    ["usr", "share"], ["usr", "src"], ["var"], ["var", "cache"], ["var", "lib"], ["var", "log"],
    ["var", "tmp"]]

def links : List (Location × String) :=
  [(["bin"], "usr/bin"), (["sbin"], "usr/sbin"), (["lib"], "usr/lib"), (["lib64"], "usr/lib64"),
    (["usr", "bin", "sh"], "dash")]

def dataFiles : List (Location × String) :=
  [(["dev", "null"], ""), (["dev", "zero"], ""), (["dev", "full"], ""), (["dev", "stdin"], ""),
    (["dev", "stdout"], ""), (["dev", "stderr"], ""),
    (["etc", "passwd"], "root:x:0:0:root:/root:/bin/bash\n"), (["etc", "group"], "root:x:0:\n"),
    (["etc", "hosts"], "127.0.0.1\tlocalhost\n"), (["etc", "hostname"], "localhost\n"),
    (["etc", "resolv.conf"], ""), (["etc", "fstab"], ""), (["etc", "profile"], "")]

def programs : List String :=
  ["[", "basename", "bash", "cat", "chmod", "cp", "cut", "dash", "dd", "dirname", "echo", "env",
    "expr", "false", "find", "grep", "head", "ln", "ls", "mkdir", "mv", "nice", "nohup", "printenv",
    "printf", "pwd", "readlink", "realpath", "rm", "rmdir", "sed", "seq", "sleep", "sort", "tail",
    "tee", "test", "timeout", "touch", "tr", "true", "truncate", "uniq", "wc", "which", "xargs"]

def entries : List (Location × Entry) :=
  directories.map (·, .directory) ++ links.map (fun (l, target) => (l, .link target)) ++
    dataFiles.map (fun (l, text) => (l, .file (Text.encode text) false)) ++
    programs.map fun name => (["usr", "bin", name], .program name)

end System

/-- A machine with nothing but its system, seen from `origin`. -/
def FileTree.ofSystem (origin : String) : FileTree := ⟨origin, System.entries⟩

end BootImage
