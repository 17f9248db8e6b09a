/-!
# Shell scripts

The programs a build starts may be shell scripts. This is the syntax of the command language they
are written in: simple commands with assignments and redirections, lists, pipelines, conditionals,
loops, case distinctions, groups, functions, and commands that run in the background. Commands know
the line they start on, since complaints name it.
-/

namespace BootImage.Shell

inductive RedirectKind where
  /-- to a file, which is emptied first -/
  | write
  /-- the same, even if files are protected from that -/
  | overwrite
  /-- to the end of a file -/
  | append
  /-- from a file -/
  | read
  /-- to where another descriptor leads -/
  | duplicate
  /-- from a text that is part of the script -/
  | document
  deriving DecidableEq, Repr

mutual

/-- A part of a word. Quoted parts are not split into fields, and their characters have no special
meaning in patterns. -/
inductive Part where
  | text (s : List Char) (quoted : Bool)
  /-- the directory of a user's own; without a name, that of whoever runs the shell -/
  | home (user : String)
  /-- the value of a parameter -/
  | parameter (name : String) (quoted : Bool)
  /-- the value of a parameter, or of `word` under the condition that `operator` names; with
  `emptyToo` an empty value counts as none -/
  | conditional (name : String) (operator : Char) (emptyToo : Bool) (word : List Part)
      (quoted : Bool)
  /-- the value of a parameter without what a pattern matches at its start or end -/
  | trimmed (name : String) (atEnd longest : Bool) (pattern : List Part) (quoted : Bool)
  /-- the length of a parameter's value -/
  | length (name : String) (quoted : Bool)
  /-- the value of an arithmetic expression -/
  | arithmetic (expression : List Part) (quoted : Bool)
  /-- the output of a script -/
  | output (script : Script) (quoted : Bool)
  /-- something between braces that has no value -/
  | malformed

inductive Redirect where
  | mk (descriptor : Nat) (kind : RedirectKind) (target : List Part)

inductive Script where
  | nothing
  | simple (line : Nat) (assignments : List (String × List Part)) (words : List (List Part))
      (redirects : List Redirect)
  | sequence (first second : Script)
  /-- the second if the first succeeds -/
  | both (first second : Script)
  /-- the second if the first fails -/
  | either (first second : Script)
  | negation (body : Script)
  | pipe (first second : Script)
  /-- runs while the script goes on -/
  | background (body : Script)
  | branch (condition yes no : Script)
  /-- as long as the condition succeeds, or with `untilTrue` as long as it fails -/
  | loop (untilTrue : Bool) (condition body : Script)
  /-- once for each field; without words once for each argument -/
  | each (line : Nat) (name : String) (words : Option (List (List Part))) (body : Script)
  | distinguish (line : Nat) (subject : List Part) (arms : List (List (List Part) × Script))
  | function (name : String) (body : Script)
  /-- a compound command with redirections; with `apart` it changes nothing of the shell -/
  | group (line : Nat) (apart : Bool) (body : Script) (redirects : List Redirect)

end

/-- A word: parts that are written without a blank between them. -/
abbrev Word := List Part

instance : Inhabited Script := ⟨.nothing⟩

def specialCommands : List String :=
  [":", ".", "break", "continue", "eval", "exec", "exit", "export", "readonly", "return", "set",
    "shift", "times", "trap", "unset", "local"]

def declaringCommands : List String := ["export", "readonly", "local"]

def isNameChar (c : Char) : Bool := c.isAlphanum || c == '_'

def isGoodName (name : List Char) : Bool :=
  match name with
  | [] => false
  | c :: _ => !c.isDigit && name.all isNameChar

end BootImage.Shell
