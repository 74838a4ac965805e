import Frond.Token.Basic

/-!
# The host

What a program sees of the machine it runs on: its standard input and the files it can read.
Reading a file can fail for the reasons the operating system gives; each reason has a number
and a description, and is written as `description (os error n)`.

`Host.bare` is a machine with no files of its own: only the root directory, the `/dev`
directory, the null device (empty) and `/dev/stdin` (the standard input).
-/

namespace Frond

/-- Why reading a file failed. -/
inductive IoError where
  | notFound
  | isDirectory
  | notADirectory
  | permissionDenied
  /-- Any other failure, by the system's number and description. -/
  | other (code : Nat) (description : String)
  deriving DecidableEq, Repr, Inhabited

namespace IoError

/-- The operating system's number for the failure. -/
def code : IoError → Nat
  | .notFound => 2
  | .permissionDenied => 13
  | .notADirectory => 20
  | .isDirectory => 21
  | .other code _ => code

/-- The operating system's description of the failure. -/
def description : IoError → String
  | .notFound => "No such file or directory"
  | .permissionDenied => "Permission denied"
  | .notADirectory => "Not a directory"
  | .isDirectory => "Is a directory"
  | .other _ description => description

/-- The failure with a system number, described by `description` when the number is not one of
    the named failures. -/
def ofCode (code : Nat) (description : String) : IoError :=
  match code with
  | 2 => .notFound
  | 13 => .permissionDenied
  | 20 => .notADirectory
  | 21 => .isDirectory
  | _ => .other code description

/-- The written form: description, then the number. -/
def message (e : IoError) : String :=
  e.description ++ " (os error " ++ decimal e.code ++ ")"

example : message .notFound = "No such file or directory (os error 2)" := by decide

end IoError

/-- Standard input and a way to read files by path. -/
structure Host where
  stdin : Bytes
  readFile : String → Except IoError Bytes

namespace Host

/-- The parts of a path between its slashes, `cur` being the part read so far, reversed. -/
def splitParts (cur : List Char) : List Char → List (List Char)
  | [] => [cur.reverse]
  | c :: cs => if c == '/' then cur.reverse :: splitParts [] cs else splitParts (c :: cur) cs

/-- What a name inside a directory of the bare machine is: a directory, a file with its
    contents, or nothing. The directories are `/` and `/dev`; the files are `/dev/null`
    (empty) and `/dev/stdin` (the standard input). -/
def bareEntry (stdin : Bytes) : List (List Char) → List Char → Option (Option Bytes)
  | [], ['d', 'e', 'v'] => some none
  | [['d', 'e', 'v']], ['n', 'u', 'l', 'l'] => some (some [])
  | [['d', 'e', 'v']], ['s', 't', 'd', 'i', 'n'] => some (some stdin)
  | _, _ => none

/-- Whether a part of a path stays in its directory: it is empty or `.`. -/
def staysHere (p : List Char) : Bool := p == [] || p == ['.']

/-- Follows the parts of an absolute path from the directory `dir`. An empty part and `.` stay,
    `..` goes up (not above the root); a file must be the last part, and a path ending in a
    directory names no file. -/
def walkAbsolute (stdin : Bytes) (dir : List (List Char)) :
    List (List Char) → Except IoError Bytes
  | [] => .error .isDirectory
  | p :: rest =>
    if staysHere p then walkAbsolute stdin dir rest
    else if p == ['.', '.'] then walkAbsolute stdin dir.dropLast rest
    else match bareEntry stdin dir p with
      | none => .error .notFound
      | some none => walkAbsolute stdin (dir ++ [p]) rest
      | some (some contents) => if rest.isEmpty then .ok contents else .error .notADirectory

/-- Follows the parts of a relative path from the working directory, an empty directory.
    Above it are only directories, with nothing known in them. -/
def walkRelative : List (List Char) → Except IoError Bytes
  | [] => .error .isDirectory
  | p :: rest =>
    if staysHere p || p == ['.', '.'] then walkRelative rest
    else .error .notFound

/-- Reading a path on a machine with no files of its own. -/
def bareRead (stdin : Bytes) (path : String) : Except IoError Bytes :=
  match splitParts [] path.toList with
  | [[]] => .error .notFound
  | [] :: parts => walkAbsolute stdin [] parts
  | parts => walkRelative parts

example : bareRead [] "/dev/null/" = .error .notADirectory := by rfl
example : bareRead [1] "/dev/../dev/./stdin" = .ok [1] := by rfl
example : bareRead [] "/" = .error .isDirectory := by rfl
example : bareRead [] "" = .error .notFound := by rfl
example : bareRead [] "no_such_dir/missing.fn" = .error .notFound := by rfl

/-- A machine with no files of its own, with the given standard input. -/
def bare (stdin : Bytes) : Host := ⟨stdin, bareRead stdin⟩

end Host

end Frond
