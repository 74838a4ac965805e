/-!
# Command-line grammars

A command is described by data (`CommandSpec`): its long and short arguments, the one
positional argument it may take, and its subcommands. From the description come the texts a
user sees besides the program's own output:

* an argument is named `--long` in messages, an option with its value's name: `--seed <SEED>`;
* the usage line lists the command's path, `[OPTIONS]` when it has options other than help and
  version, its positional argument and, for a command with subcommands, `<COMMAND>`; once some
  arguments were given, those arguments stand in place of `[OPTIONS]`;
* the help text is the description, the usage line, and a section each for the subcommands,
  the positional argument and the options, in that order, the descriptions of each section
  starting in one column two spaces after the widest entry.
-/

namespace Frond

namespace Cli

/-- How an option's value is read, and whether the option may be given more than once. -/
structure ValueSpec (α : Type) where
  /-- The value's name in messages, such as `SEED`. -/
  name : String
  /-- Reads the value, or says why it is not one. -/
  read : String → Except String α
  /-- Whether every occurrence adds a value. -/
  repeatable : Bool

/-- What an argument does when it is given. -/
inductive ArgAction (α : Type) where
  /-- A switch: present or not. -/
  | switch
  /-- An option with one value. -/
  | value (v : ValueSpec α)
  /-- Shows the help of the command. -/
  | help
  /-- Shows the program's version. -/
  | version

/-- A named argument: its long name, its short letter, what it does, and its line of help. -/
structure ArgSpec (α : Type) where
  long : String
  short : Option Char
  action : ArgAction α
  about : String
  /-- The default value shown in help, if any. -/
  shownDefault : Option String

namespace ArgSpec

variable {α : Type}

/-- How an argument is named in messages: `--no-fail`, or `--seed <SEED>` for an option. -/
def display (a : ArgSpec α) : String :=
  "--" ++ a.long ++ match a.action with
    | .value v => " <" ++ v.name ++ ">"
    | _ => ""

/-- Whether the argument is the help or the version switch. -/
def isBuiltin (a : ArgSpec α) : Bool :=
  match a.action with
  | .help | .version => true
  | _ => false

end ArgSpec

/-- A positional argument: its value's name and its line of help. -/
structure Positional where
  name : String
  about : String
  /-- Whether it may be left out. -/
  optional : Bool
  /-- Whether it takes any number of values. -/
  many : Bool

/-- How a positional argument is named: `<FILE>`, or `[COMMAND]...` when optional and many. -/
def Positional.display (p : Positional) : String :=
  (if p.optional then "[" ++ p.name ++ "]" else "<" ++ p.name ++ ">") ++
    (if p.many then "..." else "")

/-- A subcommand as its parent sees it: its name, its line of help, and the long names it
    takes (to point a mistyped argument of the parent to the subcommand that has it). -/
structure Subcommand where
  name : String
  about : String
  longs : List String

/-- A command: the path it is called by (such as `fern lex`), its description, its named
    arguments in the order help lists them, its positional argument, and its subcommands. -/
structure CommandSpec (α : Type) where
  path : String
  about : String
  args : List (ArgSpec α)
  positional : Option Positional
  subcommands : List Subcommand

namespace CommandSpec

variable {α : Type}

/-- The argument with a long name. -/
def findLong (spec : CommandSpec α) (name : String) : Option (ArgSpec α) :=
  spec.args.find? (·.long == name)

/-- The argument with a short letter. -/
def findShort (spec : CommandSpec α) (c : Char) : Option (ArgSpec α) :=
  spec.args.find? (·.short == some c)

/-- Whether a word names a subcommand. -/
def hasSubcommand (spec : CommandSpec α) (name : String) : Bool :=
  spec.subcommands.any (·.name == name)

/-- The end of every usage line: the positional argument and the subcommand slot. -/
def usageTail (spec : CommandSpec α) : List String :=
  (spec.positional.map Positional.display).toList ++
    (if spec.subcommands.isEmpty then [] else ["<COMMAND>"])

/-- The usage line of help and of most errors: `Usage: fern lex [OPTIONS] <FILE>`. -/
def usage (spec : CommandSpec α) : String :=
  let options := if spec.args.any (!·.isBuiltin) then ["[OPTIONS]"] else []
  "Usage: " ++ " ".intercalate (spec.path :: options ++ spec.usageTail)

/-- The usage line naming the arguments given so far, by long name in first-use order. -/
def usageNaming (spec : CommandSpec α) (used : List String) : String :=
  let shown := used.eraseDups.filterMap fun l => (spec.findLong l).map ArgSpec.display
  "Usage: " ++ " ".intercalate (spec.path :: shown ++ spec.usageTail)

/-- The usage line after the given arguments: the plain one when none were given. -/
def usageAfter (spec : CommandSpec α) (used : List String) : String :=
  if used.isEmpty then spec.usage else spec.usageNaming used

/-- A run of `n` spaces. -/
def spaces (n : Nat) : String := String.ofList (List.replicate n ' ')

/-- The widest of some texts. -/
def widest (texts : List String) : Nat := texts.foldl (fun w t => max w t.length) 0

/-- One line of the options section. -/
def optionLine (width : Nat) (a : ArgSpec α) : String :=
  let short := match a.short with
    | some c => "-" ++ String.singleton c ++ ", "
    | none => "    "
  let default := match a.shownDefault with
    | some d => " [default: " ++ d ++ "]"
    | none => ""
  "  " ++ short ++ a.display ++ spaces (width + 2 - a.display.length) ++ a.about ++ default

/-- The sections of the help text, each with its heading. -/
def sections (spec : CommandSpec α) : List String :=
  let commands :=
    if spec.subcommands.isEmpty then []
    else
      let w := widest (spec.subcommands.map (·.name))
      ["Commands:\n" ++ "\n".intercalate (spec.subcommands.map fun s =>
        "  " ++ s.name ++ spaces (w + 2 - s.name.length) ++ s.about)]
  let arguments := match spec.positional with
    | some p => ["Arguments:\n  " ++ p.display ++ "  " ++ p.about]
    | none => []
  let options :=
    if spec.args.isEmpty then []
    else
      let w := widest (spec.args.map ArgSpec.display)
      ["Options:\n" ++ "\n".intercalate (spec.args.map (optionLine w))]
  commands ++ arguments ++ options

/-- The help text of a command. -/
def help (spec : CommandSpec α) : String :=
  spec.about ++ "\n\n" ++ spec.usage ++ "\n\n" ++ "\n\n".intercalate spec.sections ++ "\n"

end CommandSpec

end Cli

end Frond
