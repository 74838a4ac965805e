import Frond.Cli.Parse
import Frond.Text.Numeral
import Frond.Text.Blank
import Frond.Scheduler.Basic

/-!
# The program's command line

The program has two commands, each also taking the global switch `-v`/`--verbose`:

* `lex FILE [--arena-block-size BYTES] [--no-fail]` prints the tokens of a source file, or of
  standard input when the file is `-`;
* `sim [--seed N] [--event ACTOR:DELAY]... [--advance MS]` schedules events and prints them in
  delivery order.

Numbers are unsigned decimals of 64 bits. An event is an actor and a delay split at the first
colon, each side trimmed of blanks; the actor has 32 bits. With no words at all the program
shows its help as an error; `help` followed by command names shows the help of the command
they lead to; `-V`/`--version` shows the version.
-/

namespace Frond

namespace Cli

/-- The program's name, as usage lines and the version show it. -/
def programName : String := "fern"

/-- The program's version. -/
def programVersion : String := "0.1.0"

/-- An event to schedule: which actor, after how many milliseconds. -/
structure EventSpec where
  actor : ActorId
  delay : UInt64
  deriving DecidableEq, Repr

/-- Reads `ACTOR:DELAY`. -/
def EventSpec.read (spec : String) : Except String EventSpec :=
  let cs := spec.toList
  match cs.dropWhile (· != ':') with
  | [] => .error ("expected ACTOR:DELAY, got " ++ UsageError.tick spec)
  | _ :: delayChars =>
    let actor := String.ofList (cs.takeWhile (· != ':'))
    let delay := String.ofList delayChars
    match Numeral.read UInt32.size (trimBlank actor) with
    | .error e => .error ("invalid actor id " ++ UsageError.tick actor ++ ": " ++ e.message)
    | .ok a =>
      match Numeral.read UInt64.size (trimBlank delay) with
      | .error e => .error ("invalid delay " ++ UsageError.tick delay ++ ": " ++ e.message)
      | .ok d => .ok ⟨a.toUInt32, d.toUInt64⟩

example : EventSpec.read " 3 : 4 " = .ok ⟨3, 4⟩ := by rfl
example : EventSpec.read "1:2:3" = .error "invalid delay '2:3': invalid digit found in string" := by
  rfl

/-- The value of an option of the program. -/
inductive Setting where
  | count (n : Nat)
  | event (e : EventSpec)

/-- Reads a number of 64 bits. -/
def readCount (raw : String) : Except String Setting :=
  match Numeral.read UInt64.size raw with
  | .ok n => .ok (.count n)
  | .error e => .error e.message

/-- Reads an event. -/
def readEvent (raw : String) : Except String Setting := (EventSpec.read raw).map .event

/-- The global switch for debug logging. -/
def verboseArg : ArgSpec Setting :=
  ⟨"verbose", some 'v', .switch, "Enable debug logging on stderr", none⟩

/-- The help switch. -/
def helpArg : ArgSpec Setting := ⟨"help", some 'h', .help, "Print help", none⟩

/-- The version switch. -/
def versionArg : ArgSpec Setting := ⟨"version", some 'V', .version, "Print version", none⟩

/-- The smallest arena block, the default of `--arena-block-size`. -/
def defaultBlockSize : Nat := 4096

/-- The command that prints tokens. -/
def lexSpec : CommandSpec Setting where
  path := programName ++ " lex"
  about := "Print every token of a source file, one per line"
  args := [
    ⟨"arena-block-size", none, .value ⟨"BYTES", readCount, false⟩,
      "Arena block size (raised to the minimum if smaller)", some (decimal defaultBlockSize)⟩,
    verboseArg,
    ⟨"no-fail", none, .switch, "Exit successfully even when lexical errors are found", none⟩,
    helpArg]
  positional := some ⟨"FILE", "Source file, or '-' for stdin", false, false⟩
  subcommands := []

/-- The command that runs the scheduler. -/
def simSpec : CommandSpec Setting where
  path := programName ++ " sim"
  about := "Schedule actor events and print them in delivery order"
  args := [
    ⟨"seed", none, .value ⟨"SEED", readCount, false⟩,
      "PRNG seed (0 selects the default seed)", some "0"⟩,
    verboseArg,
    ⟨"event", none, .value ⟨"ACTOR:DELAY", readEvent, true⟩,
      "Schedule ACTOR after DELAY ms; may be repeated", none⟩,
    ⟨"advance", none, .value ⟨"MS", readCount, false⟩,
      "Advance the clock before scheduling", none⟩,
    helpArg]
  positional := none
  subcommands := []

/-- The line of help of the `help` command. -/
def helpAbout : String := "Print this message or the help of the given subcommand(s)"

/-- The command that shows help. -/
def helpSpec : CommandSpec Setting where
  path := programName ++ " help"
  about := helpAbout
  args := []
  positional := some ⟨"COMMAND", "Print help for the subcommand(s)", true, true⟩
  subcommands := []

/-- A subcommand as the program's top level lists it. -/
def CommandSpec.asSubcommand (spec : CommandSpec Setting) (name : String) : Subcommand :=
  ⟨name, spec.about, spec.args.map (·.long)⟩

/-- The program's top level. -/
def topSpec : CommandSpec Setting where
  path := programName
  about := "Debugging front end for the Fern core: dump tokens, drive FernSim"
  args := [verboseArg, helpArg, versionArg]
  positional := none
  subcommands :=
    [lexSpec.asSubcommand "lex", simSpec.asSubcommand "sim", ⟨"help", helpAbout, []⟩]

/-- The command a subcommand name stands for. -/
def commandNamed : String → Option (CommandSpec Setting)
  | "lex" => some lexSpec
  | "sim" => some simSpec
  | "help" => some helpSpec
  | _ => none

/-- What `lex` was asked to do. -/
structure LexOptions where
  input : String
  blockSize : Nat
  noFail : Bool

/-- What `sim` was asked to do. -/
structure SimOptions where
  seed : UInt64
  events : List EventSpec
  advance : Option UInt64

/-- A command with its options. -/
inductive Command where
  | lex (o : LexOptions)
  | sim (o : SimOptions)

/-- A command line understood. -/
structure Invocation where
  verbose : Bool
  command : Command

/-- The first count given to an option. -/
def firstCount (m : Matches Setting) (long : String) : Option Nat :=
  (m.values long).findSome? fun
    | .count n => some n
    | .event _ => none

/-- The events given, in order. -/
def eventsOf (m : Matches Setting) : List EventSpec :=
  (m.values "event").filterMap fun
    | .event e => some e
    | .count _ => none

/-- The help that `help` followed by `names` shows: each name must be a subcommand of the
    command before it. -/
def helpFor (spec : CommandSpec Setting) : List String → Halt
  | [] => .help spec.help false
  | name :: more =>
    match (if spec.hasSubcommand name then commandNamed name else none) with
    | some sub => helpFor sub more
    | none => .usage (.unrecognizedSubcommand name [] spec.usage)

/-- The matches of a command with no subcommands. -/
def Level.found {α : Type} : Level α → Matches α
  | .finished m => m
  | .descend m .. => m

/-- Reads the arguments of `lex`. -/
def readLex (verbose : Bool) (args : List String) : Except Halt Invocation := do
  let m := (← level lexSpec .start args).found
  match m.positional with
  | none => throw (.usage (.missingRequired ["<FILE>"] (lexSpec.usageNaming m.used)))
  | some input =>
    pure ⟨verbose || m.has "verbose",
      .lex ⟨input, (firstCount m "arena-block-size").getD defaultBlockSize, m.has "no-fail"⟩⟩

/-- Reads the arguments of `sim`. -/
def readSim (verbose : Bool) (args : List String) : Except Halt Invocation := do
  let m := (← level simSpec .start args).found
  pure ⟨verbose || m.has "verbose",
    .sim ⟨((firstCount m "seed").getD 0).toUInt64, eventsOf m,
      (firstCount m "advance").map Nat.toUInt64⟩⟩

/-- Understands a command line, or says why it stops. -/
def Invocation.ofArgs (args : List String) : Except Halt Invocation := do
  match ← level topSpec .start args with
  | .finished m =>
    if m.given.isEmpty then throw (.help topSpec.help true)
    else throw (.usage (.missingSubcommand programName (topSpec.subcommands.map (·.name))
      topSpec.usage))
  | .descend m name rest =>
    let verbose := m.has "verbose"
    if name == "lex" then readLex verbose rest
    else if name == "sim" then readSim verbose rest
    else throw (helpFor topSpec rest)

/-- The file a command line reads, if any (`-` for standard input). -/
def Invocation.input? (inv : Invocation) : Option String :=
  match inv.command with
  | .lex o => some o.input
  | .sim _ => none

end Cli

end Frond
