import Frond.Cli.Invocation
import Frond.TokenStream
import Frond.Arena.Basic
import Frond.Text.Quoted

/-!
# Running the program

`run host args` is everything the program does, as a value: the exit status and the texts
written to standard output and standard error.

* A command line that is not understood exits with 2 and its usage error; help and the version
  are shown on standard output with status 0 (help shown because nothing was given goes to
  standard error with status 2).
* `lex` prints a line `LINE:COLUMN<tab>KIND<tab>"TEXT"` per token, the text in its debugging
  form, and each diagnostic's rendering on standard error. Diagnostics make it fail unless
  `--no-fail` was given.
* `sim` moves the clock first, then schedules the events in order, and prints
  `t=NOW actor=A deliver_at=T seq=N` per delivered event.
* A failure exits with 1 and is written `Error: ` and its message, followed by its causes
  under `Caused by:`: one cause indented by four spaces, several numbered from 0.
-/

namespace Frond

namespace Cli

/-- What a run of the program did: its exit status and what it wrote. -/
structure Outcome where
  status : Nat
  stdout : String
  stderr : String
  deriving DecidableEq, Repr

/-- A failure with its message and its chain of causes, as written on standard error. -/
def errorReport (message : String) (causes : List String) : String :=
  let chain := match causes with
    | [] => ""
    | [c] => "\n\nCaused by:\n    " ++ c
    | cs => "\n\nCaused by:" ++ String.join (cs.zipIdx.map fun (c, i) =>
      "\n" ++ CommandSpec.spaces (5 - (decimal i).length) ++ decimal i ++ ": " ++ c)
  "Error: " ++ message ++ chain ++ "\n"

example : errorReport "a" ["b", "c"] = "Error: a\n\nCaused by:\n    0: b\n    1: c\n" := by decide

/-- A failed run, after what it wrote so far. -/
def Outcome.failure (stdout stderr message : String) (causes : List String) : Outcome :=
  ⟨1, stdout, stderr ++ errorReport message causes⟩

/-- What the program does when reading the command line stopped. -/
def Halt.outcome : Halt → Outcome
  | .usage e => ⟨2, "", e.render⟩
  | .help text false => ⟨0, text, ""⟩
  | .help text true => ⟨2, "", text⟩
  | .version => ⟨0, programName ++ " " ++ programVersion ++ "\n", ""⟩

/-- The name and the bytes of the input: `-` is standard input, named `<stdin>`. -/
def loadInput (host : Host) (input : String) : Except SourceError (String × Bytes) :=
  if input == "-" then .ok ("<stdin>", host.stdin)
  else (TokenStream.readSource host input).map fun b => (input, b)

/-- The line printed for a token. -/
def tokenLine (t : Token) : String :=
  decimal t.loc.line ++ ":" ++ decimal t.loc.column ++ "\t" ++ t.kind.name ++ "\t" ++
    t.text.quoted ++ "\n"

/-- Prints the tokens of the input. -/
def runLex (host : Host) (o : LexOptions) : Outcome :=
  match Arena.create .standard o.blockSize with
  | .error e => .failure "" "" "failed to create arena" [e.message]
  | .ok _ =>
    match loadInput host o.input with
    | .error e => .failure "" "" ("failed to read input file " ++ o.input) e.causes
    | .ok (name, source) =>
      let s := TokenStream.tokenize (Bytes.ofString name) source
      let out := String.join (s.tokens.map tokenLine)
      let err := String.join (s.diagnostics.map fun d => d.render s.source ++ "\n")
      let errors := s.diagnostics.length
      if errors > 0 && !o.noFail then
        .failure out err (decimal errors ++ " lexical error(s) in " ++ name) []
      else ⟨0, out, err⟩

/-- The line printed for a delivered event. -/
def eventLine (e : Event) (now : UInt64) : String :=
  "t=" ++ decimal now.toNat ++ " actor=" ++ decimal e.actor.toNat ++ " deliver_at=" ++
    decimal e.deliverAt.toNat ++ " seq=" ++ decimal e.seq.toNat ++ "\n"

/-- The scheduler after the clock moved and the events were queued, or the failed run. -/
def prepare (o : SimOptions) : Except Outcome Scheduler := do
  let s := Scheduler.create o.seed
  let s ← match o.advance with
    | none => pure s
    | some d => (s.advance d).mapError fun e =>
      Outcome.failure "" "" ("cannot advance clock by " ++ decimal d.toNat ++ " ms") [e.message]
  let queue (s : Scheduler) (ev : EventSpec) : Except Outcome Scheduler :=
    ((s.schedule ev.actor ev.delay).map (·.2)).mapError fun e =>
      Outcome.failure "" "" ("cannot schedule actor " ++ decimal ev.actor.toNat ++ " after " ++
        decimal ev.delay.toNat ++ " ms") [e.message]
  o.events.foldlM queue s

/-- Delivers the scheduled events in order. -/
def runSim (o : SimOptions) : Outcome :=
  match prepare o with
  | .error out => out
  | .ok s => ⟨0, String.join (s.runUntilIdle.1.map fun (e, now) => eventLine e now), ""⟩

/-- Runs a command understood. -/
def Invocation.run (host : Host) (inv : Invocation) : Outcome :=
  match inv.command with
  | .lex o => runLex host o
  | .sim o => runSim o

/-- Runs the program on a command line. -/
def run (host : Host) (args : List String) : Outcome :=
  match Invocation.ofArgs args with
  | .error h => h.outcome
  | .ok inv => inv.run host

end Cli

end Frond
