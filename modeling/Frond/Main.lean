import Frond.Cli.Run

/-!
# The program

Reads what the command line asks to read, runs the program on it, and writes the outcome.
-/

namespace Frond.Cli

/-- The system's error number, which some reads report negated. -/
def errorNumber (code : UInt32) : Nat :=
  if code.toNat ≥ Nat.pow 2 31 then UInt32.size - code.toNat else code.toNat

/-- The host failure a failed read stands for. -/
def readFailure (e : IO.Error) : IoError :=
  match e with
  | .noFileOrDirectory _ code _ | .permissionDenied _ code _ | .inappropriateType _ code _
  | .invalidArgument _ code _ | .otherError code _ | .hardwareFault code _ =>
    IoError.ofCode (errorNumber code) (toString e)
  | _ => .other 0 (toString e)

/-- The machine as the command line sees it: standard input when it reads `-`, and the one
    file it names otherwise. -/
def hostFor (args : List String) : IO Host := do
  match Invocation.ofArgs args with
  | .ok inv =>
    match inv.input? with
    | some "-" =>
      let stdin ← (← IO.getStdin).readBinToEnd
      pure (Host.bare stdin.toList)
    | some path =>
      let result : Except IoError Bytes ←
        try
          let bytes ← IO.FS.readBinFile path
          pure (.ok bytes.toList)
        catch e =>
          pure (.error (readFailure e))
      pure ⟨[], fun p => if p == path then result else .error .notFound⟩
    | none => pure (Host.bare [])
  | .error _ => pure (Host.bare [])

end Frond.Cli

def main (args : List String) : IO UInt32 := do
  let outcome := Frond.Cli.run (← Frond.Cli.hostFor args) args
  IO.print outcome.stdout
  IO.eprint outcome.stderr
  pure outcome.status.toUInt32
