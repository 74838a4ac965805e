/-!
# Usage errors

Why a command line was not understood. Each error is written as `error: ` and a headline,
then its tips, then a usage line when it has one, and last a pointer to `--help`:

```
error: unexpected argument '-1' found

  tip: to pass '-1' as a value, use '-- -1'

Usage: fern lex [OPTIONS] <FILE>

For more information, try '--help'.
```

A tip naming a similar argument or subcommand comes first; the other tips follow it on the
next lines. Errors about a value carry no usage line.
-/

namespace Frond

namespace Cli

/-- Why a command line was not understood. -/
inductive UsageError where
  /-- The reader of `arg` refused `value` for `reason`. -/
  | invalidValue (arg value reason : String)
  /-- An option was given no value. -/
  | missingValue (arg : String)
  /-- An argument that nothing takes; `similar` is a known argument close to it. -/
  | unexpectedArgument (arg : String) (similar : Option String) (tips : List String)
      (usage : String)
  /-- An argument given a second time. -/
  | repeated (arg usage : String)
  /-- A value attached to an argument that takes none. -/
  | unexpectedValue (value arg usage : String)
  /-- Required arguments that were not given. -/
  | missingRequired (args : List String) (usage : String)
  /-- A command that needs a subcommand was given none. -/
  | missingSubcommand (command : String) (subcommands : List String) (usage : String)
  /-- A word in a subcommand's place that names none; `similar` lists close names. -/
  | unrecognizedSubcommand (name : String) (similar : List String) (usage : String)
  /-- A subcommand name after `--`, where it is only a value. -/
  | needlessSeparator (subcommand usage : String)

namespace UsageError

/-- A text in single quotes. -/
def tick (s : String) : String := "'" ++ s ++ "'"

/-- The first line of the error, after `error: `. -/
def headline : UsageError → String
  | .invalidValue arg value reason =>
    "invalid value " ++ tick value ++ " for " ++ tick arg ++ ": " ++ reason
  | .missingValue arg => "a value is required for " ++ tick arg ++ " but none was supplied"
  | .unexpectedArgument arg .. => "unexpected argument " ++ tick arg ++ " found"
  | .repeated arg _ => "the argument " ++ tick arg ++ " cannot be used multiple times"
  | .unexpectedValue value arg _ =>
    "unexpected value " ++ tick value ++ " for " ++ tick arg ++ " found; no more were expected"
  | .missingRequired args _ =>
    "the following required arguments were not provided:" ++
      String.join (args.map ("\n  " ++ ·))
  | .missingSubcommand command subcommands _ =>
    tick command ++ " requires a subcommand but one was not provided\n  [subcommands: " ++
      ", ".intercalate subcommands ++ "]"
  | .unrecognizedSubcommand name .. => "unrecognized subcommand " ++ tick name
  | .needlessSeparator .. => "unexpected argument '--' found"

/-- The tip naming what the user may have meant. -/
def similarTip : UsageError → Option String
  | .unexpectedArgument _ (some s) .. => some ("a similar argument exists: " ++ tick s)
  | .unrecognizedSubcommand _ [s] _ => some ("a similar subcommand exists: " ++ tick s)
  | .unrecognizedSubcommand _ ss@(_ :: _ :: _) _ =>
    some ("some similar subcommands exist: " ++ ", ".intercalate (ss.map tick))
  | _ => none

/-- The other tips. -/
def tips : UsageError → List String
  | .unexpectedArgument _ _ tips _ => tips
  | .needlessSeparator subcommand _ =>
    ["subcommand " ++ tick subcommand ++ " exists; to use it, remove the '--' before it"]
  | _ => []

/-- The usage line shown with the error. -/
def usage? : UsageError → Option String
  | .invalidValue .. | .missingValue _ => none
  | .unexpectedArgument _ _ _ u | .repeated _ u | .unexpectedValue _ _ u
  | .missingRequired _ u | .missingSubcommand _ _ u | .unrecognizedSubcommand _ _ u
  | .needlessSeparator _ u => some u

/-- The written form of a usage error. -/
def render (e : UsageError) : String :=
  let similar := match e.similarTip with
    | some t => "\n\n  tip: " ++ t
    | none => ""
  let tips := match e.tips with
    | [] => ""
    | ts => (if e.similarTip.isSome then "" else "\n") ++ String.join (ts.map ("\n  tip: " ++ ·))
  let usage := match e.usage? with
    | some u => "\n\n" ++ u
    | none => ""
  "error: " ++ e.headline ++ similar ++ tips ++ usage ++ "\n\nFor more information, try '--help'.\n"

example : render (.invalidValue "--advance <MS>" "abc" "invalid digit found in string") =
    "error: invalid value 'abc' for '--advance <MS>': invalid digit found in string\n\n" ++
      "For more information, try '--help'.\n" := by decide

end UsageError

end Cli

end Frond
