import Frond.Cli.Spec
import Frond.Cli.UsageError
import Frond.Text.Similarity

/-!
# Reading a command line

`level spec cursor args` reads the arguments of one command from the left.

* A word naming a subcommand ends the command's own arguments; the rest belongs to the
  subcommand (`Level.descend`).
* `--` makes every later word a positional value.
* `--name` and `--name=value` are long arguments, `-abc` is a run of short letters; an option
  takes its value from the text after `=` or from the next word, whatever it looks like,
  unless that word is itself an argument.
* Any other word is the value an option waits for, else the positional argument.

An option's value is read when the next argument starts or the words run out, so of two
faults the earlier is reported, with one exception: an argument that no one takes is reported
even when the value before it was bad. A switch or option given twice is refused, except an
option that collects values.
-/

namespace Frond

namespace Cli

/-- What one command's arguments gave: each argument's values by long name, in the order the
    arguments were first given, and the positional value. -/
structure Matches (α : Type) where
  given : List (String × List α)
  positional : Option String

namespace Matches

variable {α : Type}

/-- Nothing given. -/
def empty : Matches α := ⟨[], none⟩

/-- Whether an argument was given. -/
def has (m : Matches α) (long : String) : Bool := m.given.any (·.1 == long)

/-- The values given to an argument, in order. -/
def values (m : Matches α) (long : String) : List α :=
  ((m.given.find? (·.1 == long)).map (·.2)).getD []

/-- Records an argument, with a value if it has one. -/
def record (m : Matches α) (long : String) (v : Option α) : Matches α :=
  if m.has long then
    { m with
      given := m.given.map fun (l, vs) => if l == long then (l, vs ++ v.toList) else (l, vs) }
  else { m with given := m.given ++ [(long, v.toList)] }

/-- Forgets an argument. -/
def erase (m : Matches α) (long : String) : Matches α :=
  { m with given := m.given.filter (·.1 != long) }

/-- The long names of the arguments given, in first-use order. -/
def used (m : Matches α) : List String := m.given.map (·.1)

theorem has_record (m : Matches α) (long : String) (v : Option α) :
    (m.record long v).has long = true := by
  unfold record
  split
  · rename_i h
    simp only [has, List.any_eq_true, List.mem_map] at h ⊢
    obtain ⟨x, hx, hl⟩ := h
    refine ⟨_, ⟨x, hx, rfl⟩, ?_⟩
    split <;> simp_all
  · simp [has]

end Matches

/-- Why reading a command line stopped before the command was known. -/
inductive Halt where
  /-- The command line is wrong. -/
  | usage (e : UsageError)
  /-- Help was asked for; `onError` when it is shown because nothing was given. -/
  | help (text : String) (onError : Bool)
  /-- The version was asked for. -/
  | version

/-- Where the reading of one command stands: what was given, an option still to be settled
    (with its value once seen), and whether `--` was passed. -/
structure Cursor (α : Type) where
  seen : Matches α
  pending : Option (ArgSpec α × ValueSpec α × Option String)
  trailing : Bool

/-- The start of a command's arguments. -/
def Cursor.start {α : Type} : Cursor α := ⟨.empty, none, false⟩

/-- How the arguments of one command ended. -/
inductive Level (α : Type) where
  /-- All words were read. -/
  | finished (m : Matches α)
  /-- The word `name` names a subcommand, which takes the words `rest`. -/
  | descend (m : Matches α) (name : String) (rest : List String)

variable {α : Type}

/-- Settles the option waiting in the cursor: reads its value, or refuses it. -/
def settle (spec : CommandSpec α) (c : Cursor α) : Except Halt (Cursor α) :=
  match c.pending with
  | none => .ok c
  | some (a, _, none) => .error (.usage (.missingValue a.display))
  | some (a, v, some raw) =>
    if !v.repeatable && c.seen.has a.long then .error (.usage (.repeated a.display spec.usage))
    else match v.read raw with
      | .error reason => .error (.usage (.invalidValue a.display raw reason))
      | .ok x => .ok { c with seen := c.seen.record a.long (some x), pending := none }

/-- What was given once the waiting option is settled as far as it can be, when another
    error is about to be reported: a refused value still counts as given, a repeated option
    does not. -/
def settleQuietly (c : Cursor α) : Matches α :=
  match c.pending with
  | some (a, v, some raw) =>
    if !v.repeatable && c.seen.has a.long then c.seen.erase a.long
    else c.seen.record a.long (v.read raw).toOption
  | _ => c.seen

/-- Turns a switch on. -/
def switchOn (spec : CommandSpec α) (c : Cursor α) (a : ArgSpec α) :
    Except Halt (Cursor α) := do
  let c ← settle spec c
  if c.seen.has a.long then throw (.usage (.repeated a.display spec.usage))
  pure { c with seen := c.seen.record a.long none }

/-- Starts an option, with its value when attached. -/
def startOption (spec : CommandSpec α) (c : Cursor α) (a : ArgSpec α) (v : ValueSpec α)
    (attached : Option String) : Except Halt (Cursor α) := do
  let c ← settle spec c
  match attached with
  | some raw => settle spec { c with pending := some (a, v, some raw) }
  | none => pure { c with pending := some (a, v, none) }

/-- Shows help or the version, once the waiting option is settled. -/
def showBuiltin (spec : CommandSpec α) (c : Cursor α) (a : ArgSpec α) :
    Except Halt (Cursor α) := do
  let _ ← settle spec c
  match a.action with
  | .version => throw .version
  | _ => throw (.help spec.help false)

/-- The tip for a word that looks like an argument but could be meant as a value. -/
def valueTip (spec : CommandSpec α) (arg : String) : List String :=
  if spec.positional.isSome then
    ["to pass " ++ UsageError.tick arg ++ " as a value, use " ++ UsageError.tick ("-- " ++ arg)]
  else []

/-- The first position of a word in a list. -/
def position (w : String) : List String → Option Nat
  | [] => none
  | x :: xs => if x == w then some 0 else (position w xs).map (· + 1)

/-- Of the candidates, the one with the least position. -/
def earliest : List (Nat × String) → Option String
  | [] => none
  | (i, s) :: rest =>
    match earliest rest with
    | none => some s
    | some t => if (rest.find? (·.2 == t)).any (·.1 < i) then some t else some s

/-- The error for a long name nothing takes. A close name of this command is suggested;
    failing that, the close name of a subcommand named later on the line, the earliest such;
    failing that, passing it as a value, if the command takes one. -/
def unknownLong (spec : CommandSpec α) (c : Cursor α) (name : String) (rest : List String) :
    UsageError :=
  let m := settleQuietly c
  let arg := "--" ++ name
  match Similarity.best? name (spec.args.map (·.long)) with
  | some cand =>
    let used := if m.has cand then m.used else m.used ++ [cand]
    .unexpectedArgument arg (some ("--" ++ cand)) [] (spec.usageAfter used)
  | none =>
    let inSubcommands := spec.subcommands.filterMap fun s =>
      match Similarity.best? name s.longs, position s.name rest with
      | some cand, some i => some (i, s.name ++ " --" ++ cand)
      | _, _ => none
    match earliest inSubcommands with
    | some tip =>
      .unexpectedArgument arg none [UsageError.tick tip ++ " exists"] (spec.usageAfter m.used)
    | none => .unexpectedArgument arg none (valueTip spec arg) (spec.usageAfter m.used)

/-- The error for a word with no place: after `--` a subcommand's name, else an unknown
    subcommand (with close names) or an unexpected argument. -/
def stray (spec : CommandSpec α) (c : Cursor α) (w : String) : UsageError :=
  if c.trailing && spec.hasSubcommand w then .needlessSeparator w spec.usage
  else if spec.subcommands.isEmpty then .unexpectedArgument w none [] spec.usage
  else .unrecognizedSubcommand w (Similarity.similar w (spec.subcommands.map (·.name))) spec.usage

/-- Takes a positional word. -/
def takePositional (spec : CommandSpec α) (c : Cursor α) (w : String) : Except Halt (Cursor α) :=
  if spec.positional.isSome && c.seen.positional.isNone then do
    let c ← settle spec c
    pure { c with seen := { c.seen with positional := some w } }
  else .error (.usage (stray spec c w))

/-- Takes a long argument, with the value attached after `=`, if any. -/
def takeLong (spec : CommandSpec α) (c : Cursor α) (name : String) (attached : Option String)
    (rest : List String) : Except Halt (Cursor α) :=
  match spec.findLong name with
  | none => .error (.usage (unknownLong spec c name rest))
  | some a =>
    match a.action, attached with
    | .value v, _ => startOption spec c a v attached
    | _, some raw =>
      .error (.usage (.unexpectedValue raw a.display (spec.usageAfter (c.seen.used ++ [a.long]))))
    | .switch, none => switchOn spec c a
    | _, none => showBuiltin spec c a

/-- Takes a run of short letters. -/
def takeShorts (spec : CommandSpec α) (c : Cursor α) : List Char → Except Halt (Cursor α)
  | [] => .ok c
  | ch :: more =>
    match spec.findShort ch with
    | none =>
      let arg := "-" ++ String.singleton ch
      .error (.usage (.unexpectedArgument arg none (valueTip spec arg) spec.usage))
    | some a =>
      match a.action with
      | .switch => do
        let c ← switchOn spec c a
        takeShorts spec c more
      | .value v =>
        let raw := match more with
          | '=' :: r => r
          | r => r
        startOption spec c a v (if raw.isEmpty then none else some (String.ofList raw))
      | _ => showBuiltin spec c a

/-- A long argument's name and the value after its first `=`. -/
def splitAttached (body : List Char) : String × Option String :=
  (String.ofList (body.takeWhile (· != '=')),
    match body.dropWhile (· != '=') with
    | [] => none
    | _ :: v => some (String.ofList v))

/-- Reads the arguments of one command. -/
def level (spec : CommandSpec α) : Cursor α → List String → Except Halt (Level α)
  | c, [] => do
    let c ← settle spec c
    pure (.finished c.seen)
  | c, w :: rest =>
    if c.trailing then do
      let c ← takePositional spec c w
      level spec c rest
    else if spec.hasSubcommand w then do
      let c ← settle spec c
      pure (.descend c.seen w rest)
    else
      match w.toList with
      | ['-', '-'] => level spec { c with trailing := true } rest
      | '-' :: '-' :: body => do
        let (name, attached) := splitAttached body
        let c ← takeLong spec c name attached rest
        level spec c rest
      | '-' :: ch :: more => do
        let c ← takeShorts spec c (ch :: more)
        level spec c rest
      | _ =>
        match c.pending with
        | some (a, v, none) => level spec { c with pending := some (a, v, some w) } rest
        | _ => do
          let c ← takePositional spec c w
          level spec c rest

end Cli

end Frond
