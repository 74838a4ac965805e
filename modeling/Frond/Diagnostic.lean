import Frond.Token.Basic
import Frond.Bytes.Escape

/-!
# Diagnostics

A diagnostic reports a problem at a token: a severity, an optional code, a message, and the
token's file, line, column and span. It is written on one line as
`file:line:column: severity[code]: message` (`display`), and with its source line and a
caret under the span as three lines (`render`).

`ofToken?` turns an `error` token into its diagnostic. An error token that starts at a quote or
at `}` is an unterminated string segment (code `E0002`); any other is a byte that starts no
token (code `E0001`, the byte quoted by `Bytes.escapeByte`).
-/

namespace Frond

/-- How serious a diagnostic is. -/
inductive Severity where
  | error
  | warning
  deriving DecidableEq, Repr, Inhabited

/-- The word for a severity. -/
def Severity.label : Severity → String
  | .error => "error"
  | .warning => "warning"

/-- A problem found at a token. -/
structure Diagnostic where
  severity : Severity
  code : Option String
  message : String
  file : String
  line : Nat
  column : Nat
  span : Span
  deriving DecidableEq, Repr, Inhabited

namespace Diagnostic

/-- A diagnostic of the given severity at a token, with no code. The file name is read
    lossily. -/
def atToken (severity : Severity) (message : String) (t : Token) : Diagnostic :=
  ⟨severity, none, message, Bytes.lossy t.loc.file, t.loc.line, t.loc.column, t.span⟩

/-- An error at a token. -/
def error (message : String) (t : Token) : Diagnostic := atToken .error message t

/-- A warning at a token. -/
def warning (message : String) (t : Token) : Diagnostic := atToken .warning message t

/-- The same diagnostic with a code. -/
def withCode (d : Diagnostic) (code : String) : Diagnostic := { d with code := some code }

/-- Whether the diagnostic is an error. -/
def isError (d : Diagnostic) : Bool := d.severity == .error

/-- The message for an error token whose first byte in the source is `first` (none when the
    span starts past the end of the source), with its code. -/
def errorAt (first : Option UInt8) : String × String :=
  match first with
  | some b =>
    if b == Bytes.ascii '"' || b == Bytes.ascii '}' then ("E0002", "unterminated string literal")
    else ("E0001", "unexpected character '" ++ Bytes.escapeByte b ++ "'")
  | none => ("E0001", "unexpected end of input")

/-- The diagnostic of a token: one for an `error` token, none for any other. The byte at the
    start of the token's span in `source` decides the message. -/
def ofToken? (t : Token) (source : Bytes) : Option Diagnostic :=
  if t.kind == .error then
    let (code, message) := errorAt source[t.span.start]?
    some ((error message t).withCode code)
  else none

/-- The one-line form: location, severity, code in brackets if there is one, message. -/
def display (d : Diagnostic) : String :=
  Location.render d.file d.line d.column ++ ": " ++ d.severity.label ++
    (match d.code with
     | some c => "[" ++ c ++ "]"
     | none => "") ++
    ": " ++ d.message

/-- Offset where the line holding offset `start` begins: just after the last LF before it. -/
def lineStart (source : Bytes) (start : Nat) : Nat :=
  start - ((source.take start).reverse.takeWhile (· != Bytes.lf)).length

/-- Offset where the line holding offset `start` ends: at the first LF from it on, or at the
    end of the source. -/
def lineEnd (source : Bytes) (start : Nat) : Nat :=
  start + ((source.drop start).takeWhile (· != Bytes.lf)).length

/-- A text without the run of CR characters at its end. -/
def dropTrailingCR (s : String) : String :=
  String.ofList (s.toList.reverse.dropWhile (· == '\r')).reverse

/-- The three-line form. The second line is the source line that holds the start of the span
    (clamped to the end of the source), read lossily, without trailing CRs. The third has, for
    each byte of that line before the start, a tab where the byte is a tab and a space
    otherwise; then `^`, then one `~` for each further byte of the span on that line. -/
def render (d : Diagnostic) (source : Bytes) : String :=
  let start := min d.span.start source.length
  let first := lineStart source start
  let last := lineEnd source start
  let line := dropTrailingCR (Bytes.lossy ((source.drop first).take (last - first)))
  let pad := ((source.drop first).take (start - first)).map fun b =>
    if b == Bytes.ascii '\t' then '\t' else ' '
  let tildes := List.replicate (min d.span.stop last - start - 1) '~'
  d.display ++ "\n" ++ line ++ "\n" ++ String.ofList pad ++ "^" ++ String.ofList tildes

end Diagnostic

end Frond
