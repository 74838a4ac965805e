import Frond.Lexer.Basic
import Frond.Diagnostic
import Frond.Host

/-!
# Token streams

`tokenize` reads a whole source: every token up to and including the first `eof`, and one
diagnostic for each `error` token, in token order. A stream with an error diagnostic fails as
a whole (`toResult`); the failure is written with the first diagnostic and the number of the
others.
-/

namespace Frond

/-- The tokens of a source, its diagnostics, and the source itself. -/
structure TokenStream where
  tokens : List Token
  diagnostics : List Diagnostic
  source : Bytes
  deriving Inhabited

/-- Why a source could not be turned into tokens. -/
inductive SourceError where
  | io (e : IoError)
  | lex (diagnostics : List Diagnostic)
  deriving Inhabited

namespace SourceError

/-- The first diagnostic's one-line form, with a count of the others when there are any. -/
def firstMessage : List Diagnostic → String
  | [] => "no diagnostics"
  | [d] => d.display
  | d :: rest => d.display ++ " (and " ++ decimal rest.length ++ " more)"

/-- The written form of a failure. -/
def message : SourceError → String
  | .io e => "failed to read source: " ++ e.message
  | .lex ds => "lex error: " ++ firstMessage ds

/-- The failure and what caused it, outermost first: a read failure is caused by the host's
    error. -/
def causes (e : SourceError) : List String :=
  match e with
  | .io cause => [e.message, cause.message]
  | .lex _ => [e.message]

end SourceError

namespace TokenStream

/-- The stream of a source under a file name. -/
def tokenize (filename source : Bytes) : TokenStream :=
  let tokens := ((Lexer.ofSource source).withFilename filename).tokens
  ⟨tokens, tokens.filterMap (Diagnostic.ofToken? · source), source⟩

/-- Whether some diagnostic is an error. -/
def hasErrors (s : TokenStream) : Bool := s.diagnostics.any Diagnostic.isError

/-- The stream, or a failure carrying its diagnostics when one of them is an error. -/
def toResult (s : TokenStream) : Except SourceError TokenStream :=
  if s.hasErrors then .error (.lex s.diagnostics) else .ok s

/-- The kinds of the tokens, in order. -/
def kinds (s : TokenStream) : List TokenKind := s.tokens.map (·.kind)

/-- Reads a file of the host. -/
def readSource (host : Host) (path : String) : Except SourceError Bytes :=
  (host.readFile path).mapError .io

/-- Reads a file of the host and tokenizes it under its path. -/
def ofFile (host : Host) (path : String) : Except SourceError TokenStream :=
  (readSource host path).map (tokenize (Bytes.ofString path))

end TokenStream

end Frond
