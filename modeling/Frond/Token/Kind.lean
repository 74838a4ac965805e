/-!
# Token kinds

Every token the scanner hands out has one of these kinds. Each kind has an upper-case NAME
(`FAT_ARROW`, `STRING_BEGIN`), the text under which tools print it; `ofName?` reads a NAME
back, and `ofName?_name` says the two agree.

Three classes are fixed sets of kinds: the thirty-three keywords, the eighteen operators and
the five literals. A reserved word (a keyword, `true` or `false`) is spelled as its kind's
NAME in lower case, and `fromWord` turns any other word into `IDENT`.
-/

namespace Frond

/-- The kind of a token. Layout kinds (`newline`, `indent`, `dedent`) and the comment kinds
    are never produced by the scanner, which treats line breaks as blanks and skips comments;
    they still have names. -/
inductive TokenKind where
  | eof | error | newline | indent | dedent
  | int | float | string | trueLit | falseLit
  | ident
  | kwLet | kwFn | kwReturn | kwIf | kwElse | kwMatch | kwWith | kwDo | kwDefer | kwPub
  | kwImport | kwType | kwTrait | kwImpl | kwAnd | kwOr | kwNot | kwAs | kwModule | kwFor
  | kwWhile | kwLoop | kwBreak | kwContinue | kwIn | kwSpawn | kwSend | kwReceive | kwAfter
  | kwDerive | kwNewtype | kwUnless | kwWhere
  | plus | minus | star | slash | percent | power
  | eq | ne | lt | le | gt | ge
  | assign | bind | pipe | bar | arrow | fatArrow
  | lParen | rParen | lBracket | rBracket | lBrace | rBrace
  | comma | colon | dot | dotDot | dotDotEq | ellipsis | underscore | atSign | question
  | stringBegin | stringMid | stringEnd
  | comment | blockComment | docComment
  deriving DecidableEq, Repr, Inhabited

namespace TokenKind

/-- The NAME of a kind, as tools print it. -/
def name : TokenKind → String
  | .eof => "EOF" | .error => "ERROR" | .newline => "NEWLINE" | .indent => "INDENT"
  | .dedent => "DEDENT"
  | .int => "INT" | .float => "FLOAT" | .string => "STRING" | .trueLit => "TRUE"
  | .falseLit => "FALSE"
  | .ident => "IDENT"
  | .kwLet => "LET" | .kwFn => "FN" | .kwReturn => "RETURN" | .kwIf => "IF"
  | .kwElse => "ELSE" | .kwMatch => "MATCH" | .kwWith => "WITH" | .kwDo => "DO"
  | .kwDefer => "DEFER" | .kwPub => "PUB" | .kwImport => "IMPORT" | .kwType => "TYPE"
  | .kwTrait => "TRAIT" | .kwImpl => "IMPL" | .kwAnd => "AND" | .kwOr => "OR"
  | .kwNot => "NOT" | .kwAs => "AS" | .kwModule => "MODULE" | .kwFor => "FOR"
  | .kwWhile => "WHILE" | .kwLoop => "LOOP" | .kwBreak => "BREAK"
  | .kwContinue => "CONTINUE" | .kwIn => "IN" | .kwSpawn => "SPAWN" | .kwSend => "SEND"
  | .kwReceive => "RECEIVE" | .kwAfter => "AFTER" | .kwDerive => "DERIVE"
  | .kwNewtype => "NEWTYPE" | .kwUnless => "UNLESS" | .kwWhere => "WHERE"
  | .plus => "PLUS" | .minus => "MINUS" | .star => "STAR" | .slash => "SLASH"
  | .percent => "PERCENT" | .power => "POWER"
  | .eq => "EQ" | .ne => "NE" | .lt => "LT" | .le => "LE" | .gt => "GT" | .ge => "GE"
  | .assign => "ASSIGN" | .bind => "BIND" | .pipe => "PIPE" | .bar => "BAR"
  | .arrow => "ARROW" | .fatArrow => "FAT_ARROW"
  | .lParen => "LPAREN" | .rParen => "RPAREN" | .lBracket => "LBRACKET"
  | .rBracket => "RBRACKET" | .lBrace => "LBRACE" | .rBrace => "RBRACE"
  | .comma => "COMMA" | .colon => "COLON" | .dot => "DOT" | .dotDot => "DOTDOT"
  | .dotDotEq => "DOTDOTEQ" | .ellipsis => "ELLIPSIS" | .underscore => "UNDERSCORE"
  | .atSign => "AT" | .question => "QUESTION"
  | .stringBegin => "STRING_BEGIN" | .stringMid => "STRING_MID"
  | .stringEnd => "STRING_END"
  | .comment => "COMMENT" | .blockComment => "BLOCK_COMMENT"
  | .docComment => "DOC_COMMENT"

/-- The keywords, in declaration order. -/
def keywords : List TokenKind :=
  [.kwLet, .kwFn, .kwReturn, .kwIf, .kwElse, .kwMatch, .kwWith, .kwDo, .kwDefer, .kwPub,
   .kwImport, .kwType, .kwTrait, .kwImpl, .kwAnd, .kwOr, .kwNot, .kwAs, .kwModule, .kwFor,
   .kwWhile, .kwLoop, .kwBreak, .kwContinue, .kwIn, .kwSpawn, .kwSend, .kwReceive, .kwAfter,
   .kwDerive, .kwNewtype, .kwUnless, .kwWhere]

/-- The operators: arithmetic, comparison, binding and arrows. -/
def operators : List TokenKind :=
  [.plus, .minus, .star, .slash, .percent, .power, .eq, .ne, .lt, .le, .gt, .ge,
   .assign, .bind, .pipe, .bar, .arrow, .fatArrow]

/-- The literal kinds. -/
def literals : List TokenKind :=
  [.int, .float, .string, .trueLit, .falseLit]

/-- Every kind, in declaration order. -/
def all : List TokenKind :=
  [.eof, .error, .newline, .indent, .dedent] ++ literals ++ [.ident] ++ keywords ++
  operators ++
  [.lParen, .rParen, .lBracket, .rBracket, .lBrace, .rBrace,
   .comma, .colon, .dot, .dotDot, .dotDotEq, .ellipsis, .underscore, .atSign, .question,
   .stringBegin, .stringMid, .stringEnd, .comment, .blockComment, .docComment]

/-- Whether the kind is a keyword. -/
def isKeyword (k : TokenKind) : Bool := keywords.contains k

/-- Whether the kind is an operator. -/
def isOperator (k : TokenKind) : Bool := operators.contains k

/-- Whether the kind is a literal. -/
def isLiteral (k : TokenKind) : Bool := literals.contains k

/-- The kind whose NAME is `s`, if any. -/
def ofName? (s : String) : Option TokenKind := all.find? (·.name == s)

/-- The words that never name an identifier: the keywords and the two truth literals. -/
def reserved : List TokenKind := keywords ++ [.trueLit, .falseLit]

/-- How a reserved kind is written in source: its NAME in lower case, as bytes. -/
def word (k : TokenKind) : List UInt8 :=
  k.name.toList.map fun c => c.toLower.toUInt8

/-- The kind of a scanned word: the reserved kind spelled by it, else `ident`. The single
    underscore is an identifier here; the scanner gives it a kind of its own. -/
def fromWord (w : List UInt8) : TokenKind :=
  (reserved.find? (·.word == w)).getD .ident

theorem mem_all (k : TokenKind) : k ∈ all := by
  cases k <;> decide

theorem ofName?_name (k : TokenKind) : ofName? k.name = some k := by
  cases k <;> decide

example : fromWord ("while".toList.map Char.toUInt8) = .kwWhile := by decide
example : fromWord ("true".toList.map Char.toUInt8) = .trueLit := by decide
example : fromWord ("_".toList.map Char.toUInt8) = .ident := by decide
example : fromWord ("While".toList.map Char.toUInt8) = .ident := by decide
example : all.length = 83 := by decide

end TokenKind

end Frond
