/-!
The tokens of Python. Line structure (`newline`, `indent`, `dedent`) and the
pieces of string literals are tokens like any other; keywords and punctuation
carry their spelling.
-/
namespace CodeAtlas.Python

inductive Token where
  | finish
  /-- The end of a logical line. -/
  | newline
  | indent
  | dedent
  /-- The letters and quotes that open a string. -/
  | stringStart
  /-- Characters of a string that need no further reading. -/
  | stringText
  /-- A doubled brace in a format string. -/
  | doubledBrace
  | stringEnd
  /-- A backslash with what it escapes. -/
  | escape
  /-- A backslash that escapes nothing. -/
  | backslash
  /-- A conversion such as `!r` in a format string. -/
  | conversion
  /-- Characters of a format specification. -/
  | formatText
  | identifier
  | integer
  | float
  | comment
  /-- A backslash at the end of a line. -/
  | continuation
  | word (text : String)
  | mark (text : String)
  deriving DecidableEq, Hashable, Repr, Inhabited

/-- The kind of node a token leaves in the tree; none for one that is only
punctuation. -/
def Token.kind : Token → Option String
  | .stringStart => some "string_start"
  | .doubledBrace => some "escape_interpolation"
  | .stringEnd => some "string_end"
  | .escape => some "escape_sequence"
  | .conversion => some "type_conversion"
  | .identifier => some "identifier"
  | .integer => some "integer"
  | .float => some "float"
  | .comment => some "comment"
  | .continuation => some "line_continuation"
  | .word "True" => some "true"
  | .word "False" => some "false"
  | .word "None" => some "none"
  | .mark "..." => some "ellipsis"
  | _ => none

/-- Tokens that may stand between any two others. -/
def Token.isExtra (t : Token) : Bool := t = .comment || t = .continuation

end CodeAtlas.Python
