import ScriptEngine.Json.Reader

/-!
# Reading JSON with single quotes

A text that is no JSON document is read again with its single-quoted strings written with double
quotes.
-/

namespace ScriptEngine.Json

/-- Which quote a string was opened with, and whether a backslash stands before. -/
inductive QuoteState
  | outside
  | inside (opening : Char)
  | escape (opening : Char)
deriving Repr, DecidableEq, Inhabited

/-- Writes single-quoted strings with double quotes: a double quote inside gets a backslash, and the
backslash before a single quote goes. -/
def doubleQuotes : QuoteState → List Char → List Char
  | .outside, [] => []
  | .inside _, [] => []
  | .escape _, [] => ['\\']
  | .outside, c :: rest =>
    if c = '\'' then '\x22' :: doubleQuotes (.inside '\'') rest
    else if c = '\x22' then '\x22' :: doubleQuotes (.inside '\x22') rest
    else c :: doubleQuotes .outside rest
  | .inside opening, c :: rest =>
    if c = '\\' then doubleQuotes (.escape opening) rest
    else if c = '\x22' && opening = '\'' then '\\' :: '\x22' :: doubleQuotes (.inside opening) rest
    else if c = opening then '\x22' :: doubleQuotes .outside rest
    else c :: doubleQuotes (.inside opening) rest
  | .escape opening, c :: rest =>
    if c = '\'' && opening = '\'' then '\'' :: doubleQuotes (.inside opening) rest
    else '\\' :: c :: doubleQuotes (.inside opening) rest

/-- What a reader makes of a text, single-quoted strings allowed. An error is that of the text as it
stands. -/
def leniently {ε α : Type} (read : String → Except ε α) (text : String) : Except ε α :=
  match read text with
  | .ok value => .ok value
  | .error error =>
    match read (String.ofList (doubleQuotes .outside text.toList)) with
    | .ok value => .ok value
    | .error _ => .error error

/-- The value that a text denotes, single-quoted strings allowed. -/
def ofLenientText (text : String) : Except JsonError Json := leniently ofText text

end ScriptEngine.Json
