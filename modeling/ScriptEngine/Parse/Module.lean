import ScriptEngine.Parse.Statement
import ScriptEngine.Token.Lexer

/-!
# Reading modules

A source text becomes the tree of a module by way of its tokens; a fault in either step names the
module.
-/

namespace ScriptEngine

/-- Why a source text makes no module. -/
inductive SourceError
  | lex (module : String) (error : LexError)
  | parse (module : String) (error : ParseError)
deriving Repr, DecidableEq, Inhabited

namespace SourceError

/-- Where the fault is. -/
def position : SourceError → Position
  | .lex _ error => error.position
  | .parse _ error => error.position

/-- The name of the module with the fault. -/
def module : SourceError → String
  | .lex module _ => module
  | .parse module _ => module

/-- The wording of the fault. -/
def fault : SourceError → String
  | .lex _ error => error.message
  | .parse _ error => error.message

/-- The wording of the fault, with the module it is in. -/
def message (e : SourceError) : String := "module '" ++ e.module ++ "': " ++ e.fault

end SourceError

/-- The module that a source text makes. -/
def Module.ofSource (name source : String) : Except SourceError Module :=
  match Token.ofSource source with
  | .error error => .error (.lex name error)
  | .ok tokens =>
    match Parse.ofTokens tokens with
    | .error error => .error (.parse name error)
    | .ok body => .ok ⟨name, body⟩

end ScriptEngine
