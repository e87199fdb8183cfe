import ScriptEngine.Decimal.Plain

/-!
# Tokens and their positions

The terminals of the language: literals, names, keywords and marks, each with its lexeme and place. Lines,
columns and offsets count characters. A position moves on by the character behind it.
-/

namespace ScriptEngine

/-! ## Positions -/

/-- A place in a text: its line and column, counted from one, and the number of characters before
it. The default stands for things that no source text declares. -/
structure Position where
  line : Nat
  column : Nat
  offset : Nat
deriving Repr, DecidableEq, Inhabited

namespace Position

/-- The place of no source text. -/
def nowhere : Position := ⟨0, 0, 0⟩

/-- The start of a text. -/
def start : Position := ⟨1, 1, 0⟩

/-- The place after the character `c`. -/
def next (p : Position) (c : Char) : Position :=
  if c = '\n' then ⟨p.line + 1, 1, p.offset + 1⟩ else ⟨p.line, p.column + 1, p.offset + 1⟩

/-- The place after some characters. -/
def advance (p : Position) (chars : List Char) : Position :=
  chars.foldl next p

/-- The line and the column. -/
def text (p : Position) : String :=
  Decimal.natText p.line ++ ":" ++ Decimal.natText p.column

end Position

/-! ## Tokens -/

/-- The reserved words. -/
inductive Keyword
  | letWord | varWord | funcWord | ifWord | elseWord | whileWord | doWord | forWord | eachWord
  | inWord | matchWord | returnWord | breakWord | continueWord | importWord | exportWord | fromWord
  | asWord | namespaceWord | asyncWord | safeWord | tryWord | lockWord | thisWord | baseWord
  | trueWord | falseWord | nullWord | extWord
deriving Repr, DecidableEq, Inhabited

/-- The spelling of each reserved word. -/
def Keyword.table : List (String × Keyword) :=
  [("let", .letWord), ("var", .varWord), ("func", .funcWord), ("if", .ifWord), ("else", .elseWord),
   ("while", .whileWord), ("do", .doWord), ("for", .forWord), ("each", .eachWord), ("in", .inWord),
   ("match", .matchWord), ("return", .returnWord), ("break", .breakWord),
   ("continue", .continueWord), ("import", .importWord), ("export", .exportWord),
   ("from", .fromWord), ("as", .asWord), ("namespace", .namespaceWord), ("async", .asyncWord),
   ("safe", .safeWord), ("try", .tryWord), ("lock", .lockWord), ("this", .thisWord),
   ("base", .baseWord), ("true", .trueWord), ("false", .falseWord), ("null", .nullWord),
   ("ext", .extWord)]

/-- The reserved word with this spelling. -/
def Keyword.ofText? (text : String) : Option Keyword :=
  Keyword.table.lookup text

/-- The operators and punctuation. -/
inductive Mark
  | plus | minus | star | slash | percent | plusPlus | minusMinus
  | equal | plusEqual | minusEqual | starEqual | slashEqual | percentEqual
  | equalEqual | notEqual | less | lessEqual | greater | greaterEqual | subtype
  | andAnd | orOr | not | amp | bar | caret | tilde | shiftLeft
  | pipeForward | colonColon | dotDot | fatArrow | question | colon | comma | semicolon | dot
  | leftParen | rightParen | leftBracket | rightBracket | leftBrace | rightBrace
deriving Repr, DecidableEq, Inhabited

/-- The spelling of each mark; one that begins with another stands before it. -/
def Mark.table : List (List Char × Mark) :=
  [(['+', '+'], .plusPlus), (['+', '='], .plusEqual), (['+'], .plus),
   (['-', '-'], .minusMinus), (['-', '='], .minusEqual), (['-'], .minus),
   (['*', '='], .starEqual), (['*'], .star), (['/', '='], .slashEqual), (['/'], .slash),
   (['%', '='], .percentEqual), (['%'], .percent),
   (['=', '='], .equalEqual), (['=', '>'], .fatArrow), (['='], .equal),
   (['!', '='], .notEqual), (['!'], .not),
   (['<', '='], .lessEqual), (['<', ':'], .subtype), (['<', '<'], .shiftLeft), (['<'], .less),
   (['>', '='], .greaterEqual), (['>', '>'], .pipeForward), (['>'], .greater),
   (['&', '&'], .andAnd), (['&'], .amp), (['|', '|'], .orOr), (['|'], .bar),
   (['^'], .caret), (['~'], .tilde), ([':', ':'], .colonColon), ([':'], .colon),
   (['.', '.'], .dotDot), (['.'], .dot), (['?'], .question), ([','], .comma), ([';'], .semicolon),
   (['('], .leftParen), ([')'], .rightParen), (['['], .leftBracket), ([']'], .rightBracket),
   (['\x7b'], .leftBrace), (['\x7d'], .rightBrace)]

/-- What a token is, with the value of a literal and the text of a name. -/
inductive TokenKind
  | number (value : Float)
  | string (value : String)
  | name (value : String)
  | keyword (word : Keyword)
  | mark (mark : Mark)
  | finish
deriving Repr, DecidableEq, Inhabited

namespace TokenKind

/-- A reserved word. -/
def isKeyword : TokenKind → Bool
  | .keyword _ => true
  | _ => false

/-- A name that is not reserved. -/
def isName : TokenKind → Bool
  | .name _ => true
  | _ => false

end TokenKind

/-- A token: its lexeme begins at `position` and ends before the offset `stop`. -/
structure Token where
  kind : TokenKind
  lexeme : String
  position : Position
  stop : Nat
deriving Repr, DecidableEq, Inhabited

/-- What keeps a text from being split into tokens, and where. -/
inductive LexError
  /-- The text ends inside the string that opens here. -/
  | unterminatedString (start : Position)
  /-- The text ends inside the comment that opens here. -/
  | unterminatedComment (start : Position)
  | illegalCharacter (char : Char) (position : Position)
  /-- The character after a backslash, or a code point that is none. -/
  | invalidEscape (char : Char) (position : Position)
deriving Repr, DecidableEq, Inhabited

namespace LexError

/-- Where the fault is. -/
def position : LexError → Position
  | .unterminatedString p => p
  | .unterminatedComment p => p
  | .illegalCharacter _ p => p
  | .invalidEscape _ p => p

/-- The wording of the fault. -/
def message : LexError → String
  | .unterminatedString p => "unterminated string literal starting at " ++ p.text
  | .unterminatedComment p => "unterminated block comment starting at " ++ p.text
  | .illegalCharacter c p => "illegal character '" ++ c.toString ++ "' at " ++ p.text
  | .invalidEscape c p => "invalid escape sequence '\\" ++ c.toString ++ "' at " ++ p.text

end LexError

end ScriptEngine
