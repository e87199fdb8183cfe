import ScriptEngine.Decimal.Numeral
import ScriptEngine.Text.Alphabet
import ScriptEngine.Token.Basic

/-!
# Splitting a text into tokens

Blanks and comments separate tokens. Each scanner reads one token from the front of the text and
splits the text there: what it took and what it left are the text again, so that the tokens and the
gaps tile the source.
-/

namespace ScriptEngine.Token

/-- A token read from the front of a text: its kind, the characters taken and those left. -/
structure Scan where
  kind : TokenKind
  taken : List Char
  rest : List Char
deriving Repr, Inhabited

/-! ## Blanks and comments -/

/-- The body of a block comment through its end mark, and what follows it. -/
def commentBody? : List Char → Option (List Char × List Char)
  | [] => none
  | '*' :: '/' :: rest => some (['*', '/'], rest)
  | c :: rest => (commentBody? rest).map fun (body, rest) => (c :: body, rest)

/-- A comment and what follows it are the text again. -/
theorem append_of_commentBody? {text body rest : List Char}
    (h : commentBody? text = some (body, rest)) : body ++ rest = text := by
  induction text using commentBody?.induct generalizing body rest with
  | case1 => simp [commentBody?] at h
  | case2 text =>
    simp only [commentBody?, Option.some.injEq, Prod.mk.injEq] at h
    simp [← h.1, ← h.2]
  | case3 c text hne ih =>
    rw [commentBody?.eq_3 c text hne] at h
    obtain ⟨⟨b, r⟩, hb, he⟩ := Option.map_eq_some_iff.1 h
    simp only [Prod.mk.injEq] at he
    simp [← he.1, ← he.2, ih hb]

/-- Skips blanks, line comments and block comments. -/
def skipBlanks (position : Position) (text : List Char) :
    Except LexError (Position × List Char) :=
  match text with
  | '/' :: '/' :: rest =>
    skipBlanks (position.advance ('/' :: '/' :: rest.takeWhile (· != '\n')))
      (rest.dropWhile (· != '\n'))
  | '/' :: '*' :: rest =>
    match _h : commentBody? rest with
    | none => .error (.unterminatedComment position)
    | some (body, after) => skipBlanks (position.advance ('/' :: '*' :: body)) after
  | c :: rest =>
    if Text.isBlank c then skipBlanks (position.next c) rest else .ok (position, c :: rest)
  | [] => .ok (position, [])
termination_by text.length
decreasing_by
  · have := (List.dropWhile_sublist (l := rest) (· != '\n')).length_le
    simp only [List.length_cons]; omega
  · have := congrArg List.length (append_of_commentBody? _h)
    simp only [List.length_append, List.length_cons] at this ⊢; omega
  · simp

/-! ## Strings -/

/-- The value of hexadecimal digits. -/
def hexValue? (digits : List Char) : Option Nat :=
  digits.foldl (fun value? c => do
    let value ← value?
    if c.isDigit then some (16 * value + (c.toNat - '0'.toNat))
    else if 'a' ≤ c ∧ c ≤ 'f' then some (16 * value + (c.toNat - 'a'.toNat + 10))
    else if 'A' ≤ c ∧ c ≤ 'F' then some (16 * value + (c.toNat - 'A'.toNat + 10))
    else none) (some 0)

/-- The character with this code point in hexadecimal, which a plus sign may precede. -/
def charOfHex? (digits : List Char) : Option Char := do
  let digits := match digits with
    | '+' :: digits => digits
    | digits => digits
  if digits.isEmpty then none
  else
    let code ← hexValue? digits
    if h : code.isValidChar then some (Char.ofNatAux code h) else none

/-- What a string has read so far: a plain part, a backslash, or an escape by code point whose
digits are held in reverse. The position is that of the character after the backslash. -/
inductive StringState
  | plain
  | escape
  | codeOpen (escape : Position)
  | code (escape : Position) (digits : List Char)
deriving Repr, DecidableEq

/-- The character that a backslash and a letter stand for. -/
def escapedChar? : Char → Option Char
  | 'n' => some '\n'
  | 't' => some '\t'
  | 'r' => some '\r'
  | '0' => some '\x00'
  | '\\' => some '\\'
  | '\x22' => some '\x22'
  | '\'' => some '\''
  | _ => none

/-- Reads the inside of a string and its closing quote. The value and the characters taken are
held in reverse; `start` is the place of the opening quote. -/
def stringBody (quote : Char) (start position : Position) (value taken : List Char) :
    StringState → List Char → Except LexError Scan
  | .plain, [] => .error (.unterminatedString start)
  | .escape, [] => .error (.unterminatedString start)
  | .codeOpen escape, [] => .error (.invalidEscape 'u' escape)
  | .code escape _, [] => .error (.invalidEscape 'u' escape)
  | .plain, c :: rest =>
    if c = quote then
      .ok ⟨.string (String.ofList value.reverse), (c :: taken).reverse, rest⟩
    else if c = '\\' then
      stringBody quote start (position.next c) value (c :: taken) .escape rest
    else stringBody quote start (position.next c) (c :: value) (c :: taken) .plain rest
  | .escape, c :: rest =>
    if c = 'u' then
      stringBody quote start (position.next c) value (c :: taken) (.codeOpen position) rest
    else match escapedChar? c with
      | some char =>
        stringBody quote start (position.next c) (char :: value) (c :: taken) .plain rest
      | none => .error (.invalidEscape c position)
  | .codeOpen escape, c :: rest =>
    if c = '\x7b' then
      stringBody quote start (position.next c) value (c :: taken) (.code escape []) rest
    else .error (.invalidEscape 'u' escape)
  | .code escape digits, c :: rest =>
    if c = '\x7d' then
      match charOfHex? digits.reverse with
      | some char =>
        stringBody quote start (position.next c) (char :: value) (c :: taken) .plain rest
      | none => .error (.invalidEscape 'u' escape)
    else
      stringBody quote start (position.next c) value (c :: taken) (.code escape (c :: digits)) rest

/-! ## Numbers -/

/-- The fraction of a numeral, its point included: a point that no digit follows is none. -/
def fractionOf : List Char → List Char
  | '.' :: d :: rest => if d.isDigit then '.' :: d :: rest.takeWhile Char.isDigit else []
  | _ => []

/-- The power of ten of a numeral, its mark and sign included: a mark that no digit follows is
none. -/
def exponentOf : List Char → List Char
  | e :: rest =>
    if e = 'e' || e = 'E' then
      match rest with
      | [] => []
      | c :: after =>
        if c = '+' || c = '-' then
          match after.takeWhile Char.isDigit with
          | [] => []
          | digits => e :: c :: digits
        else match rest.takeWhile Char.isDigit with
          | [] => []
          | digits => e :: digits
    else []
  | [] => []

/-- Reads a numeral. Behind a dot it is a position in a tuple, with neither fraction nor power. -/
def numeral (behindDot : Bool) (text : List Char) : Scan :=
  let whole := text.takeWhile Char.isDigit
  let fraction := if behindDot then [] else fractionOf (text.drop whole.length)
  let exponent :=
    if behindDot then [] else exponentOf (text.drop (whole.length + fraction.length))
  let taken := whole ++ fraction ++ exponent
  let value : Decimal.Numeral :=
    { whole
      fraction := fraction.drop 1
      exponentNegative := exponent.contains '-'
      exponent := exponent.filter Char.isDigit }
  ⟨.number value.toFloat, taken, text.drop taken.length⟩

/-! ## Names and marks -/

/-- A character that a name may begin with. -/
def isNameStart (c : Char) : Bool :=
  Text.isAlphabetic c || c = '_'

/-- A character that a name may go on with. -/
def isNamePart (c : Char) : Bool :=
  Text.isAlphanumeric c || c = '_'

/-- The kind of a name: a reserved word, or a name of its own. -/
def wordKind (word : String) : TokenKind :=
  match Keyword.ofText? word with
  | some keyword => .keyword keyword
  | none => .name word

/-- Reads a name. -/
def word (text : List Char) : Scan :=
  let taken := text.takeWhile isNamePart
  ⟨wordKind (String.ofList taken), taken, text.dropWhile isNamePart⟩

/-- Reads the longest mark. -/
def markOf? (text : List Char) : Option Scan :=
  (Mark.table.find? fun (spelling, _) => spelling.isPrefixOf text).map fun (spelling, mark) =>
    ⟨.mark mark, spelling, text.drop spelling.length⟩

/-! ## Tokens -/

/-- Reads one token from a text that starts with no blank. -/
def scan (behindDot : Bool) (position : Position) (text : List Char) : Except LexError Scan :=
  match text with
  | [] => .ok ⟨.finish, [], []⟩
  | c :: rest =>
    if c = '\x22' || c = '\'' then
      stringBody c position (position.next c) [] [c] .plain rest
    else if c.isDigit then .ok (numeral behindDot text)
    else if isNameStart c then .ok (word text)
    else match markOf? text with
      | some scan => .ok scan
      | none => .error (.illegalCharacter c position)

/-- A scanned token at its place. -/
def ofScan (position : Position) (scan : Scan) : Token :=
  ⟨scan.kind, String.ofList scan.taken, position, (position.advance scan.taken).offset⟩

/-- Reads tokens until the text ends, at most `fuel` of them; the tokens read are held in reverse.
-/
def scanAll (behindDot : Bool) (position : Position) (text : List Char) (tokens : List Token) :
    Nat → Except LexError (List Token)
  | 0 => .ok tokens.reverse
  | fuel + 1 => do
    let (position, text) ← skipBlanks position text
    let scan ← scan behindDot position text
    let tokens := ofScan position scan :: tokens
    if text.isEmpty then .ok tokens.reverse
    else
      scanAll (scan.kind = .mark .dot) (position.advance scan.taken) scan.rest tokens fuel

/-- The tokens of a source text, ended by one `finish`. Every token takes a character, so a text of
`n` characters has at most `n + 1` tokens. -/
def ofSource (source : String) : Except LexError (List Token) :=
  scanAll false .start source.toList [] (source.length + 1)

end ScriptEngine.Token
