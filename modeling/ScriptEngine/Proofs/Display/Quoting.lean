import ScriptEngine.Proofs.Token.Tiling
import ScriptEngine.Store.Display
import ScriptEngine.Tree.Outline

/-!
# Quoted texts are read back

A text between double quotes is read as one token with the text, whichever of its characters are
written by their code points.

* `Text.quotedBy`, `Text.quoted_eq`: texts in quotes, by the characters that show by their code points.
* `Token.hexValue?_hexDigits`, `Token.charOfHex?_hexDigits`: a number, and a character, from
  hexadecimal digits.
* `Token.stringBody_quotedCharBy`, `Token.scan_quotedCharsBy`: one character inside quotes, and all of
  them.
* `Token.IsQuoted`, `Token.isQuoted_quotedBy`: a source that is one text in quotes.
-/

namespace ScriptEngine

namespace Text

variable (coded : Char → Bool)

/-- How one character is written inside quotes, if the `coded` ones that no letter stands for are
written by their code points. -/
def quotedCharBy (c : Char) : List Char :=
  match c with
  | '\x00' => ['\\', '0']
  | '\t' => ['\\', 't']
  | '\r' => ['\\', 'r']
  | '\n' => ['\\', 'n']
  | '\\' => ['\\', '\\']
  | '\x22' => ['\\', '\x22']
  | _ => if coded c then escapedCode c else [c]

/-- The characters of a text that is quoted so. -/
def quotedCharsBy (chars : List Char) : List Char :=
  '\x22' :: (chars.flatMap (quotedCharBy coded) ++ ['\x22'])

/-- The text between double quotes, its `coded` characters by their code points. -/
def quotedBy (text : String) : String :=
  String.ofList (quotedCharsBy coded text.toList)

/-- A character that does not show as itself behind another one. -/
def isHidden (c : Char) : Bool :=
  isGraphemeExtend c || !isPrintable c

theorem quotedChars_eq (chars : List Char) : quotedChars chars = quotedCharsBy isHidden chars :=
  rfl

/-- Texts are quoted with their hidden characters by their code points. -/
theorem quoted_eq (text : String) : quoted text = quotedBy isHidden text :=
  rfl

end Text

namespace Token

/-! ## Hexadecimal digits -/

theorem digitChar_of_lt_ten : ∀ d < 10, (Nat.digitChar d).isDigit = true ∧
    (Nat.digitChar d).toNat - 48 = d := by
  decide

theorem digitChar_of_ten_le : ∀ d < 16, 10 ≤ d → (Nat.digitChar d).isDigit = false ∧
    ('a' ≤ Nat.digitChar d ∧ Nat.digitChar d ≤ 'f') ∧
      (Nat.digitChar d).toNat - 97 + 10 = d := by
  decide

/-- One more digit of a hexadecimal number. -/
theorem hexValue?_append_digit {digits : List Char} {value d : Nat}
    (h : hexValue? digits = some value) (small : d < 16) :
    hexValue? (digits ++ [d.digitChar]) = some (16 * value + d) := by
  rw [hexValue?, List.foldl_append, ← hexValue?, h]
  rcases Nat.lt_or_ge d 10 with low | high
  · obtain ⟨digit, worth⟩ := digitChar_of_lt_ten d low
    simp [digit, worth]
  · obtain ⟨digit, letter, worth⟩ := digitChar_of_ten_le d small high
    simp [digit, letter, worth]

/-- The hexadecimal digits of a number are read as the number. -/
theorem hexValue?_hexDigits (n : Nat) : hexValue? (Text.hexDigits n) = some n := by
  induction n using Nat.strongRecOn with
  | ind n ih =>
    unfold Text.hexDigits
    rw [Nat.toDigits_eq_if (by decide)]
    split
    · next small =>
      have none : hexValue? [] = some 0 := rfl
      have first := hexValue?_append_digit none small
      rwa [Nat.mul_zero, Nat.zero_add] at first
    · next large =>
      have rest := hexValue?_append_digit (ih (n / 16) (by omega)) (Nat.mod_lt n (by decide))
      rwa [Nat.div_add_mod] at rest

theorem exists_of_mem_hexDigits {n : Nat} {c : Char} (mem : c ∈ Text.hexDigits n) :
    ∃ d < 16, c = Nat.digitChar d := by
  induction n using Nat.strongRecOn with
  | ind n ih =>
    unfold Text.hexDigits at mem
    rw [Nat.toDigits_eq_if (by decide)] at mem
    split at mem
    · next small => exact ⟨n, small, List.mem_singleton.mp mem⟩
    · next large =>
      rcases List.mem_append.mp mem with mem | mem
      · exact ih (n / 16) (by omega) mem
      · exact ⟨n % 16, Nat.mod_lt n (by decide), List.mem_singleton.mp mem⟩

theorem ne_of_mem_hexDigits {n : Nat} {c : Char} (mem : c ∈ Text.hexDigits n) :
    c ≠ '+' ∧ c ≠ '\x7d' := by
  obtain ⟨d, small, rfl⟩ := exists_of_mem_hexDigits mem
  have all : ∀ d < 16, Nat.digitChar d ≠ '+' ∧ Nat.digitChar d ≠ '\x7d' := by decide
  exact all d small

/-- Digits without a plus in front are those of the code point. -/
theorem charOfHex?_cons {d : Char} (unsigned : d ≠ '+') (ds : List Char) :
    charOfHex? (d :: ds) = (hexValue? (d :: ds)).bind fun code =>
      if h : code.isValidChar then some (Char.ofNatAux code h) else none := by
  delta charOfHex?
  extract_lets digits
  have same : digits = d :: ds := by
    unfold digits
    split
    · next plus => exact absurd (List.cons.inj plus).1 unsigned
    · rfl
  rw [same]
  rfl

/-- The digits of the code point of a character are read as the character. -/
theorem charOfHex?_hexDigits (c : Char) : charOfHex? (Text.hexDigits c.toNat) = some c := by
  have value := hexValue?_hexDigits c.toNat
  have valid : c.toNat.isValidChar := c.valid
  have back : Char.ofNatAux c.toNat valid = c := by
    have same := Char.ofNat_toNat c
    rwa [Char.ofNat, dif_pos valid] at same
  cases digits : Text.hexDigits c.toNat with
  | nil => exact absurd digits Nat.toDigits_ne_nil
  | cons d ds =>
    have unsigned : d ≠ '+' := (ne_of_mem_hexDigits (digits ▸ List.mem_cons_self)).1
    rw [digits] at value
    rw [charOfHex?_cons unsigned, value, Option.bind_some, dif_pos valid, back]

/-! ## Quoted texts -/

section

variable (coded : Char → Bool) (start position : Position) (value taken text : List Char)

/-- The digits between braces are held until the brace closes. -/
theorem stringBody_digits (escape : Position) (held : List Char) {digits : List Char}
    (plain : ∀ c ∈ digits, c ≠ '\x7d') : ∃ position',
    stringBody '\x22' start position value taken (.code escape held) (digits ++ text) =
      stringBody '\x22' start position' value (digits.reverse ++ taken)
        (.code escape (digits.reverse ++ held)) text := by
  induction digits generalizing position taken held with
  | nil => exact ⟨position, rfl⟩
  | cons d digits ih =>
    obtain ⟨position', rest⟩ := ih (position.next d) (d :: taken) (d :: held)
      (fun c mem => plain c (List.mem_cons_of_mem d mem))
    refine ⟨position', ?_⟩
    rw [List.cons_append, stringBody, if_neg (plain d List.mem_cons_self), rest]
    simp

/-- A character as it is quoted is read as the character. -/
theorem stringBody_quotedCharBy (c : Char) : ∃ position',
    stringBody '\x22' start position value taken .plain (Text.quotedCharBy coded c ++ text) =
      stringBody '\x22' start position' (c :: value)
        ((Text.quotedCharBy coded c).reverse ++ taken) .plain text := by
  unfold Text.quotedCharBy
  split
  · exact ⟨_, rfl⟩
  · exact ⟨_, rfl⟩
  · exact ⟨_, rfl⟩
  · exact ⟨_, rfl⟩
  · exact ⟨_, rfl⟩
  · exact ⟨_, rfl⟩
  · next backslash quote =>
    split
    · have digits : ∀ d ∈ Text.hexDigits c.toNat, d ≠ '\x7d' :=
        fun d mem => (ne_of_mem_hexDigits mem).2
      obtain ⟨position', held⟩ := stringBody_digits start
        (((position.next '\\').next 'u').next '\x7b') value ('\x7b' :: 'u' :: '\\' :: taken)
        ('\x7d' :: text) (position.next '\\') [] digits
      refine ⟨position'.next '\x7d', ?_⟩
      simp only [Text.escapedCode, List.append_assoc, List.cons_append, List.nil_append]
      rw [stringBody, if_neg (by decide), if_pos rfl, stringBody, if_pos rfl, stringBody,
        if_pos rfl, held, stringBody, if_pos rfl]
      simp [charOfHex?_hexDigits]
    · exact ⟨_, by rw [List.cons_append, stringBody, if_neg quote, if_neg backslash]; rfl⟩

/-- The inside of a quoted text is read as the text. -/
theorem stringBody_quotedBy (chars : List Char) :
    stringBody '\x22' start position value taken .plain
        (chars.flatMap (Text.quotedCharBy coded) ++ '\x22' :: text) =
      .ok ⟨.string (String.ofList (value.reverse ++ chars)),
        taken.reverse ++ (chars.flatMap (Text.quotedCharBy coded) ++ ['\x22']), text⟩ := by
  induction chars generalizing position value taken with
  | nil => simp [stringBody]
  | cons c chars ih =>
    obtain ⟨position', first⟩ := stringBody_quotedCharBy coded start position value taken
      (chars.flatMap (Text.quotedCharBy coded) ++ '\x22' :: text) c
    rw [List.flatMap_cons, List.append_assoc, first, ih]
    simp

end

/-- A quoted text is one token, whatever follows it. -/
theorem scan_quotedCharsBy (coded : Char → Bool) (dot : Bool) (position : Position)
    (chars follow : List Char) :
    scan dot position (Text.quotedCharsBy coded chars ++ follow) =
      .ok ⟨.string (String.ofList chars), Text.quotedCharsBy coded chars, follow⟩ := by
  have inside := stringBody_quotedBy coded position (position.next '\x22') [] ['\x22'] follow chars
  simp only [Text.quotedCharsBy, List.cons_append, List.append_assoc, List.nil_append, scan]
  exact inside

/-! ## Sources that are one text in quotes -/

/-- A source is split into one token, which is the whole source and stands for the text, and the one
behind it. -/
def IsQuoted (source text : String) : Prop :=
  ofSource source = .ok
    [⟨.string text, source, .start, source.length⟩,
      ⟨.finish, "", .after source.toList, source.length⟩]

/-- A text in quotes is such a source. -/
theorem isQuoted_quotedBy (coded : Char → Bool) (text : String) :
    IsQuoted (Text.quotedBy coded text) text := by
  obtain ⟨source, same⟩ : ∃ source, Text.quotedBy coded text = source := ⟨_, rfl⟩
  have chars : source.toList = Text.quotedCharsBy coded text.toList := by
    rw [← same, Text.quotedBy, String.toList_ofList]
  obtain ⟨inside, front⟩ : ∃ inside, source.toList = '\x22' :: inside := ⟨_, chars⟩
  have skips : skipBlanks .start source.toList = .ok (.start, '\x22' :: inside) := by
    rw [front]
    exact (Stands.cons rfl (by decide)).skipBlanks_eq .start
  have read : scan false .start ('\x22' :: inside) = .ok ⟨.string text, source.toList, []⟩ := by
    have whole := scan_quotedCharsBy coded false .start text.toList []
    rw [List.append_nil, String.ofList_toList, ← chars] at whole
    rw [← front, whole]
  have behind : Position.start.advance source.toList = .after source.toList :=
    Position.advance_after [] source.toList
  have more : source.length = inside.length + 1 := by
    rw [← String.length_toList, front, List.length_cons]
  have offset : (Position.after source.toList).offset = inside.length + 1 :=
    congrArg List.length front
  rw [same, IsQuoted, ofSource, scanAll_token skips read, more,
    scanAll_finish (Stands.nil.skipBlanks_eq _)]
  simp only [ofScan, behind, offset, String.ofList_toList]
  rfl

/-- Texts in quotes are read back, whichever of their characters are written by their code points. So
is a text where it is a literal of an outline, and where it shows inside another value. -/
theorem quoted_reads_back (text : String) :
    (∀ coded, IsQuoted (Text.quotedBy coded text) text) ∧
      IsQuoted (Literal.string text).text text ∧
      ∀ (s : Store) levels, IsQuoted (s.textOf (levels + 1) true (.string text)) text := by
  have shown := isQuoted_quotedBy Text.isHidden text
  have literal : (Literal.string text).text = Text.quotedBy Text.isHidden text := by
    rw [Literal.text, Text.quoted_eq]
  have nested (s : Store) (levels : Nat) :
      s.textOf (levels + 1) true (.string text) = Text.quotedBy Text.isHidden text := by
    rw [Store.textOf, Text.quoted_eq]
  refine ⟨fun coded => isQuoted_quotedBy coded text, ?_, fun s levels => ?_⟩
  · rwa [literal]
  · rwa [nested]

end Token

end ScriptEngine
