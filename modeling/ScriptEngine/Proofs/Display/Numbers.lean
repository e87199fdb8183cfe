import ScriptEngine.Decimal.Text
import ScriptEngine.Token.Lexer

/-!
# How numbers are written

A finite number is written as a numeral, maybe behind a minus: digits, maybe a point and more
digits, and never a power of ten. So the lexer takes the numeral as a whole.

* `Token.IsNumeral`, `Token.numeral_append`: what is read as one number, whatever follows it.
* `Decimal.isNumeral_numeralOf`: finite numbers are written so.
* `Decimal.ReadsBack`: the text of a number is read as the same number.
-/

namespace ScriptEngine

/-! ## Numerals -/

namespace Token

/-- Some digits. -/
structure Digits (digits : List Char) : Prop where
  ne_nil : digits ≠ []
  all : ∀ c ∈ digits, c.isDigit = true

/-- Digits, maybe with a point and more digits. -/
inductive IsNumeral : List Char → Prop
  | whole {digits : List Char} : Digits digits → IsNumeral digits
  | point {whole fraction : List Char} : Digits whole → Digits fraction →
    IsNumeral (whole ++ '.' :: fraction)

/-- A text that does not begin with what could belong to a numeral or a name before it. -/
def Delimited (text : List Char) : Prop :=
  ∀ c rest, text = c :: rest → c = ',' ∨ c = ')' ∨ c = ']' ∨ c = ':'

theorem Delimited.nil : Delimited [] :=
  fun _ _ same => by cases same

theorem Delimited.head {text : List Char} {p : Char → Bool} (h : Delimited text)
    (comma : p ',' = false) (paren : p ')' = false) (bracket : p ']' = false)
    (colon : p ':' = false) : text.takeWhile p = [] ∧ text.dropWhile p = text := by
  cases text with
  | nil => exact ⟨rfl, rfl⟩
  | cons c rest => rcases h c rest rfl with rfl | rfl | rfl | rfl <;> simp [*]

/-- A part of a text that all satisfies a test is split off by it, if what follows does not. -/
theorem takeWhile_append {p : Char → Bool} {part text : List Char} (all : ∀ c ∈ part, p c = true)
    (stops : text.takeWhile p = []) : (part ++ text).takeWhile p = part := by
  rw [List.takeWhile_append_of_pos all, stops, List.append_nil]

theorem fractionOf_of_delimited {text : List Char} (h : Delimited text) : fractionOf text = [] := by
  unfold fractionOf
  split
  · next d rest =>
    obtain no | no | no | no := h '.' (d :: rest) rfl <;> cases no
  · rfl

theorem exponentOf_of_delimited {text : List Char} (h : Delimited text) : exponentOf text = [] := by
  cases text with
  | nil => rfl
  | cons c rest => rcases h c rest rfl with rfl | rfl | rfl | rfl <;> rfl

/-- Digits are read as a number without a fraction. -/
theorem numeral_whole {digits text : List Char} (h : Digits digits) (delimited : Delimited text) :
    numeral false (digits ++ text) =
      ⟨.number (Decimal.Numeral.mk digits [] false []).toFloat, digits, text⟩ := by
  have stops := (delimited.head (p := Char.isDigit) rfl rfl rfl rfl).1
  simp [numeral, takeWhile_append h.all stops, fractionOf_of_delimited delimited,
    exponentOf_of_delimited delimited]

/-- Digits with a point and more digits are read as a number with a fraction. -/
theorem numeral_point {whole fraction text : List Char} (h : Digits whole) (h' : Digits fraction)
    (delimited : Delimited text) :
    numeral false (whole ++ '.' :: fraction ++ text) =
      ⟨.number (Decimal.Numeral.mk whole fraction false []).toFloat, whole ++ '.' :: fraction,
        text⟩ := by
  have stops := (delimited.head (p := Char.isDigit) rfl rfl rfl rfl).1
  have taken : (whole ++ '.' :: (fraction ++ text)).takeWhile Char.isDigit = whole :=
    takeWhile_append h.all rfl
  have point : fractionOf ('.' :: (fraction ++ text)) = '.' :: fraction := by
    obtain ⟨ne_nil, all⟩ := h'
    obtain ⟨d, ds, rfl⟩ := List.exists_cons_of_ne_nil ne_nil
    have first : d.isDigit = true := all d List.mem_cons_self
    have others := takeWhile_append (fun c mem => all c (List.mem_cons_of_mem d mem)) stops
    simp [fractionOf, first, others]
  have behind : (whole ++ '.' :: (fraction ++ text)).drop (whole.length + (fraction.length + 1)) =
      text := by
    rw [← List.cons_append, ← List.append_assoc]
    exact List.drop_left' (by simp)
  simp [numeral, taken, point, behind, exponentOf_of_delimited delimited]

/-- A numeral and what follows it are told apart. -/
theorem numeral_append {digits text : List Char} (h : IsNumeral digits) (delimited : Delimited text) :
    numeral false (digits ++ text) = ⟨(numeral false digits).kind, digits, text⟩ := by
  cases h with
  | whole h =>
    have alone := numeral_whole h .nil
    rw [List.append_nil] at alone
    rw [numeral_whole h delimited, alone]
  | point h h' =>
    have alone := numeral_point h h' .nil
    rw [List.append_nil] at alone
    rw [numeral_point h h' delimited, alone]

theorem IsNumeral.exists_head {text : List Char} (h : IsNumeral text) :
    ∃ d rest, text = d :: rest ∧ d.isDigit = true := by
  cases h with
  | whole h =>
    obtain ⟨d, rest, rfl⟩ := List.exists_cons_of_ne_nil h.ne_nil
    exact ⟨d, rest, rfl, h.all d List.mem_cons_self⟩
  | point h h' =>
    obtain ⟨d, rest, rfl⟩ := List.exists_cons_of_ne_nil h.ne_nil
    exact ⟨d, rest ++ '.' :: _, rfl, h.all d List.mem_cons_self⟩

end Token

/-! ## Numbers -/

namespace Decimal

open Token

/-- A number that is neither infinite nor none at all. -/
def IsFinite (x : Float) : Prop := x.isNaN = false ∧ x.isInf = false

/-- Whether a number is written with a minus. -/
def isNegated (x : Float) : Bool := (scriptText x).toList.head? == some '-'

/-- How a number is written behind its minus, if it has one. -/
def numeralOf (x : Float) : List Char :=
  if isNegated x then (scriptText x).toList.tail else (scriptText x).toList

/-- The number that the lexer reads from a numeral. -/
def valueOf (digits : List Char) : Float :=
  match (numeral false digits).kind with
  | .number value => value
  | _ => 0.0

/-- The number that a script reads from the text of a number. -/
def readBack (x : Float) : Float :=
  if isNegated x then -valueOf (numeralOf x) else valueOf (numeralOf x)

/-- The text of a number is read back as the same number. -/
def ReadsBack (x : Float) : Prop := (x == readBack x) = true

theorem kind_numeral (digits : List Char) :
    (numeral false digits).kind = .number (valueOf digits) :=
  rfl

theorem toList_scriptText (x : Float) :
    (scriptText x).toList = if isNegated x then '-' :: numeralOf x else numeralOf x := by
  unfold numeralOf
  split
  · next negated =>
    have head : (scriptText x).toList.head? = some '-' := by simpa [isNegated] using negated
    obtain ⟨rest, same⟩ := List.head?_eq_some_iff.mp head
    rw [same, List.tail_cons]
  · rfl

theorem digits_toDigits (n : Nat) : Digits (Nat.toDigits 10 n) :=
  ⟨Nat.toDigits_ne_nil, fun _ mem => Nat.isDigit_of_mem_toDigits (by decide) (by decide) mem⟩

theorem digits_append_zeros {digits : List Char} (h : Digits digits) (n : Nat) :
    Digits (digits ++ List.replicate n '0') := by
  refine ⟨fun none => h.ne_nil (List.append_eq_nil_iff.mp none).1, fun c mem => ?_⟩
  rcases List.mem_append.mp mem with mem | mem
  · exact h.all c mem
  · obtain rfl := List.eq_of_mem_replicate mem
    rfl

/-- A scaled decimal is written as a numeral. -/
theorem isNumeral_plain (d : Scaled) : IsNumeral d.plain.toList := by
  have isDigits := digits_toDigits d.digits
  unfold Scaled.plain
  dsimp only
  split
  · rw [String.toList_ofList]
    exact .whole (digits_append_zeros isDigits _)
  · next small =>
    rw [String.toList_ofList]
    generalize Nat.toDigits 10 d.digits = digits at *
    generalize places_def : (-d.exponent).toNat = places
    have some : 1 ≤ places := by omega
    generalize padded_def : List.replicate (places + 1 - digits.length) '0' ++ digits = padded
    have long : places + 1 ≤ padded.length := by
      rw [← padded_def, List.length_append, List.length_replicate]
      omega
    have all : ∀ c ∈ padded, c.isDigit = true := by
      intro c mem
      rw [← padded_def] at mem
      rcases List.mem_append.mp mem with mem | mem
      · obtain rfl := List.eq_of_mem_replicate mem
        rfl
      · exact isDigits.all c mem
    refine .point ⟨?_, fun c mem => all c (List.mem_of_mem_take mem)⟩
      ⟨?_, fun c mem => all c (List.mem_of_mem_drop mem)⟩
    · exact List.ne_nil_of_length_pos (by rw [List.length_take]; omega)
    · exact List.ne_nil_of_length_pos (by rw [List.length_drop]; omega)

/-- What stands behind the minus of a text, if it has one, is how the number is written. -/
theorem numeralOf_eq {x : Float} {digits : List Char} (h : IsNumeral digits)
    (text : (scriptText x).toList = digits ∨ (scriptText x).toList = '-' :: digits) :
    numeralOf x = digits := by
  obtain ⟨d, rest, rfl, digit⟩ := h.exists_head
  have unsigned : d ≠ '-' := by
    rintro rfl
    cases digit
  rcases text with text | text <;> simp [numeralOf, isNegated, text, unsigned]

/-- The digits of a number in positional notation, its sign aside. -/
def digitsOf (x : Float) : List Char :=
  if magnitudeBits x = 0 then ['0']
  else ((Binary.ofBits (magnitudeBits x)).shortest .up).plain.toList

theorem isNumeral_digitsOf (x : Float) : IsNumeral (digitsOf x) := by
  unfold digitsOf
  split
  · exact .whole ⟨List.cons_ne_nil _ _, by simp⟩
  · exact isNumeral_plain _

/-- In positional notation a number with its sign set has a minus. -/
theorem toList_plain {x : Float} (finite : IsFinite x) :
    (plain x).toList = if isSigned x then '-' :: digitsOf x else digitsOf x := by
  obtain ⟨number, bounded⟩ := finite
  unfold plain digitsOf
  simp only [number, bounded, Bool.false_eq_true, if_false]
  split <;> split <;> simp

/-- A finite number is written as a numeral, maybe behind a minus. -/
theorem exists_numeral {x : Float} (finite : IsFinite x) :
    ∃ digits, IsNumeral digits ∧
      ((scriptText x).toList = digits ∨ (scriptText x).toList = '-' :: digits) := by
  unfold scriptText
  split
  · refine ⟨_, .whole (digits_toDigits (Int64.ofIntClamp (wholePart x)).toInt.natAbs), ?_⟩
    unfold wholeText intText natText
    split
    · exact .inr (by simp)
    · exact .inl (by simp)
  · refine ⟨_, isNumeral_digitsOf x, ?_⟩
    rw [toList_plain finite]
    split
    · exact .inr rfl
    · exact .inl rfl

theorem isNumeral_numeralOf {x : Float} (finite : IsFinite x) : IsNumeral (numeralOf x) := by
  obtain ⟨digits, h, text⟩ := exists_numeral finite
  exact numeralOf_eq h text ▸ h

end Decimal

end ScriptEngine
