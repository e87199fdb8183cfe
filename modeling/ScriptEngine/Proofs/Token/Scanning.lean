import ScriptEngine.Proofs.Display.Numbers

/-!
# What a scanner takes

A scanner takes the front of a text. It takes the same from any other text that begins so, as long as
a blank or nothing follows: how far a token goes does not depend on what comes right behind it.

* `Apart`: a text that begins with a space, or is empty.
* `Stands`: a text that begins with neither a blank nor a comment.
* `TakesString`, `takesString_of_ok`: the inside of a string.
* `IsFraction`, `IsExponent`, `numeral_eq`, `exists_parts`: the parts of a numeral.
* `Scan.Steady`, `steady_of_scan`: a token is taken from the front of a text, and again from its lexeme
  and whatever stands apart from it.
-/

namespace ScriptEngine.Token

/-- A text that begins with a space, or is empty. -/
def Apart (text : List Char) : Prop :=
  ∀ c rest, text = c :: rest → c = ' '

theorem Apart.nil : Apart [] :=
  fun _ _ same => by cases same

theorem Apart.space (text : List Char) : Apart (' ' :: text) := by
  intro c rest same
  exact (List.cons.inj same).1.symm

/-- Nothing in front of what stands apart passes a test that a space does not pass. -/
theorem Apart.takeWhile {text : List Char} {p : Char → Bool} (apart : Apart text)
    (space : p ' ' = false) : text.takeWhile p = [] := by
  cases text with
  | nil => rfl
  | cons c rest =>
    obtain rfl := apart c rest rfl
    simp [space]

/-! ## Blanks and comments -/

/-- A text that begins with neither a blank nor a comment. -/
structure Stands (text : List Char) : Prop where
  solid : ∀ c rest, text = c :: rest → Text.isBlank c = false
  line : ∀ rest, text ≠ '/' :: '/' :: rest
  block : ∀ rest, text ≠ '/' :: '*' :: rest

theorem Stands.nil : Stands [] := by
  refine ⟨?_, ?_, ?_⟩
  · intro c rest same
    cases same
  · intro rest same
    cases same
  · intro rest same
    cases same

/-- A character that neither is a blank nor begins a comment stands in front of anything. -/
theorem Stands.cons {text : List Char} {c : Char} (blank : Text.isBlank c = false)
    (slash : c ≠ '/') : Stands (c :: text) := by
  refine ⟨?_, ?_, ?_⟩
  · intro c' rest same
    obtain ⟨rfl, -⟩ := List.cons.inj same
    exact blank
  · intro rest same
    exact slash (List.cons.inj same).1
  · intro rest same
    exact slash (List.cons.inj same).1

/-- Nothing is skipped of what stands. -/
theorem Stands.skipBlanks_eq {text : List Char} (h : Stands text) (position : Position) :
    skipBlanks position text = .ok (position, text) := by
  cases text with
  | nil => exact skipBlanks.eq_4 position
  | cons c rest =>
    have line : ∀ more, c = '/' → rest = '/' :: more → False := by
      rintro more rfl rfl
      exact h.line more rfl
    have block : ∀ more, c = '/' → rest = '*' :: more → False := by
      rintro more rfl rfl
      exact h.block more rfl
    rw [skipBlanks.eq_3 position c rest line block, h.solid c rest rfl]
    rfl

/-- What stands at the front of a text stands with anything else behind it that is apart. -/
theorem Stands.append {taken rest follow : List Char} (h : Stands (taken ++ rest))
    (ne_nil : taken ≠ []) (apart : Apart follow) : Stands (taken ++ follow) := by
  obtain ⟨c, more, rfl⟩ := List.exists_cons_of_ne_nil ne_nil
  have solid := h.solid c _ rfl
  -- A comment's mark has two characters, so at least one of them would be in `taken`.
  have mark : ∀ d more', d ≠ ' ' → c :: more ++ follow = '/' :: d :: more' →
      ∃ more'', c :: more ++ rest = '/' :: d :: more'' := by
    intro d more' solid' same
    obtain ⟨rfl, behind⟩ := List.cons.inj same
    cases more with
    | nil => exact absurd (apart d more' behind) solid'
    | cons c' more =>
      obtain ⟨rfl, -⟩ := List.cons.inj behind
      exact ⟨_, rfl⟩
  constructor
  · intro c' rest' same
    obtain ⟨rfl, -⟩ := List.cons.inj same
    exact solid
  · intro more' same
    obtain ⟨_, same'⟩ := mark '/' more' (by decide) same
    exact h.line _ same'
  · intro more' same
    obtain ⟨_, same'⟩ := mark '*' more' (by decide) same
    exact h.block _ same'

/-! ## Strings -/

/-- States that differ at most in where an escape stands. -/
inductive StringState.Alike : StringState → StringState → Prop
  | plain : Alike .plain .plain
  | escape : Alike .escape .escape
  | codeOpen (e e' : Position) : Alike (.codeOpen e) (.codeOpen e')
  | code (e e' : Position) (digits : List Char) : Alike (.code e digits) (.code e' digits)

/-- The rest of a string is taken from the front of a text, and again wherever it stands and whatever
follows it. -/
structure TakesString (quote : Char) (value taken : List Char) (state : StringState)
    (text : List Char) (s : Scan) : Prop where
  kind : ∃ content, s.kind = .string content
  again : ∃ part, text = part ++ s.rest ∧ s.taken = taken.reverse ++ part ∧
    ∀ start position state' follow, state.Alike state' →
      stringBody quote start position value taken state' (part ++ follow) =
        .ok ⟨s.kind, s.taken, follow⟩

section

variable {quote : Char} {value value' taken text : List Char} {state state₁ : StringState} {s : Scan}

/-- One more character is read in the same way wherever it stands. -/
theorem TakesString.cons {c : Char} (h : TakesString quote value' (c :: taken) state₁ text s)
    (step : ∀ start position state', state.Alike state' → ∃ state₂, state₁.Alike state₂ ∧
      ∀ follow, stringBody quote start position value taken state' (c :: follow) =
        stringBody quote start (position.next c) value' (c :: taken) state₂ follow) :
    TakesString quote value taken state (c :: text) s := by
  obtain ⟨kind, part, same, lexeme, again⟩ := h
  refine ⟨kind, c :: part, by rw [same, List.cons_append], by simp [lexeme], ?_⟩
  intro start position state' follow alike
  obtain ⟨state₂, alike', read⟩ := step start position state' alike
  rw [List.cons_append, read]
  exact again _ _ _ _ alike'

theorem takesString_of_ok {start position : Position}
    (h : stringBody quote start position value taken state text = .ok s) :
    TakesString quote value taken state text s := by
  induction text generalizing position value taken state with
  | nil => cases state <;> simp [stringBody] at h
  | cons c text ih =>
    cases state with
    | plain =>
      rw [stringBody] at h
      split at h
      · next closes =>
        obtain rfl := Except.ok.inj h
        refine ⟨⟨_, rfl⟩, [c], rfl, by simp, ?_⟩
        rintro start' position' _ follow ⟨⟩
        simp [stringBody, closes]
      · next open_ =>
        split at h
        · next backslash =>
          refine (ih h).cons ?_
          rintro start' position' _ ⟨⟩
          exact ⟨.escape, .escape, fun follow => by
            rw [stringBody, if_neg open_, if_pos backslash]⟩
        · next other =>
          refine (ih h).cons ?_
          rintro start' position' _ ⟨⟩
          exact ⟨.plain, .plain, fun follow => by simp [stringBody, open_, other]⟩
    | escape =>
      rw [stringBody] at h
      split at h
      · next byCode =>
        refine (ih h).cons ?_
        rintro start' position' _ ⟨⟩
        exact ⟨.codeOpen position', .codeOpen .., fun follow => by simp [stringBody, byCode]⟩
      · next byLetter =>
        split at h
        · next char escaped =>
          refine (ih h).cons ?_
          rintro start' position' _ ⟨⟩
          exact ⟨.plain, .plain, fun follow => by simp [stringBody, byLetter, escaped]⟩
        · cases h
    | codeOpen e =>
      rw [stringBody] at h
      split at h
      · next opens =>
        refine (ih h).cons ?_
        rintro start' position' _ ⟨⟩
        exact ⟨.code _ [], .code .., fun follow => by rw [stringBody, if_pos opens]⟩
      · cases h
    | code e digits =>
      rw [stringBody] at h
      split at h
      · next closes =>
        split at h
        · next char coded =>
          refine (ih h).cons ?_
          rintro start' position' _ ⟨⟩
          exact ⟨.plain, .plain, fun follow => by simp [stringBody, closes, coded]⟩
        · cases h
      · next inside =>
        refine (ih h).cons ?_
        rintro start' position' _ (_ | _ | _ | ⟨_, e', _⟩)
        exact ⟨.code e' (c :: digits), .code .., fun follow => by rw [stringBody, if_neg inside]⟩

end

/-! ## Numerals -/

/-- The fraction of a numeral, or none. -/
inductive IsFraction : List Char → Prop
  | none : IsFraction []
  | some {digits : List Char} : Digits digits → IsFraction ('.' :: digits)

/-- The power of ten of a numeral, or none. -/
inductive IsExponent : List Char → Prop
  | none : IsExponent []
  | plain {e : Char} {digits : List Char} : e = 'e' ∨ e = 'E' → Digits digits →
    IsExponent (e :: digits)
  | signed {e sign : Char} {digits : List Char} : e = 'e' ∨ e = 'E' → sign = '+' ∨ sign = '-' →
    Digits digits → IsExponent (e :: sign :: digits)

theorem digits_takeWhile {text : List Char} (ne_nil : text.takeWhile Char.isDigit ≠ []) :
    Digits (text.takeWhile Char.isDigit) where
  ne_nil := ne_nil
  all := List.all_eq_true.mp List.all_takeWhile

theorem isFraction_fractionOf (text : List Char) : IsFraction (fractionOf text) := by
  unfold fractionOf
  split
  · next d rest =>
    split
    · next digit =>
      have taken : (d :: rest).takeWhile Char.isDigit = d :: rest.takeWhile Char.isDigit := by
        simp [digit]
      have digits : Digits ((d :: rest).takeWhile Char.isDigit) :=
        digits_takeWhile (by simp [taken])
      exact .some (taken ▸ digits)
    · exact .none
  · exact .none

theorem fractionOf_prefix (text : List Char) : fractionOf text <+: text := by
  unfold fractionOf
  split
  · next d rest =>
    split
    · exact (List.prefix_cons_inj _).mpr ((List.prefix_cons_inj _).mpr (List.takeWhile_prefix _))
    · exact List.nil_prefix
  · exact List.nil_prefix

theorem isExponent_exponentOf (text : List Char) : IsExponent (exponentOf text) := by
  unfold exponentOf
  split
  · next e rest =>
    split
    · next mark =>
      have mark : e = 'e' ∨ e = 'E' := by simpa using mark
      split
      · exact .none
      · next c after =>
        split
        · next sign =>
          have sign : c = '+' ∨ c = '-' := by simpa using sign
          split
          · exact .none
          · next digits ne_nil => exact .signed mark sign (digits_takeWhile ne_nil)
        · split
          · exact .none
          · next digits ne_nil => exact .plain mark (digits_takeWhile ne_nil)
    · exact .none
  · exact .none

theorem exponentOf_prefix (text : List Char) : exponentOf text <+: text := by
  unfold exponentOf
  split
  · next e rest =>
    split
    · split
      · exact List.nil_prefix
      · next c after =>
        split
        · split
          · exact List.nil_prefix
          · exact (List.prefix_cons_inj _).mpr
              ((List.prefix_cons_inj _).mpr (List.takeWhile_prefix _))
        · split
          · exact List.nil_prefix
          · exact (List.prefix_cons_inj _).mpr (List.takeWhile_prefix _)
    · exact List.nil_prefix
  · exact List.nil_prefix

/-! Each part of a numeral is read again in front of what does not go on with it. -/

section

variable {whole fraction exponent follow : List Char}

theorem fractionOf_append (h : IsFraction fraction) (stops : follow.takeWhile Char.isDigit = [])
    (none : fractionOf follow = []) : fractionOf (fraction ++ follow) = fraction := by
  cases h with
  | none => exact none
  | some digits =>
    obtain ⟨d, ds, rfl⟩ := List.exists_cons_of_ne_nil digits.ne_nil
    have first : d.isDigit = true := digits.all d List.mem_cons_self
    have others := takeWhile_append (fun c mem => digits.all c (List.mem_cons_of_mem d mem)) stops
    simp [fractionOf, first, others]

theorem exponentOf_append (h : IsExponent exponent) (apart : Apart follow) :
    exponentOf (exponent ++ follow) = exponent := by
  have stops := apart.takeWhile (p := Char.isDigit) rfl
  cases h with
  | none =>
    cases follow with
    | nil => rfl
    | cons c rest =>
      obtain rfl := apart c rest rfl
      rfl
  | plain mark digits =>
    obtain ⟨d, ds, rfl⟩ := List.exists_cons_of_ne_nil digits.ne_nil
    have first : d.isDigit = true := digits.all d List.mem_cons_self
    have others := takeWhile_append digits.all stops
    have unsigned : d ≠ '+' ∧ d ≠ '-' := by
      constructor <;> rintro rfl <;> cases first
    rw [List.cons_append] at others
    simp [exponentOf, mark, unsigned, others]
  | signed mark sign digits =>
    obtain ⟨d, ds, rfl⟩ := List.exists_cons_of_ne_nil digits.ne_nil
    have all := takeWhile_append digits.all stops
    rw [List.cons_append] at all
    simp [exponentOf, mark, sign, all]

/-- What stands behind the digits of a numeral does not go on with them. -/
theorem takeWhile_exponent (h : IsExponent exponent) (apart : Apart follow) :
    (exponent ++ follow).takeWhile Char.isDigit = [] ∧ fractionOf (exponent ++ follow) = [] := by
  cases h with
  | none =>
    cases follow with
    | nil => exact ⟨rfl, rfl⟩
    | cons c rest =>
      obtain rfl := apart c rest rfl
      exact ⟨rfl, rfl⟩
  | plain mark digits => rcases mark with rfl | rfl <;> exact ⟨rfl, rfl⟩
  | signed mark sign digits => rcases mark with rfl | rfl <;> exact ⟨rfl, rfl⟩

theorem takeWhile_fraction (h : IsFraction fraction)
    (stops : follow.takeWhile Char.isDigit = []) :
    (fraction ++ follow).takeWhile Char.isDigit = [] := by
  cases h with
  | none => exact stops
  | some digits => rfl

end

/-- The parts that a numeral is read in: its digits, and its fraction and power of ten, which it has
neither of behind a dot. -/
structure Parts (dot : Bool) (whole fraction exponent : List Char) : Prop where
  digits : Digits whole
  isFraction : IsFraction fraction
  isExponent : IsExponent exponent
  bare : dot = true → fraction = [] ∧ exponent = []

/-- The number that a numeral of these parts is. -/
def numberOf (whole fraction exponent : List Char) : TokenKind :=
  .number (Decimal.Numeral.toFloat
    { whole
      fraction := fraction.drop 1
      exponentNegative := exponent.contains '-'
      exponent := exponent.filter Char.isDigit })

section

variable {dot : Bool} {whole fraction exponent follow : List Char}

theorem numeral_eq
    (digits : (whole ++ (fraction ++ (exponent ++ follow))).takeWhile Char.isDigit = whole)
    (point : (if dot then [] else fractionOf (fraction ++ (exponent ++ follow))) = fraction)
    (power : (if dot then [] else exponentOf (exponent ++ follow)) = exponent) :
    numeral dot (whole ++ (fraction ++ (exponent ++ follow))) =
      ⟨numberOf whole fraction exponent, whole ++ (fraction ++ exponent), follow⟩ := by
  have behind : (whole ++ (fraction ++ (exponent ++ follow))).drop (whole.length + fraction.length) =
      exponent ++ follow := by
    rw [← List.append_assoc]
    exact List.drop_left' List.length_append
  have left : (whole ++ (fraction ++ (exponent ++ follow))).drop
      (whole ++ (fraction ++ exponent)).length = follow := by
    simp only [← List.append_assoc]
    exact List.drop_left' rfl
  rw [numeral, digits, List.drop_left, point, behind, power]
  simp only [List.append_assoc, left]
  rfl

/-- A text that begins with a digit is read as a numeral of some parts. -/
theorem exists_parts {c : Char} (dot : Bool) (text : List Char) (digit : c.isDigit = true) :
    ∃ whole fraction exponent rest, Parts dot whole fraction exponent ∧
      c :: text = whole ++ (fraction ++ (exponent ++ rest)) ∧
      numeral dot (c :: text) =
        ⟨numberOf whole fraction exponent, whole ++ (fraction ++ exponent), rest⟩ := by
  have digits : Digits ((c :: text).takeWhile Char.isDigit) :=
    digits_takeWhile (by simp [digit])
  obtain ⟨after, whole⟩ := List.takeWhile_prefix (l := c :: text) Char.isDigit
  cases dot with
  | true =>
    refine ⟨_, [], [], after, ⟨digits, .none, .none, fun _ => ⟨rfl, rfl⟩⟩, whole.symm, ?_⟩
    have digits' : ((c :: text).takeWhile Char.isDigit ++ ([] ++ ([] ++ after))).takeWhile
        Char.isDigit = (c :: text).takeWhile Char.isDigit := by
      simp only [List.nil_append, whole]
    have read : numeral true ((c :: text).takeWhile Char.isDigit ++ ([] ++ ([] ++ after))) = _ :=
      numeral_eq digits' rfl rfl
    exact (congrArg (numeral true) whole.symm).trans read
  | false =>
    obtain ⟨rest, fraction⟩ := fractionOf_prefix after
    obtain ⟨rest', exponent⟩ := exponentOf_prefix rest
    have split : c :: text = (c :: text).takeWhile Char.isDigit ++
        (fractionOf after ++ (exponentOf rest ++ rest')) := by
      rw [exponent, fraction, whole]
    refine ⟨_, _, _, rest', ⟨digits, isFraction_fractionOf after, isExponent_exponentOf rest,
      nofun⟩, split, ?_⟩
    refine (congrArg (numeral false) split).trans (numeral_eq ?_ ?_ ?_)
    · rw [← split]
    · rw [exponent, fraction]
      rfl
    · rw [exponent]
      rfl

/-- The parts of a numeral are read again in front of what stands apart. -/
theorem numeral_parts (parts : Parts dot whole fraction exponent) (apart : Apart follow) :
    numeral dot (whole ++ (fraction ++ (exponent ++ follow))) =
      ⟨numberOf whole fraction exponent, whole ++ (fraction ++ exponent), follow⟩ := by
  obtain ⟨stops, pointless⟩ := takeWhile_exponent parts.isExponent apart
  apply numeral_eq
  · exact takeWhile_append parts.digits.all (takeWhile_fraction parts.isFraction stops)
  · cases dot with
    | true => exact (parts.bare rfl).1.symm
    | false => exact fractionOf_append parts.isFraction stops pointless
  · cases dot with
    | true => exact (parts.bare rfl).2.symm
    | false => exact exponentOf_append parts.isExponent apart

end

/-! ## Marks -/

/-- No mark has a space in it, or nothing. -/
theorem spelling_of_mem {entry : List Char × Mark} (mem : entry ∈ Mark.table) :
    entry.1 ≠ [] ∧ ' ' ∉ entry.1 := by
  have all : ∀ entry ∈ Mark.table, entry.1 ≠ [] ∧ ' ' ∉ entry.1 := by decide
  exact all entry mem

/-- A part without a space that a text begins with does not go on into what stands apart. -/
theorem prefix_of_apart {part text follow : List Char} (solid : ' ' ∉ part) (apart : Apart follow)
    (begins : part <+: text ++ follow) : part <+: text := by
  rcases List.prefix_or_prefix_of_prefix begins (List.prefix_append text follow) with h | h
  · exact h
  · obtain ⟨more, rfl⟩ := h
    obtain ⟨behind, same⟩ := begins
    rw [List.append_assoc, List.append_cancel_left_eq] at same
    cases more with
    | nil => simp
    | cons c more =>
      obtain rfl := apart c _ same.symm
      exact absurd (List.mem_append_right text List.mem_cons_self) solid

/-- A mark is read again in front of what stands apart: no mark that stands earlier in the table is
completed by that. -/
theorem markOf?_append {text follow : List Char} {s : Scan} (h : markOf? text = some s)
    (apart : Apart follow) : markOf? (s.taken ++ follow) = some ⟨s.kind, s.taken, follow⟩ := by
  obtain ⟨⟨spelling, mark⟩, found, rfl⟩ := Option.map_eq_some_iff.mp h
  obtain ⟨begins, earlier, later, table, none⟩ := List.find?_eq_some_iff_append.mp found
  refine Option.map_eq_some_iff.mpr ⟨(spelling, mark), ?_, by simp⟩
  refine List.find?_eq_some_iff_append.mpr ⟨by simp, earlier, later, table, ?_⟩
  intro entry mem
  have solid := (spelling_of_mem (table ▸ List.mem_append_left _ mem)).2
  have missing := none entry mem
  simp only [Bool.not_eq_true', Bool.eq_false_iff, List.isPrefixOf_iff_prefix, ne_eq] at *
  intro completes
  exact missing ((prefix_of_apart solid apart completes).trans begins)

/-- A mark is the front of the text. -/
theorem taken_of_markOf? {text : List Char} {s : Scan} (h : markOf? text = some s) :
    text = s.taken ++ s.rest ∧ s.taken ≠ [] ∧ ∃ mark, s.kind = .mark mark := by
  obtain ⟨⟨spelling, mark⟩, found, rfl⟩ := Option.map_eq_some_iff.mp h
  have begins := List.find?_some found
  obtain ⟨rest, rfl⟩ := List.isPrefixOf_iff_prefix.mp begins
  exact ⟨by simp, (spelling_of_mem (List.mem_of_find?_eq_some found)).1, mark, rfl⟩

/-! ## Tokens -/

/-- A token is taken from the front of a text, and again from its lexeme in front of whatever stands
apart. -/
structure Scan.Steady (dot : Bool) (text : List Char) (s : Scan) : Prop where
  split : text = s.taken ++ s.rest
  ne_nil : s.taken ≠ []
  kind : s.kind ≠ .finish
  again : ∀ position follow, Apart follow →
    scan dot position (s.taken ++ follow) = .ok ⟨s.kind, s.taken, follow⟩

/-- Something of the text is taken. -/
theorem Scan.Steady.shorter {dot : Bool} {text : List Char} {s : Scan} (h : s.Steady dot text) :
    s.rest.length < text.length := by
  have taken := List.length_pos_iff.mpr h.ne_nil
  have length := congrArg List.length h.split
  rw [List.length_append] at length
  omega

/-- A source has fewer characters than rounds to read it in. -/
theorem length_toList_lt (source : String) : source.toList.length < source.length + 1 := by
  rw [String.length_toList]
  exact Nat.lt_succ_self _

theorem wordKind_ne_finish (text : String) : wordKind text ≠ .finish := by
  unfold wordKind
  split <;> nofun

theorem isNamePart_of_start {c : Char} (h : isNameStart c = true) : isNamePart c = true := by
  simp only [isNameStart, isNamePart, Text.isAlphanumeric, Bool.or_eq_true] at h ⊢
  rcases h with letter | line
  · exact .inl (.inl letter)
  · exact .inr line

/-- Every token is steady. -/
theorem steady_of_scan {dot : Bool} {position : Position} {text : List Char} {s : Scan}
    (some : text ≠ []) (h : scan dot position text = .ok s) : s.Steady dot text := by
  obtain ⟨c, rest, rfl⟩ := List.exists_cons_of_ne_nil some
  rw [scan] at h
  split at h
  · next quote =>
    obtain ⟨⟨content, kind⟩, part, same, lexeme, again⟩ := takesString_of_ok h
    have lexeme : s.taken = c :: part := lexeme
    refine ⟨by rw [lexeme, same, List.cons_append], by simp [lexeme], by simp [kind], ?_⟩
    intro position' follow apart
    rw [lexeme, List.cons_append, scan, if_pos quote, ← lexeme]
    exact again _ _ _ _ .plain
  · next unquoted =>
    split at h
    · next digit =>
      obtain rfl := Except.ok.inj h
      obtain ⟨whole, fraction, exponent, rest', parts, split, read⟩ := exists_parts dot rest digit
      obtain ⟨d, ds, rfl⟩ := List.exists_cons_of_ne_nil parts.digits.ne_nil
      have digit' : d.isDigit = true := parts.digits.all d List.mem_cons_self
      rw [read]
      refine ⟨by simp [split], by simp, nofun, ?_⟩
      intro position' follow apart
      have again := numeral_parts parts apart
      obtain rfl : c = d := (List.cons.inj split).1
      simp only [List.append_assoc, List.cons_append] at again ⊢
      rw [scan, if_neg unquoted, if_pos digit, again]
    · next nonDigit =>
      split at h
      · next name =>
        obtain rfl := Except.ok.inj h
        have taken : (c :: rest).takeWhile isNamePart = c :: rest.takeWhile isNamePart := by
          simp [isNamePart_of_start name]
        have parts : ∀ d ∈ (c :: rest).takeWhile isNamePart, isNamePart d = true :=
          List.all_eq_true.mp List.all_takeWhile
        refine ⟨List.takeWhile_append_dropWhile.symm, by simp [word, taken],
          wordKind_ne_finish _, ?_⟩
        intro position' follow apart
        have stops := apart.takeWhile (p := isNamePart) rfl
        have again := takeWhile_append parts stops
        have behind : ((c :: rest).takeWhile isNamePart ++ follow).dropWhile isNamePart = follow := by
          rw [List.dropWhile_append_of_pos parts]
          have whole := List.takeWhile_append_dropWhile (p := isNamePart) (l := follow)
          rwa [stops, List.nil_append] at whole
        simp only [word, taken, List.cons_append] at again behind ⊢
        rw [scan, if_neg unquoted, if_neg nonDigit, if_pos name, word, again, behind]
      · next nameless =>
        split at h
        · next found =>
          obtain rfl := Except.ok.inj h
          obtain ⟨split, ne_nil, mark, kind⟩ := taken_of_markOf? found
          refine ⟨split, ne_nil, by simp [kind], ?_⟩
          intro position' follow apart
          have again := markOf?_append found apart
          obtain ⟨d, ds, taken⟩ := List.exists_cons_of_ne_nil ne_nil
          rw [taken, List.cons_append] at split
          obtain rfl := (List.cons.inj split).1
          rw [taken, List.cons_append] at again ⊢
          rw [scan, if_neg unquoted, if_neg nonDigit, if_neg nameless, again]
        · cases h

end ScriptEngine.Token
