import ScriptEngine.Proofs.Display.Datum
import ScriptEngine.Proofs.Display.Numbers
import ScriptEngine.Proofs.Display.Quoting

/-!
# Written data is split into its tokens

Each part of a written datum is split into tokens of known kinds, if what follows it cannot belong
to its last token.

* `Token.Lexes`, `Token.Lexes.ofSource`: a text is split so, whatever stands before it.
* `Token.lexes_quoted`, `Token.lexes_numeral`: texts in quotes and numerals.
* `Datum.kinds`, `Datum.lexes_text`: the tokens of a datum.
-/

namespace ScriptEngine

namespace Token

/-! ## Splitting a text in parts -/

/-- In front of what follows, a text is split into tokens of these kinds, whatever stands before it.
-/
structure Lexes (text : List Char) (kinds : List TokenKind) (follow : List Char) : Prop where
  length_le : kinds.length ≤ text.length
  split : ∀ position tokens, ∃ (read : List Token) (position' : Position),
    read.map (·.kind) = kinds ∧ ∀ fuel,
      scanAll false position (text ++ follow) tokens (kinds.length + fuel) =
        scanAll false position' follow (read.reverse ++ tokens) fuel

variable {text follow : List Char} {kinds : List TokenKind}

theorem Lexes.nil : Lexes [] [] follow :=
  ⟨Nat.le_refl 0, fun position _ => ⟨[], position, rfl, fun fuel => by simp⟩⟩

theorem Lexes.append {text' : List Char} {kinds' : List TokenKind}
    (h : Lexes text kinds (text' ++ follow)) (h' : Lexes text' kinds' follow) :
    Lexes (text ++ text') (kinds ++ kinds') follow := by
  refine ⟨?_, fun position tokens => ?_⟩
  · rw [List.length_append, List.length_append]
    exact Nat.add_le_add h.length_le h'.length_le
  · obtain ⟨read, position', ofRead, split⟩ := h.split position tokens
    obtain ⟨read', position'', ofRead', split'⟩ := h'.split position' (read.reverse ++ tokens)
    refine ⟨read ++ read', position'', by simp [ofRead, ofRead'], fun fuel => ?_⟩
    rw [List.length_append, Nat.add_assoc, List.append_assoc, split, split', List.reverse_append,
      List.append_assoc]

theorem Lexes.cons {c : Char} {kind : TokenKind} (h : Lexes [c] [kind] (text ++ follow))
    (h' : Lexes text kinds follow) : Lexes (c :: text) (kind :: kinds) follow :=
  h.append h'

theorem skipBlanks_blank {position : Position} :
    skipBlanks position (' ' :: text) = skipBlanks (position.next ' ') text := by
  rw [skipBlanks]
  · rfl
  · exact fun _ same => by cases same
  · exact fun _ same => by cases same

/-- A blank in front does not matter. -/
theorem Lexes.blank (h : Lexes text kinds follow) (some : kinds ≠ []) :
    Lexes (' ' :: text) kinds follow := by
  refine ⟨Nat.le_succ_of_le h.length_le, fun position tokens => ?_⟩
  obtain ⟨read, position', ofRead, split⟩ := h.split (position.next ' ') tokens
  refine ⟨read, position', ofRead, fun fuel => ?_⟩
  rw [← split]
  obtain ⟨kind, kinds, rfl⟩ := List.exists_cons_of_ne_nil some
  rw [List.length_cons, Nat.add_right_comm, List.cons_append, scanAll, skipBlanks_blank, ← scanAll]

/-- A text that is read as one token. -/
theorem Lexes.token {c : Char} {kind : TokenKind} (blank : Text.isBlank c = false)
    (slash : c ≠ '/') (dot : kind ≠ .mark .dot)
    (scanned : ∀ position, scan false position (c :: (text ++ follow)) =
      .ok ⟨kind, c :: text, follow⟩) : Lexes (c :: text) [kind] follow := by
  refine ⟨Nat.succ_le_succ (Nat.zero_le _), fun position tokens => ?_⟩
  refine ⟨[ofScan position ⟨kind, c :: text, follow⟩], position.advance (c :: text), rfl,
    fun fuel => ?_⟩
  rw [List.length_singleton, Nat.add_comm, List.cons_append,
    scanAll_token ((Stands.cons blank slash).skipBlanks_eq position) (scanned position)]
  simp [dot]

/-- A text that is split into tokens up to its end gives them and one that ends the list. -/
theorem Lexes.ofSource {source : String} (h : Lexes source.toList kinds []) :
    ∃ tokens, ofSource source = .ok tokens ∧ tokens.map (·.kind) = kinds ++ [.finish] := by
  obtain ⟨read, position, ofRead, split⟩ := h.split .start []
  obtain ⟨fuel, enough⟩ : ∃ fuel, source.length + 1 = kinds.length + (fuel + 1) :=
    ⟨source.length - kinds.length, by
      have length_le := h.length_le
      rw [String.length_toList] at length_le
      omega⟩
  have last : scanAll false position [] read.reverse (fuel + 1) =
      .ok (read ++ [ofScan position ⟨.finish, [], []⟩]) := by
    rw [scanAll, skipBlanks]
    simp [bind, Except.bind, scan]
  refine ⟨read ++ [ofScan position ⟨.finish, [], []⟩], ?_, ?_⟩
  · rw [Token.ofSource, enough, ← List.append_nil source.toList, split, List.append_nil, last]
  · rw [List.map_append, ofRead]
    rfl

/-! ## Marks and words -/

/-- A character that begins no blank, comment, text, numeral or name. -/
def isMarkStart (c : Char) : Bool :=
  !Text.isBlank c && c != '/' && c != '\x22' && c != '\'' && !c.isDigit && !isNameStart c

theorem lexes_mark {c : Char} {mark : Mark} (start : isMarkStart c = true) (dot : mark ≠ .dot)
    (found : markOf? (c :: (text ++ follow)) = some ⟨.mark mark, c :: text, follow⟩) :
    Lexes (c :: text) [.mark mark] follow := by
  simp only [isMarkStart, Bool.and_eq_true, Bool.not_eq_true', bne_iff_ne] at start
  obtain ⟨⟨⟨⟨⟨blank, slash⟩, quote⟩, quote'⟩, digit⟩, name⟩ := start
  refine .token blank slash (fun same => dot (TokenKind.mark.inj same)) fun position => ?_
  simp [scan, quote, quote', digit, name, found]

/-- A colon is one by itself, unless another one follows. -/
theorem lexes_colon {c : Char} (single : c ≠ ':') : Lexes [':'] [.mark .colon] (c :: follow) := by
  have other : (':' == c) = false := beq_false_of_ne single.symm
  refine lexes_mark rfl (by decide) ?_
  simp [markOf?, Mark.table, List.find?, List.isPrefixOf, other]

/-- So is a minus in front of a digit. -/
theorem lexes_minus {d : Char} (digit : d.isDigit = true) :
    Lexes ['-'] [.mark .minus] (d :: follow) := by
  have minus : ('-' == d) = false := beq_false_of_ne (by rintro rfl; cases digit)
  have equal : ('=' == d) = false := beq_false_of_ne (by rintro rfl; cases digit)
  refine lexes_mark rfl (by decide) ?_
  simp [markOf?, Mark.table, List.find?, List.isPrefixOf, minus, equal]

/-- A character that begins no blank, comment, text or numeral, but a name. -/
def isWordStart (c : Char) : Bool :=
  !Text.isBlank c && c != '/' && c != '\x22' && c != '\'' && !c.isDigit && isNameStart c

theorem kind_ne_dot (text : String) : wordKind text ≠ .mark .dot := by
  unfold wordKind
  split <;> exact fun no => by cases no

/-- A word is read up to what cannot belong to it. -/
theorem lexes_word {c : Char} (start : isWordStart c = true)
    (parts : (c :: text).all isNamePart = true) (delimited : Delimited follow) :
    Lexes (c :: text) [wordKind (String.ofList (c :: text))] follow := by
  simp only [isWordStart, Bool.and_eq_true, Bool.not_eq_true', bne_iff_ne] at start
  obtain ⟨⟨⟨⟨⟨blank, slash⟩, quote⟩, quote'⟩, digit⟩, name⟩ := start
  have all : ∀ d ∈ c :: text, isNamePart d = true := List.all_eq_true.mp parts
  obtain ⟨stops, left⟩ := delimited.head (p := isNamePart) rfl rfl rfl rfl
  have taken := takeWhile_append all stops
  have behind : (c :: text ++ follow).dropWhile isNamePart = follow := by
    rw [List.dropWhile_append_of_pos all, left]
  rw [List.cons_append] at taken behind
  refine .token blank slash (kind_ne_dot _) fun position => ?_
  simp [scan, quote, quote', digit, name, word, taken, behind]

theorem isDigit_iff {c : Char} : c.isDigit = true ↔ 48 ≤ c.toNat ∧ c.toNat ≤ 57 := by
  simp [Char.isDigit, UInt32.le_iff_toNat_le]

/-- A numeral is read up to what cannot belong to it. -/
theorem lexes_numeral {digits : List Char} (h : IsNumeral digits) (delimited : Delimited follow) :
    Lexes digits [.number (Decimal.valueOf digits)] follow := by
  obtain ⟨d, rest, rfl, digit⟩ := h.exists_head
  have blank : Text.isBlank d = false := by
    have range := isDigit_iff.mp digit
    simp [Text.isBlank, Text.CodeRanges.covers, Text.blankRanges]
    omega
  have slash : d ≠ '/' := by rintro rfl; cases digit
  have quote : d ≠ '\x22' := by rintro rfl; cases digit
  have quote' : d ≠ '\'' := by rintro rfl; cases digit
  have read := numeral_append h delimited
  rw [List.cons_append] at read
  refine .token blank slash (fun no => by cases no) fun position => ?_
  simp [scan, quote, quote', digit, read, Decimal.kind_numeral]

/-! ## Quoted texts -/

/-- A quoted text is read as one token, whatever follows it. -/
theorem lexes_quoted (chars follow : List Char) :
    Lexes (Text.quotedChars chars) [.string (String.ofList chars)] follow := by
  rw [Text.quotedChars_eq]
  exact .token rfl (by decide) (fun no => by cases no) fun position =>
    scan_quotedCharsBy Text.isHidden false position chars follow

end Token

/-! ## The tokens of data -/

namespace Datum

open Token

mutual

/-- The kinds of the tokens of a datum. -/
def kinds : Datum → List TokenKind
  | .null => [.keyword .nullWord]
  | .unit => [.mark .leftParen, .mark .rightParen]
  | .bool true => [.keyword .trueWord]
  | .bool false => [.keyword .falseWord]
  | .number x =>
    if Decimal.isNegated x then [.mark .minus, .number (Decimal.valueOf (Decimal.numeralOf x))]
    else [.number (Decimal.valueOf (Decimal.numeralOf x))]
  | .string t => [.string t]
  | .array items => .mark .leftBracket :: (itemsKinds items ++ [.mark .rightBracket])
  | .tuple items => .mark .leftParen :: (itemsKinds items ++ [.mark .rightParen])
  | .map entries => .mark .leftBracket :: (entriesKinds entries ++ [.mark .rightBracket])

def itemsKinds : List Datum → List TokenKind
  | [] => []
  | d :: ds => d.kinds ++ moreKinds ds

def moreKinds : List Datum → List TokenKind
  | [] => []
  | d :: ds => .mark .comma :: (d.kinds ++ moreKinds ds)

def entriesKinds : List (String × Datum) → List TokenKind
  | [] => [.mark .colon]
  | (key, d) :: entries => .string key :: .mark .colon :: (d.kinds ++ moreEntriesKinds entries)

def moreEntriesKinds : List (String × Datum) → List TokenKind
  | [] => []
  | (key, d) :: entries =>
    .mark .comma :: .string key :: .mark .colon :: (d.kinds ++ moreEntriesKinds entries)

end

theorem kinds_ne_nil (d : Datum) : d.kinds ≠ [] := by
  cases d with
  | bool b => cases b <;> simp [kinds]
  | number x => unfold kinds; split <;> simp
  | _ => simp [kinds]

variable {follow : List Char}

theorem delimited_cons {c : Char} (h : c = ',' ∨ c = ')' ∨ c = ']' ∨ c = ':') :
    Delimited (c :: follow) := by
  intro d rest same
  obtain ⟨rfl, rfl⟩ := List.cons.inj same
  exact h

theorem delimited_paren (follow : List Char) : Delimited (')' :: follow) :=
  delimited_cons (.inr (.inl rfl))

theorem delimited_bracket (follow : List Char) : Delimited (']' :: follow) :=
  delimited_cons (.inr (.inr (.inl rfl)))

/-- Items and entries behind others are delimited from them. -/
theorem delimited_moreText {ds : List Datum} (delimited : Delimited follow) :
    Delimited (moreText ds ++ follow) := by
  cases ds with
  | nil => exact delimited
  | cons d ds => exact delimited_cons (.inl rfl)

theorem delimited_moreEntriesText {entries : List (String × Datum)} (delimited : Delimited follow) :
    Delimited (moreEntriesText entries ++ follow) := by
  cases entries with
  | nil => exact delimited
  | cons entry entries => exact delimited_cons (.inl rfl)

/-- The text of a number is split into a numeral and maybe a minus. -/
theorem lexes_number {x : Float} (finite : Decimal.IsFinite x) (delimited : Delimited follow) :
    Lexes (Decimal.scriptText x).toList (number x).kinds follow := by
  have isNumeral := Decimal.isNumeral_numeralOf finite
  have numeral := lexes_numeral isNumeral delimited
  rw [Decimal.toList_scriptText, kinds]
  split
  · obtain ⟨d, rest, same, digit⟩ := isNumeral.exists_head
    have minus : Lexes ['-'] [.mark .minus] (Decimal.numeralOf x ++ follow) := by
      rw [same]
      exact lexes_minus digit
    exact minus.cons numeral
  · exact numeral

/-- A key in front of its value. -/
theorem lexes_entry (key : String) {value : List Char} {kinds : List TokenKind} (some : kinds ≠ [])
    (split : Lexes value kinds follow) :
    Lexes (Text.quotedChars key.toList ++ ':' :: ' ' :: value)
      (.string key :: .mark .colon :: kinds) follow := by
  have colon := (lexes_colon (c := ' ') (by decide)).cons (split.blank some)
  have quoted := lexes_quoted key.toList (':' :: ' ' :: value ++ follow)
  rw [String.ofList_toList] at quoted
  exact quoted.append colon

mutual

/-- The text of a datum is split into its tokens, if what follows is delimited from it. -/
theorem lexes_text {d : Datum} {follow : List Char} (finite : d.Numbers Decimal.IsFinite)
    (delimited : Delimited follow) : Lexes d.text d.kinds follow := by
  match d with
  | .null => exact lexes_word rfl (by decide) delimited
  | .bool true => exact lexes_word rfl (by decide) delimited
  | .bool false => exact lexes_word rfl (by decide) delimited
  | .unit => exact (lexes_mark rfl (by decide) rfl).cons (lexes_mark rfl (by decide) rfl)
  | .number x => exact lexes_number finite delimited
  | .string t =>
    have quoted := lexes_quoted t.toList follow
    rwa [String.ofList_toList] at quoted
  | .array items =>
    have close : Lexes [']'] [.mark .rightBracket] follow := lexes_mark rfl (by decide) rfl
    have inside := lexes_itemsText finite (delimited_bracket follow)
    exact (lexes_mark rfl (by decide) rfl).cons (inside.append close)
  | .tuple items =>
    have close : Lexes [')'] [.mark .rightParen] follow := lexes_mark rfl (by decide) rfl
    have inside := lexes_itemsText finite (delimited_paren follow)
    exact (lexes_mark rfl (by decide) rfl).cons (inside.append close)
  | .map entries =>
    have close : Lexes [']'] [.mark .rightBracket] follow := lexes_mark rfl (by decide) rfl
    exact (lexes_mark rfl (by decide) rfl).cons ((lexes_entriesText finite).append close)

theorem lexes_itemsText {ds : List Datum} {follow : List Char}
    (finite : NumbersOfAll Decimal.IsFinite ds) (delimited : Delimited follow) :
    Lexes (itemsText ds) (itemsKinds ds) follow := by
  match ds with
  | [] => exact .nil
  | d :: ds =>
    obtain ⟨first, others⟩ := finite
    exact (lexes_text first (delimited_moreText delimited)).append
      (lexes_moreText others delimited)

theorem lexes_moreText {ds : List Datum} {follow : List Char}
    (finite : NumbersOfAll Decimal.IsFinite ds) (delimited : Delimited follow) :
    Lexes (moreText ds) (moreKinds ds) follow := by
  match ds with
  | [] => exact .nil
  | d :: ds =>
    obtain ⟨first, others⟩ := finite
    have behind := (lexes_text first (delimited_moreText delimited)).append
      (lexes_moreText others delimited)
    have some : d.kinds ++ moreKinds ds ≠ [] := List.append_ne_nil_of_left_ne_nil d.kinds_ne_nil _
    exact (lexes_mark rfl (by decide) rfl).cons (behind.blank some)

/-- Entries in front of a closing bracket. -/
theorem lexes_entriesText {entries : List (String × Datum)} {follow : List Char}
    (finite : NumbersOfEntries Decimal.IsFinite entries) :
    Lexes (entriesText entries) (entriesKinds entries) (']' :: follow) := by
  match entries with
  | [] => exact lexes_colon (by decide)
  | (key, d) :: entries =>
    obtain ⟨first, others⟩ := finite
    have value := (lexes_text first (delimited_moreEntriesText (delimited_bracket follow))).append
      (lexes_moreEntriesText others)
    exact lexes_entry key (List.append_ne_nil_of_left_ne_nil d.kinds_ne_nil _) value

theorem lexes_moreEntriesText {entries : List (String × Datum)} {follow : List Char}
    (finite : NumbersOfEntries Decimal.IsFinite entries) :
    Lexes (moreEntriesText entries) (moreEntriesKinds entries) (']' :: follow) := by
  match entries with
  | [] => exact .nil
  | (key, d) :: entries =>
    obtain ⟨first, others⟩ := finite
    have value := (lexes_text first (delimited_moreEntriesText (delimited_bracket follow))).append
      (lexes_moreEntriesText others)
    have entry := lexes_entry key (List.append_ne_nil_of_left_ne_nil d.kinds_ne_nil _) value
    exact (lexes_mark rfl (by decide) rfl).cons (entry.blank (List.cons_ne_nil _ _))

end

end Datum

end ScriptEngine
