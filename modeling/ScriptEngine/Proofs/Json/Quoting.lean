import ScriptEngine.Proofs.Json.Reading

/-!
# Documents with single quotes

A document is text without quotes, and strings, each of which is written with double or with single
quotes. Rewriting the quotes translates one way of escaping into the other.

* `Json.Part`, `Json.Document`: documents, and how they are written.
* `Json.doubleQuotes_write`: a document is rewritten with double quotes.
* `Json.readString_body`: a string in double quotes is read as its characters.
* `Json.Strict`, `Json.leniently_eq_ok_iff`: readers that take double quotes only. A text has the value
  of what it is rewritten to.
* `Json.quotes_rewritten`: the quotes of a document do not change what it means.
-/

namespace ScriptEngine.Json

/-! ## Documents -/

/-- Which quotes a string is written with. -/
inductive Quoting
  | double | single
deriving Repr, DecidableEq

namespace Quoting

/-- The quote at both ends. -/
def mark : Quoting → Char
  | .double => '\x22'
  | .single => '\''

/-- A character in a string: the backslash and the quote of the string get a backslash. -/
def char (quoting : Quoting) (c : Char) : List Char :=
  if c = '\\' ∨ c = quoting.mark then ['\\', c] else [c]

/-- The characters of a string, behind its first quote. -/
def body (quoting : Quoting) (chars : List Char) : List Char :=
  chars.flatMap quoting.char ++ [quoting.mark]

theorem body_cons (quoting : Quoting) (c : Char) (chars : List Char) :
    quoting.body (c :: chars) = quoting.char c ++ quoting.body chars := by
  rw [body, List.flatMap_cons, List.append_assoc, body]

theorem length_le_body (quoting : Quoting) (chars : List Char) :
    chars.length ≤ (quoting.body chars).length := by
  induction chars with
  | nil => exact Nat.zero_le _
  | cons c chars ih =>
    have some : 0 < (quoting.char c).length := by
      rw [char]
      split <;> exact Nat.succ_pos _
    rw [body_cons, List.length_append, List.length_cons]
    omega

end Quoting

/-- A part of a document. -/
inductive Part
  | plain (text : List Char) (bare : ∀ c ∈ text, Bare c)
  | literal (quoting : Quoting) (chars : List Char)

namespace Part

/-- How a part is written. -/
def write : Part → List Char
  | .plain text _ => text
  | .literal quoting chars => quoting.mark :: quoting.body chars

/-- The part with double quotes. -/
def doubled : Part → Part
  | .plain text bare => .plain text bare
  | .literal _ chars => .literal .double chars

/-- A part without single quotes. -/
def IsDoubled (part : Part) : Prop := ∀ chars, part ≠ .literal .single chars

theorem doubled_eq_self {part : Part} (h : part.IsDoubled) : part.doubled = part := by
  cases part with
  | plain => rfl
  | literal quoting chars =>
    cases quoting with
    | double => rfl
    | single => exact absurd rfl (h chars)

end Part

/-- A document: quote-free text and strings. -/
abbrev Document := List Part

namespace Document

/-- How a document is written. -/
def write (d : Document) : List Char := d.flatMap Part.write

/-- The document with double quotes. -/
def doubled (d : Document) : Document := d.map Part.doubled

end Document

/-! ## Rewriting -/

variable {rest : List Char}

/-- A character is written for double quotes, whichever the quotes were. -/
theorem doubleQuotes_char (quoting : Quoting) (c : Char) (rest : List Char) :
    doubleQuotes (.inside quoting.mark) (quoting.char c ++ rest) =
      Quoting.double.char c ++ doubleQuotes (.inside quoting.mark) rest := by
  by_cases backslash : c = '\\'
  · subst backslash
    cases quoting <;> rfl
  by_cases double : c = '\x22'
  · subst double
    cases quoting <;> rfl
  by_cases single : c = '\''
  · subst single
    cases quoting <;> rfl
  have plain (quoting : Quoting) : quoting.char c = [c] ∧ c ≠ quoting.mark := by
    cases quoting <;> simp [Quoting.char, Quoting.mark, backslash, double, single]
  rw [(plain quoting).1, (plain .double).1, List.singleton_append, List.singleton_append,
    doubleQuotes, if_neg backslash, if_neg, if_neg (plain quoting).2]
  simp [double]

theorem doubleQuotes_body (quoting : Quoting) (chars rest : List Char) :
    doubleQuotes (.inside quoting.mark) (quoting.body chars ++ rest) =
      Quoting.double.body chars ++ doubleQuotes .outside rest := by
  induction chars with
  | nil => cases quoting <;> rfl
  | cons c chars ih =>
    rw [Quoting.body_cons, Quoting.body_cons, List.append_assoc, doubleQuotes_char, ih,
      List.append_assoc]

theorem doubleQuotes_plain {text : List Char} (bare : ∀ c ∈ text, Bare c) (rest : List Char) :
    doubleQuotes .outside (text ++ rest) = text ++ doubleQuotes .outside rest := by
  induction text with
  | nil => rfl
  | cons c text ih =>
    rw [List.cons_append, doubleQuotes_bare (bare c List.mem_cons_self),
      ih fun c among => bare c (List.mem_cons_of_mem _ among), List.cons_append]

theorem doubleQuotes_part (part : Part) (rest : List Char) :
    doubleQuotes .outside (part.write ++ rest) =
      part.doubled.write ++ doubleQuotes .outside rest := by
  cases part with
  | plain text bare => exact doubleQuotes_plain bare rest
  | literal quoting chars =>
    have opened : doubleQuotes .outside (quoting.mark :: (quoting.body chars ++ rest)) =
        '\x22' :: doubleQuotes (.inside quoting.mark) (quoting.body chars ++ rest) := by
      cases quoting <;> rfl
    refine opened.trans ?_
    rw [doubleQuotes_body]
    rfl

/-- A document is rewritten with double quotes. -/
theorem doubleQuotes_write (d : Document) : doubleQuotes .outside d.write = d.doubled.write := by
  induction d with
  | nil => rfl
  | cons part d ih =>
    show doubleQuotes .outside (part.write ++ Document.write d) =
      part.doubled.write ++ Document.write (Document.doubled d)
    rw [doubleQuotes_part, ih]

/-! ## Reading -/

/-- What becomes of the next character of a string. -/
def takeCharacter (chars : List Char) : Option Char → Reader (List Char ⊕ String)
  | none => failHere .eofInString
  | some '\x22' => return .inr (String.ofList chars.reverse)
  | some '\\' => return .inl ((← escape) :: chars)
  | some c => if c.toNat < 0x20 then failHere .controlCharacter else return .inl (c :: chars)

/-- One round of reading a string. -/
def stringRound (chars : List Char) : Reader (List Char ⊕ String) := next? >>= takeCharacter chars

theorem readString_eq : readString = repeating stringRound [] := rfl

variable {p : Cursor} {chars : List Char} {c : Char}

theorem takeCharacter_plain (plain : ¬ (c = '\\' ∨ c = '\x22')) (visible : 0x20 ≤ c.toNat) :
    takeCharacter chars (some c) = pure (.inl (c :: chars)) := by
  unfold takeCharacter
  split
  · next same => cases same
  · next same => exact absurd (.inr (Option.some.inj same)) plain
  · next same => exact absurd (.inl (Option.some.inj same)) plain
  · next same =>
    cases same
    exact if_neg (Nat.not_lt.mpr visible)

theorem next?_eq (here : p.rest = c :: rest) : ∃ q, next? p = .ok (some c, q) ∧ q.rest = rest := by
  obtain ⟨text, line, column⟩ := p
  cases here
  exact ⟨_, rfl, rest_past ..⟩

/-- The backslash and the quote are read behind a backslash. -/
theorem escape_eq (special : c = '\\' ∨ c = '\x22') (here : p.rest = c :: rest) :
    ∃ q, escape p = .ok (c, q) ∧ q.rest = rest := by
  obtain ⟨q, taken, behind⟩ := next?_eq here
  refine ⟨q, bind_eq_ok_iff.mpr ⟨some c, q, taken, ?_⟩, behind⟩
  rcases special with rfl | rfl <;> rfl

/-- A character as it is written for double quotes is read in one round. -/
theorem stringRound_char (visible : 0x20 ≤ c.toNat) (here : p.rest = Quoting.double.char c ++ rest) :
    ∃ q, stringRound chars p = .ok (.inl (c :: chars), q) ∧ q.rest = rest := by
  by_cases special : c = '\\' ∨ c = '\x22'
  · have escaped : Quoting.double.char c = ['\\', c] := if_pos special
    rw [escaped] at here
    obtain ⟨q, taken, behind⟩ := next?_eq here
    obtain ⟨q', read, behind'⟩ := escape_eq special behind
    refine ⟨q', bind_eq_ok_iff.mpr ⟨_, q, taken, ?_⟩, behind'⟩
    exact bind_eq_ok_iff.mpr ⟨c, q', read, rfl⟩
  · have plain : Quoting.double.char c = [c] := if_neg special
    rw [plain] at here
    obtain ⟨q, taken, behind⟩ := next?_eq here
    refine ⟨q, bind_eq_ok_iff.mpr ⟨some c, q, taken, ?_⟩, behind⟩
    rw [takeCharacter_plain special visible]
    rfl

theorem stringRound_end (here : p.rest = '\x22' :: rest) :
    ∃ q, stringRound chars p = .ok (.inr (String.ofList chars.reverse), q) ∧ q.rest = rest := by
  obtain ⟨q, taken, behind⟩ := next?_eq here
  exact ⟨q, bind_eq_ok_iff.mpr ⟨_, q, taken, rfl⟩, behind⟩

/-- A string in double quotes is read character by character. -/
theorem loop_stringRound {more : List Char} (visible : ∀ c ∈ more, 0x20 ≤ c.toNat) (rounds : Nat)
    (enough : more.length < rounds) (here : p.rest = Quoting.double.body more ++ rest) :
    ∃ q, loop stringRound rounds chars p = .ok (String.ofList (chars.reverse ++ more), q) ∧
      q.rest = rest := by
  induction more generalizing rounds chars p with
  | nil =>
    obtain ⟨rounds, rfl⟩ := Nat.exists_eq_succ_of_ne_zero (Nat.ne_of_gt enough)
    obtain ⟨q, read, behind⟩ := stringRound_end here
    refine ⟨q, bind_eq_ok_iff.mpr ⟨_, q, read, ?_⟩, behind⟩
    rw [List.append_nil]
    rfl
  | cons c more ih =>
    obtain ⟨rounds, rfl⟩ := Nat.exists_eq_succ_of_ne_zero (Nat.ne_zero_of_lt enough)
    rw [Quoting.body_cons, List.append_assoc] at here
    obtain ⟨q, read, behind⟩ := stringRound_char (visible c List.mem_cons_self) here
    obtain ⟨q', others, behind'⟩ := ih (fun c among => visible c (List.mem_cons_of_mem _ among))
      rounds (Nat.lt_of_succ_lt_succ enough) behind
    refine ⟨q', bind_eq_ok_iff.mpr ⟨_, q, read, ?_⟩, behind'⟩
    rw [List.reverse_cons, List.append_assoc] at others
    exact others

/-- The characters of a string in double quotes are read. -/
theorem readString_body (visible : ∀ c ∈ chars, 0x20 ≤ c.toNat)
    (here : p.rest = Quoting.double.body chars ++ rest) :
    ∃ q, readString p = .ok (String.ofList chars, q) ∧ q.rest = rest := by
  have fits := Quoting.double.length_le_body chars
  rw [readString_eq]
  refine loop_stringRound visible _ ?_ here
  rw [here, List.length_append]
  omega

/-! ## Strict readers -/

variable {ε α : Type} {read : String → Except ε α}

/-- A reader takes strings in double quotes only. Outside of these a text that it reads has no quotes,
so that rewriting leaves it as it is. -/
def Strict (read : String → Except ε α) : Prop :=
  ∀ {text : String} {value : α}, read text = .ok value →
    doubleQuotes .outside text.toList = text.toList

theorem strict_ofText : Strict ofText := doubleQuotes_of_ofText

theorem leniently_eq_ok_iff (strict : Strict read) {text : String} {value : α} :
    leniently read text = .ok value ↔
      read (String.ofList (doubleQuotes .outside text.toList)) = .ok value := by
  rw [leniently]
  cases done : read text with
  | ok value' => rw [strict done, String.ofList_toList, done]
  | error =>
    cases read (String.ofList (doubleQuotes .outside text.toList)) with
    | ok => rfl
    | error => simp only [reduceCtorEq]

/-- Two documents that only differ by the quotes of their strings are read alike. -/
theorem leniently_write_iff (strict : Strict read) {d d' : Document} {value : α}
    (same : Document.doubled d' = Document.doubled d) :
    leniently read (String.ofList d'.write) = .ok value ↔
      leniently read (String.ofList d.write) = .ok value := by
  rw [leniently_eq_ok_iff strict, leniently_eq_ok_iff strict, String.toList_ofList,
    String.toList_ofList, doubleQuotes_write, doubleQuotes_write, same]

/-! ## All together -/

/-- Reading a document does not depend on the quotes of its strings. -/
structure QuotesRewritten (d : Document) : Prop where
  /-- All strings get double quotes, and keep their characters. -/
  rewritten : doubleQuotes .outside d.write = (Document.doubled d).write
  /-- A document without single quotes around strings is left as it is. -/
  unchanged : (∀ part ∈ d, part.IsDoubled) → doubleQuotes .outside d.write = d.write
  /-- What a string of the document is rewritten to is read as the characters that it was written for.
  The reader accepts no control characters. -/
  meant {quoting : Quoting} {chars : List Char} (rest : List Char) (line column : Nat) :
    .literal quoting chars ∈ d → (∀ c ∈ chars, 0x20 ≤ c.toNat) →
    ∃ body q, doubleQuotes .outside (Part.literal quoting chars).write = '\x22' :: body ∧
      readString ⟨body ++ rest, line, column⟩ = .ok (String.ofList chars, q) ∧ q.rest = rest
  /-- Whatever reads documents in double quotes only, it finds the same value in two documents that
  only differ by the quotes of their strings. -/
  readAlike {ε α : Type} {read : String → Except ε α} {d' : Document} {value : α} : Strict read →
    Document.doubled d' = Document.doubled d →
    (leniently read (String.ofList d'.write) = .ok value ↔
      leniently read (String.ofList d.write) = .ok value)
  /-- So they have the same value. -/
  value {d' : Document} {json : Json} : Document.doubled d' = Document.doubled d →
    (ofLenientText (String.ofList d'.write) = .ok json ↔
      ofLenientText (String.ofList d.write) = .ok json)

theorem quotes_rewritten (d : Document) : QuotesRewritten d where
  rewritten := doubleQuotes_write d
  unchanged doubled := by
    have same : Document.doubled d = d :=
      (List.map_congr_left fun part among => Part.doubled_eq_self (doubled part among)).trans
        (List.map_id d)
    rw [doubleQuotes_write, same]
  meant {quoting chars} rest line column _ visible := by
    obtain ⟨q, read, behind⟩ := readString_body
      (p := ⟨Quoting.double.body chars ++ rest, line, column⟩) visible rfl
    have alone := doubleQuotes_part (.literal quoting chars) []
    rw [List.append_nil] at alone
    exact ⟨_, q, alone.trans (List.append_nil _), read, behind⟩
  readAlike strict same := leniently_write_iff strict same
  value same := leniently_write_iff strict_ofText same

/-- An object with one member, of a text with quotes of both kinds. -/
def Document.memberSample (quoting : Quoting) : Document :=
  [.plain ['\x7b'] (by simp [Bare]), .literal quoting "it".toList, .plain [':'] (by simp [Bare]),
    .literal quoting "\"I'm\"".toList, .plain ['\x7d'] (by simp [Bare])]

theorem quotes_rewritten_of_member : Strict ofText ∧ ∃ json,
    leniently ofText (String.ofList (Document.memberSample .single).write) = .ok json ∧
      ofLenientText (String.ofList (Document.memberSample .double).write) = .ok json := by
  have law := quotes_rewritten (.memberSample .double)
  have same : Document.doubled (.memberSample .single) = .doubled (.memberSample .double) := rfl
  have isRead : (document ⟨(Document.memberSample .double).write, 1, 0⟩).isOk = true := by
    decide +kernel
  have text : ofText (String.ofList (Document.memberSample .double).write) =
      Prod.fst <$> document ⟨(Document.memberSample .double).write, 1, 0⟩ := by
    rw [ofText, String.toList_ofList]
    rfl
  cases read : document ⟨(Document.memberSample .double).write, 1, 0⟩ with
  | ok result =>
    rw [read] at text
    have value : ofLenientText (String.ofList (Document.memberSample .double).write) =
        .ok result.1 := by
      rw [ofLenientText, leniently, text]
      rfl
    exact ⟨strict_ofText, result.1, (law.readAlike strict_ofText same).mpr value, value⟩
  | error =>
    rw [read] at isRead
    cases isRead

end ScriptEngine.Json
