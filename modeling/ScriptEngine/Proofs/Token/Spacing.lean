import ScriptEngine.Proofs.Display.Lexing
import ScriptEngine.Proofs.Token.Tiling

/-!
# Tokens do not depend on their spacing

The lexemes of a source with single spaces between them are split into the same tokens again, at other
places: how far a token goes does not depend on what stood right behind it, and two tokens with a space
between them make no comment, numeral or mark.

* `Token.Again`, `Chain`: tokens that are read again from their lexemes, each behind the one before it.
* `chain_of_scanAll`, `Chain.scanAll`: the tokens of a source are, and their lexemes make a source.
* `ofSource_respaced`: so the source that they make has the same tokens.
-/

namespace ScriptEngine.Token

/-- What a token is, wherever it stands. -/
def content (t : Token) : TokenKind × String :=
  (t.kind, t.lexeme)

/-- The lexemes of some tokens, but the end, with single spaces between them. -/
def respaced (tokens : List Token) : String :=
  " ".intercalate ((tokens.filter (·.kind ≠ .finish)).map (·.lexeme))

/-- A token is read again from its lexeme and whatever stands apart from it. -/
structure Again (dot : Bool) (t : Token) : Prop where
  kind : t.kind ≠ .finish
  ne_nil : t.lexeme.toList ≠ []
  stands : ∀ follow, Apart follow → Stands (t.lexeme.toList ++ follow)
  scan : ∀ position follow, Apart follow →
    scan dot position (t.lexeme.toList ++ follow) = .ok ⟨t.kind, t.lexeme.toList, follow⟩

/-- Tokens that are read again one behind the other. -/
inductive Chain : Bool → List Token → Prop
  | nil {dot : Bool} : Chain dot []
  | cons {dot : Bool} {t : Token} {words : List Token} : t.Again dot →
    Chain (t.kind = .mark .dot) words → Chain dot (t :: words)

theorem Chain.kind_ne {dot : Bool} {words : List Token} (h : Chain dot words) :
    ∀ word ∈ words, word.kind ≠ .finish := by
  induction h with
  | nil => nofun
  | cons again _ ih =>
    intro word mem
    rcases List.mem_cons.mp mem with rfl | later
    · exact again.kind
    · exact ih word later

/-- A token that stands behind a gap is read again. -/
theorem again_of_steady {dot : Bool} {position : Position} {text : List Char} {s : Scan}
    (steady : s.Steady dot text) (stands : Stands text) : (ofScan position s).Again dot := by
  have lexeme : (ofScan position s).lexeme.toList = s.taken := String.toList_ofList
  rw [steady.split] at stands
  refine ⟨steady.kind, ?_, ?_, ?_⟩
  · rw [lexeme]
    exact steady.ne_nil
  · intro follow apart
    rw [lexeme]
    exact stands.append steady.ne_nil apart
  · intro position' follow apart
    rw [lexeme]
    exact steady.again position' follow apart

/-- The tokens that are read from a text are read again. -/
theorem chain_of_scanAll {dot : Bool} {position : Position} {text : List Char}
    {tokens out : List Token} {fuel : Nat} (enough : text.length < fuel)
    (h : scanAll dot position text tokens fuel = .ok out) :
    ∃ words finish, out = tokens.reverse ++ words ++ [finish] ∧ Chain dot words ∧
      finish.content = (.finish, "") := by
  induction fuel generalizing dot position text tokens with
  | zero => omega
  | succ fuel ih =>
    obtain ⟨skips, result⟩ : ∃ skips, skipBlanks position text = skips := ⟨_, rfl⟩
    have gap := skipped position text
    rw [result] at gap
    cases gap with
    | endless isGap open_ =>
      rw [scanAll, result] at h
      cases h
    | @stands gap text isGap stands =>
      cases text with
      | nil =>
        rw [scanAll_finish result] at h
        obtain rfl := Except.ok.inj h
        exact ⟨[], _, by rw [List.append_nil], .nil, rfl⟩
      | cons c rest =>
        cases scanned : scan dot (position.advance gap) (c :: rest) with
        | error e =>
          rw [scanAll, result] at h
          simp only [bind, Except.bind, scanned] at h
          cases h
        | ok s =>
          have steady := steady_of_scan (List.cons_ne_nil c rest) scanned
          have shorter : s.rest.length < fuel := by
            have within := steady.shorter
            rw [List.length_append] at enough
            omega
          rw [scanAll_token result scanned] at h
          obtain ⟨words, finish, rfl, chain, ended⟩ := ih shorter h
          refine ⟨ofScan (position.advance gap) s :: words, finish, by simp, ?_, ended⟩
          exact .cons (again_of_steady steady stands) chain

/-- The lexemes of some words with single spaces between them. -/
def joined (words : List Token) : List Char :=
  [' '].intercalate (words.map (·.lexeme.toList))

/-- What stands behind a word: a space and the other words, if there are any. -/
def others : List Token → List Char
  | [] => []
  | t :: words => ' ' :: joined (t :: words)

theorem joined_cons (t : Token) (words : List Token) :
    joined (t :: words) = t.lexeme.toList ++ others words := by
  cases words with
  | nil => simp [joined, others]
  | cons t' words => simp [joined, others, List.intercalate]

theorem apart_others (words : List Token) : Apart (others words) := by
  cases words with
  | nil => exact .nil
  | cons t words => exact .space _

theorem length_joined_le (words : List Token) : (joined words).length ≤ (others words).length := by
  cases words with
  | nil => exact Nat.le_refl 0
  | cons t words => exact Nat.le_succ _

/-- The space in front of the other words is skipped. -/
theorem scanAll_others (words : List Token) (dot : Bool) (position : Position) (tokens : List Token)
    (fuel : Nat) : ∃ position', scanAll dot position (others words) tokens (fuel + 1) =
      scanAll dot position' (joined words) tokens (fuel + 1) := by
  cases words with
  | nil => exact ⟨position, rfl⟩
  | cons t words =>
    refine ⟨position.next ' ', ?_⟩
    rw [others, Token.scanAll, skipBlanks_blank, ← Token.scanAll]

/-- A word with the words behind it is read again where they are. -/
theorem Again.scanAll {dot : Bool} {t : Token} (h : t.Again dot) {follow : List Char}
    (apart : Apart follow) (position : Position) (tokens : List Token) (fuel : Nat) :
    ∃ t' position', scanAll dot position (t.lexeme.toList ++ follow) tokens (fuel + 1) =
        scanAll (t.kind = .mark .dot) position' follow (t' :: tokens) fuel ∧
      t'.content = t.content := by
  obtain ⟨c, rest, lexeme⟩ := List.exists_cons_of_ne_nil h.ne_nil
  have skips := (h.stands follow apart).skipBlanks_eq position
  have scanned := h.scan position follow apart
  rw [lexeme, List.cons_append] at skips scanned ⊢
  refine ⟨_, _, scanAll_token skips scanned, ?_⟩
  rw [content, ofScan, ← lexeme, String.ofList_toList]
  rfl

/-- Words that are read again one behind the other are read again with single spaces between them. -/
theorem Chain.scanAll {dot : Bool} {words : List Token} (h : Chain dot words) (position : Position)
    (tokens : List Token) {fuel : Nat} (enough : (joined words).length < fuel) :
    ∃ out, scanAll dot position (joined words) tokens fuel = .ok (tokens.reverse ++ out) ∧
      out.map content = words.map content ++ [(.finish, "")] := by
  induction h generalizing position tokens fuel with
  | nil =>
    obtain ⟨fuel, rfl⟩ := Nat.exists_eq_add_one_of_ne_zero (Nat.ne_zero_of_lt enough)
    exact ⟨_, scanAll_finish (skipBlanks.eq_4 position), rfl⟩
  | @cons dot t words again chain ih =>
    have solid := List.length_pos_iff.mpr again.ne_nil
    have shorter := length_joined_le words
    rw [joined_cons, List.length_append] at enough
    obtain ⟨fuel, rfl⟩ : ∃ n, fuel = n + 2 := ⟨fuel - 2, by omega⟩
    obtain ⟨t', position', read, same⟩ :=
      again.scanAll (apart_others words) position tokens (fuel + 1)
    obtain ⟨position'', skipped⟩ :=
      scanAll_others words (t.kind = .mark .dot) position' (t' :: tokens) fuel
    have enough' : (joined words).length < fuel + 1 := by omega
    obtain ⟨out, last, same'⟩ := ih position'' (t' :: tokens) enough'
    refine ⟨t' :: out, ?_, ?_⟩
    · rw [joined_cons, read, skipped, last, List.reverse_cons, List.append_assoc,
        List.singleton_append]
    · rw [List.map_cons, same, same']
      rfl

/-- The lexemes of a source with single spaces between them have the same tokens as the source. -/
theorem ofSource_respaced {source : String} {tokens : List Token}
    (h : ofSource source = .ok tokens) :
    ∃ tokens', ofSource (respaced tokens) = .ok tokens' ∧
      tokens'.map content = tokens.map content := by
  obtain ⟨words, finish, rfl, chain, ended⟩ := chain_of_scanAll (length_toList_lt source) h
  have kind : finish.kind = .finish := (Prod.mk.inj ended).1
  have text : (respaced ([].reverse ++ words ++ [finish])).toList = joined words := by
    have kept : words.filter (·.kind ≠ .finish) = words :=
      List.filter_eq_self.mpr fun word mem => by simpa using chain.kind_ne word mem
    have last : [finish].filter (·.kind ≠ .finish) = [] := by simp [kind]
    rw [respaced, String.toList_intercalate, List.reverse_nil, List.nil_append, List.filter_append,
      kept, last, List.append_nil, List.map_map]
    rfl
  have enough' : (joined words).length < (respaced ([].reverse ++ words ++ [finish])).length + 1 := by
    rw [← text]
    exact length_toList_lt _
  obtain ⟨out, read, same⟩ := chain.scanAll .start [] enough'
  refine ⟨out, ?_, ?_⟩
  · rw [ofSource, text, read]
    rfl
  · simp [same, ended]

/-- Numerals behind dots, and marks that touch. -/
theorem respaced_tuple_items :
    ∃ tokens, ofSource "t.1.2e3..u//v" = .ok tokens ∧
      tokens.map (·.lexeme) = ["t", ".", "1", ".", "2", "e3", "..", "u", ""] ∧
      ∃ tokens', ofSource (respaced tokens) = .ok tokens' ∧
        tokens'.map content = tokens.map content := by
  have lexemes : (ofSource "t.1.2e3..u//v").toOption.map (·.map (·.lexeme)) =
      some ["t", ".", "1", ".", "2", "e3", "..", "u", ""] := by decide +kernel
  cases read : ofSource "t.1.2e3..u//v" with
  | error e =>
    rw [read] at lexemes
    cases lexemes
  | ok tokens =>
    rw [read] at lexemes
    exact ⟨tokens, rfl, Option.some.inj lexemes, ofSource_respaced read⟩

end ScriptEngine.Token
