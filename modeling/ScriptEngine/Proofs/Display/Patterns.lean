import ScriptEngine.Proofs.Display.Forms
import ScriptEngine.Proofs.Display.Signs
import ScriptEngine.Proofs.Parse.Finishing
import ScriptEngine.Proofs.Parse.Names
import ScriptEngine.Tree.Outline

/-!
# Written patterns are read back

The outline of a module writes patterns as a source does: the lexer splits the text of a pattern into
tokens, and the parser makes the same pattern of them.

* `Pattern.Regular`, `Pattern.regular_of_read`: what is written is a pattern that was read.
* `Pattern.kinds`, `Pattern.lexes_text`: the tokens of a pattern, and its text.
* `Pattern.Readable`, `Pattern.readable`: the tokens make the pattern again.
* `Pattern.reads_back`: so a pattern is read back from its text.
-/

namespace ScriptEngine

open Token Parse

/-- The text of a number, in positional notation, is read as the number. -/
def Decimal.PlainReadsBack (x : Float) : Prop :=
  (ofSource (plain x)).map (·.map (·.kind)) = .ok [.number x, .finish]

namespace Pattern

/-! ## Patterns that are written -/

mutual

/-- The numbers among the literals of a pattern. -/
def numbers : Pattern → List Float
  | .literal (.number x) => [x]
  | .tuple items | .array items => numbersOfAll items
  | .wildcard | .rest | .bind _ | .literal _ => []

/-- The numbers among the literals of some patterns. -/
def numbersOfAll : List Pattern → List Float
  | [] => []
  | item :: items => item.numbers ++ numbersOfAll items

end

/-- A pattern as the parser makes it from a source, with numbers whose magnitudes are read back from
their texts. -/
structure Regular (p : Pattern) : Prop where
  wellFormed : p.WellFormed
  names : ∀ name ∈ p.bindings, IsName name ∧ name ≠ "_"
  numbers : ∀ x ∈ p.numbers, Decimal.IsFinite x ∧ Decimal.PlainReadsBack x.abs

theorem regular_of_all {items : List Pattern} (wellFormed : AllWellFormed items)
    (names : ∀ name ∈ bindingsOfAll items, IsName name ∧ name ≠ "_")
    (numbers : ∀ x ∈ numbersOfAll items, Decimal.IsFinite x ∧ Decimal.PlainReadsBack x.abs) :
    ∀ item ∈ items, item.Regular := by
  induction items with
  | nil => exact List.forall_mem_nil _
  | cons item items ih =>
    obtain ⟨ofItem, ofItems⟩ := List.forall_mem_append.mp names
    obtain ⟨inItem, inItems⟩ := List.forall_mem_append.mp numbers
    exact List.forall_mem_cons.mpr
      ⟨⟨wellFormed.1, ofItem, inItem⟩, ih wellFormed.2 ofItems inItems⟩

theorem Regular.tuple {items : List Pattern} (h : (tuple items).Regular) :
    MakeTuple items ∧ RestsOnce items ∧ ∀ item ∈ items, item.Regular := by
  obtain ⟨⟨make, once, wellFormed⟩, names, numbers⟩ := h
  exact ⟨make, once, regular_of_all wellFormed names numbers⟩

theorem Regular.array {items : List Pattern} (h : (array items).Regular) :
    RestsOnce items ∧ ∀ item ∈ items, item.Regular := by
  obtain ⟨⟨once, wellFormed⟩, names, numbers⟩ := h
  exact ⟨once, regular_of_all wellFormed names numbers⟩

/-! ## The tokens of patterns -/

mutual

/-- The kinds of the tokens of a pattern. -/
def kinds : Pattern → List TokenKind
  | .wildcard => [.name "_"]
  | .rest => [.mark .dotDot]
  | .bind name => [.name name]
  | .literal (.number x) =>
    if Decimal.isSigned x then [.mark .minus, .number x.abs] else [.number x.abs]
  | .literal (.string t) => [.string t]
  | .literal (.bool true) => [.keyword .trueWord]
  | .literal (.bool false) => [.keyword .falseWord]
  | .literal .null => [.keyword .nullWord]
  | .literal .unit => [.mark .leftParen, .mark .rightParen]
  | .tuple items => .mark .leftParen :: (itemsKinds items ++ [.mark .rightParen])
  | .array items => .mark .leftBracket :: (itemsKinds items ++ [.mark .rightBracket])

def itemsKinds : List Pattern → List TokenKind
  | [] => []
  | item :: items => item.kinds ++ moreKinds items

def moreKinds : List Pattern → List TokenKind
  | [] => []
  | item :: items => .mark .comma :: (item.kinds ++ moreKinds items)

end

theorem moreKinds_eq (items : List Pattern) : moreKinds items = behind kinds items := by
  induction items with
  | nil => rfl
  | cons item items ih => rw [moreKinds, ih]; rfl

theorem length_itemsKinds_le (items : List Pattern) :
    (itemsKinds items).length ≤ (moreKinds items).length := by
  cases items with
  | nil => exact Nat.le_refl 0
  | cons item items => exact Nat.le_succ _

/-- A pattern begins with a token that closes no bracket. -/
theorem exists_first (p : Pattern) : ∃ kind more, p.kinds = kind :: more ∧
    kind ≠ .mark .rightParen ∧ kind ≠ .mark .rightBracket := by
  cases p with
  | literal value =>
    cases value with
    | bool b => cases b <;> exact ⟨_, _, rfl, nofun, nofun⟩
    | number x =>
      rw [kinds]
      split <;> exact ⟨_, _, rfl, nofun, nofun⟩
    | _ => exact ⟨_, _, rfl, nofun, nofun⟩
  | _ => exact ⟨_, _, rfl, nofun, nofun⟩

theorem kinds_ne_nil (p : Pattern) : p.kinds ≠ [] := by
  obtain ⟨kind, more, same, -⟩ := p.exists_first
  rw [same]
  exact List.cons_ne_nil kind more

/-! ## Splitting the text of a pattern -/

/-- The two points for any number of items. -/
theorem lexes_dotDot {follow : List Char} : Lexes ['.', '.'] [.mark .dotDot] follow :=
  lexes_mark rfl (by decide) rfl

/-- A name is read as the name. -/
theorem lexes_name {name : String} {follow : List Char} (isName : IsName name)
    (delimited : Delimited follow) : Lexes name.toList [.name name] follow := by
  obtain ⟨⟨c, rest, chars, start⟩, parts, free⟩ := isName
  have read := lexes_word start (chars ▸ parts) delimited
  rw [← chars, String.ofList_toList, wordKind, free] at read
  exact read

/-- The magnitude of a number is read back in front of what follows it. -/
theorem lexes_magnitude {x : Float} {follow : List Char} (finite : Decimal.IsFinite x)
    (back : Decimal.PlainReadsBack x.abs) (delimited : Delimited follow) :
    Lexes (Decimal.plain x.abs).toList [.number x.abs] follow := by
  have numeral := Decimal.isNumeral_plain_abs finite
  obtain ⟨tokens, read, ofKind⟩ := (lexes_numeral numeral .nil).ofSource
  rw [Decimal.PlainReadsBack, read, Except.map, ofKind] at back
  have same : Decimal.valueOf (Decimal.plain x.abs).toList = x.abs := by
    simpa using back
  have split := lexes_numeral numeral delimited
  rwa [same] at split

/-- A number is read as its magnitude, maybe behind a minus. -/
theorem lexes_number {x : Float} {follow : List Char} (finite : Decimal.IsFinite x)
    (back : Decimal.PlainReadsBack x.abs) (delimited : Delimited follow) :
    Lexes (Decimal.plain x).toList (kinds (.literal (.number x))) follow := by
  have magnitude := lexes_magnitude finite back delimited
  rw [kinds]
  split
  · next signed =>
    obtain ⟨d, rest, same, digit⟩ := (Decimal.isNumeral_plain_abs finite).exists_head
    rw [(Decimal.plain_of_signed finite signed).2]
    refine Lexes.cons ?_ magnitude
    rw [same]
    exact lexes_minus digit
  · next unsigned =>
    have own := Decimal.abs_of_unsigned finite (Bool.eq_false_iff.mpr unsigned)
    rwa [own] at magnitude ⊢

theorem toList_text_tuple (items : List Pattern) :
    (tuple items).text.toList = '(' :: ((", ".intercalate (texts items)).toList ++ [')']) := by
  simp [text]

theorem toList_text_array (items : List Pattern) :
    (array items).text.toList = '[' :: ((", ".intercalate (texts items)).toList ++ [']']) := by
  simp [text]

/-- The texts of patterns behind others, each with a comma in front. -/
def moreText (items : List Pattern) : List Char :=
  (texts items).flatMap fun text => ',' :: ' ' :: text.toList

theorem delimited_moreText {items : List Pattern} {follow : List Char}
    (delimited : Delimited follow) : Delimited (moreText items ++ follow) := by
  cases items with
  | nil => exact delimited
  | cons item items => exact Datum.delimited_cons (.inl rfl)

mutual

/-- The text of a pattern is split into its tokens, if what follows is delimited from it. -/
theorem lexes_text {p : Pattern} {follow : List Char} (regular : p.Regular)
    (delimited : Delimited follow) : Lexes p.text.toList p.kinds follow := by
  match p with
  | .wildcard => exact lexes_word rfl (by decide) delimited
  | .rest => exact lexes_dotDot
  | .bind name => exact lexes_name (regular.names name List.mem_cons_self).1 delimited
  | .literal (.number x) =>
    obtain ⟨finite, back⟩ := regular.numbers x List.mem_cons_self
    exact lexes_number finite back delimited
  | .literal (.string t) =>
    have quoted := lexes_quoted t.toList follow
    rw [String.ofList_toList] at quoted
    rwa [text, Literal.text, Text.quoted, String.toList_ofList]
  | .literal (.bool true) => exact lexes_word rfl (by decide) delimited
  | .literal (.bool false) => exact lexes_word rfl (by decide) delimited
  | .literal .null => exact lexes_word rfl (by decide) delimited
  | .literal .unit => exact (lexes_mark rfl (by decide) rfl).cons (lexes_mark rfl (by decide) rfl)
  | .tuple items =>
    have close : Lexes [')'] [.mark .rightParen] follow := lexes_mark rfl (by decide) rfl
    have inside := lexes_items regular.tuple.2.2 (Datum.delimited_paren follow)
    rw [toList_text_tuple]
    exact (lexes_mark rfl (by decide) rfl).cons (inside.append close)
  | .array items =>
    have close : Lexes [']'] [.mark .rightBracket] follow := lexes_mark rfl (by decide) rfl
    have inside := lexes_items regular.array.2 (Datum.delimited_bracket follow)
    rw [toList_text_array]
    exact (lexes_mark rfl (by decide) rfl).cons (inside.append close)

theorem lexes_items {items : List Pattern} {follow : List Char}
    (regular : ∀ item ∈ items, item.Regular) (delimited : Delimited follow) :
    Lexes (", ".intercalate (texts items)).toList (itemsKinds items) follow := by
  match items with
  | [] => exact .nil
  | item :: items =>
    obtain ⟨first, others⟩ := List.forall_mem_cons.mp regular
    rw [texts, toList_intercalate_cons]
    exact (lexes_text first (delimited_moreText delimited)).append (lexes_more others delimited)

theorem lexes_more {items : List Pattern} {follow : List Char}
    (regular : ∀ item ∈ items, item.Regular) (delimited : Delimited follow) :
    Lexes (moreText items) (moreKinds items) follow := by
  match items with
  | [] => exact .nil
  | item :: items =>
    obtain ⟨first, others⟩ := List.forall_mem_cons.mp regular
    have behind := (lexes_text first (delimited_moreText delimited)).append
      (lexes_more others delimited)
    have some : item.kinds ++ moreKinds items ≠ [] :=
      List.append_ne_nil_of_left_ne_nil item.kinds_ne_nil _
    exact (lexes_mark rfl (by decide) rfl).cons (behind.blank some)

end

/-! ## Reading patterns -/

/-- The tokens of a pattern make the pattern, in so many steps. -/
def Readable (p : Pattern) (fuel : Nat) : Prop :=
  ∀ depth rest, Ends rest →
    Reads .none (Grammar.fuelled fuel).pattern depth (p.kinds ++ rest) rest (· = p)

variable {depth fuel : Nat} {kind : TokenKind} {rest more : List TokenKind}

/-- What a parser makes of one token. -/
theorem reads_token {f : Token → Parser Pattern} {p : Pattern} (goes : kind ≠ .finish)
    (ends : Ends rest) (made : ∀ token : Token, token.kind = kind → f token = pure p) :
    Reads .none (advance >>= f) depth (kind :: rest) rest (· = p) := by
  obtain ⟨kind', more, rfl, -⟩ := ends
  refine (reads_advance goes).bind fun token ofKind => ?_
  rw [made token ofKind]
  exact .ret rfl

/-- Items behind one another, up to the closing mark. -/
theorem reads_patternItems {close : Mark} (closes : close = .rightParen ∨ close = .rightBracket)
    {items : List Pattern} (some : items ≠ []) (once : RestsOnce items)
    (readable : ∀ item ∈ items, item.Readable fuel) (ends : Ends rest) :
    Reads .none (patternItems (Grammar.fuelled fuel).pattern close) depth
      (itemsKinds items ++ .mark close :: rest) rest (· = items) := by
  obtain ⟨item, items, rfl⟩ := List.exists_cons_of_ne_nil some
  obtain ⟨first, others⟩ := List.forall_mem_cons.mp readable
  have endsClose : Ends (.mark close :: rest) := by
    rcases closes with rfl | rfl
    · exact ends_paren
    · exact ends_bracket
  have few : ¬ 1 < ((item :: items).filter Pattern.isRest).length := by
    rw [RestsOnce, List.countP_eq_length_filter] at once
    exact Nat.not_lt_of_le once
  rw [itemsKinds, List.append_assoc, moreKinds_eq]
  refine (first depth _ (ends_behind endsClose kinds items)).next ?_
  refine Reads.bind (P := (· = item :: items)) (?_ : Reads _ _ _ _ (.mark close :: rest) _) ?_
  · refine (reads_repeating (W := fun i e => e = i) id endsClose
      (fun i mem found rest ends => ?_) (fun found => ?_) [item]).imp ?_
    · obtain ⟨kind, more, same, ne_paren, ne_bracket⟩ := i.exists_first
      have other : kind ≠ .mark close := by
        rcases closes with rfl | rfl
        · exact ne_paren
        · exact ne_bracket
      have value := others i mem depth rest ends
      rw [same, List.cons_append] at value ⊢
      exact (reads_accept (by decide)).next ((reads_check_of_ne other).next
        (value.next (.ret ⟨_, rfl, i, rfl, rfl⟩)))
    · have other : (.mark close : TokenKind) ≠ .mark .comma := by
        rcases closes with rfl | rfl <;> decide
      exact (reads_accept_of_ne other).next (.ret rfl)
    · rintro value ⟨es, rfl, all⟩
      obtain rfl : es = items := by
        have same := all.flip
        rwa [List.forall₂_eq_eq_eq] at same
      rfl
  · rintro _ rfl
    obtain ⟨kind, more, rfl, -⟩ := ends
    refine reads_consumeMark.bind fun _ _ => ?_
    rw [if_neg few]
    exact .ret rfl

/-- A number is read as it is, and behind a minus as the negated one. -/
theorem reads_number {pattern : Parser Pattern} {x : Float} (finite : Decimal.IsFinite x)
    (ends : Ends rest) :
    Reads .none (patternStep pattern) depth (kinds (.literal (.number x)) ++ rest) rest
      (· = .literal (.number x)) := by
  rw [kinds]
  split
  · next signed =>
    obtain ⟨kind', more, rfl, -⟩ := ends
    refine (reads_advance (by decide)).bind fun token ofKind => ?_
    rw [ofKind]
    have goes : TokenKind.number x.abs ≠ .finish := nofun
    refine (reads_advance goes).bind fun number ofNumber => ?_
    rw [ofNumber]
    exact .ret (congrArg (literal ∘ .number) (Decimal.plain_of_signed finite signed).1)
  · next unsigned =>
    have own := Decimal.abs_of_unsigned finite (Bool.eq_false_iff.mpr unsigned)
    rw [own]
    exact reads_token nofun ends fun token ofKind => by rw [ofKind]

mutual

/-- The tokens of a pattern make the pattern, if there are as many steps as tokens. -/
theorem readable {p : Pattern} (regular : p.Regular) {fuel : Nat} (enough : p.kinds.length ≤ fuel) :
    p.Readable fuel := by
  obtain ⟨fuel, rfl⟩ : ∃ n, fuel = n + 1 := by
    have some := List.length_pos_iff.mpr p.kinds_ne_nil
    exact ⟨fuel - 1, by omega⟩
  intro depth rest ends
  change Reads .none (patternStep (Grammar.fuelled fuel).pattern) depth _ rest _
  match p with
  | .wildcard => exact reads_token nofun ends fun token ofKind => by rw [ofKind]; rfl
  | .rest => exact reads_token nofun ends fun token ofKind => by rw [ofKind]
  | .bind name =>
    have bound := (regular.names name List.mem_cons_self).2
    exact reads_token nofun ends fun token ofKind => by
      rw [ofKind]
      simp [bound]
  | .literal (.number x) => exact reads_number (regular.numbers x List.mem_cons_self).1 ends
  | .literal (.string t) => exact reads_token nofun ends fun token ofKind => by rw [ofKind]
  | .literal (.bool true) => exact reads_token nofun ends fun token ofKind => by rw [ofKind]
  | .literal (.bool false) => exact reads_token nofun ends fun token ofKind => by rw [ofKind]
  | .literal .null => exact reads_token nofun ends fun token ofKind => by rw [ofKind]
  | .literal .unit =>
    obtain ⟨kind', more, rfl, -⟩ := ends
    refine (reads_advance (by decide)).bind fun token ofKind => ?_
    rw [ofKind]
    exact (reads_accept (by decide)).next (.ret rfl)
  | .tuple items =>
    obtain ⟨⟨some, single⟩, once, regular⟩ := regular.tuple
    rw [kinds, List.length_cons, List.length_append] at enough
    have readers : ∀ item ∈ items, item.Readable fuel := readable_all regular (by omega)
    have inside : Reads .none _ depth _ _ _ := reads_patternItems (.inl rfl) some once readers ends
    rw [kinds, List.cons_append, List.append_assoc, List.singleton_append]
    obtain ⟨item, items, rfl⟩ := List.exists_cons_of_ne_nil some
    obtain ⟨kind, more, same, ne_paren, -⟩ := item.exists_first
    rw [itemsKinds, same, List.cons_append, List.cons_append] at inside ⊢
    refine (reads_advance (by decide)).bind fun token ofKind => ?_
    rw [ofKind]
    refine (reads_accept_of_ne ne_paren).next (inside.next ?_)
    split
    · next item' alone =>
      -- A single item in parentheses would be read as that item, if it were not the mark for the rest.
      obtain rfl := single item' alone
      exact .ret (congrArg tuple alone.symm)
    · exact .ret rfl
  | .array items =>
    obtain ⟨once, regular⟩ := regular.array
    rw [kinds, List.length_cons, List.length_append] at enough
    rw [kinds, List.cons_append, List.append_assoc, List.singleton_append]
    cases items with
    | nil =>
      obtain ⟨kind', more, rfl, -⟩ := ends
      refine (reads_advance (by decide)).bind fun token ofKind => ?_
      rw [ofKind]
      exact (reads_accept (by decide)).next (.ret rfl)
    | cons item items =>
      have readers : ∀ i ∈ item :: items, i.Readable fuel := readable_all regular (by omega)
      have inside : Reads .none _ depth _ _ _ :=
        reads_patternItems (.inr rfl) (List.cons_ne_nil item items) once readers ends
      obtain ⟨kind, more, same, -, ne_bracket⟩ := item.exists_first
      rw [itemsKinds, same, List.cons_append, List.cons_append] at inside ⊢
      refine (reads_advance (by decide)).bind fun token ofKind => ?_
      rw [ofKind]
      exact (reads_accept_of_ne ne_bracket).next (inside.next (.ret rfl))

theorem readable_all {items : List Pattern} (regular : ∀ item ∈ items, item.Regular) {fuel : Nat}
    (enough : (itemsKinds items).length ≤ fuel) : ∀ item ∈ items, item.Readable fuel := by
  match items with
  | [] => exact List.forall_mem_nil _
  | item :: items =>
    obtain ⟨first, others⟩ := List.forall_mem_cons.mp regular
    rw [itemsKinds, List.length_append] at enough
    have fewer := length_itemsKinds_le items
    exact List.forall_mem_cons.mpr
      ⟨readable first (by omega), readable_all others (by omega)⟩

end

/-! ## From the text to the pattern -/

/-- The cursor on the first of some tokens stands in front of all of them. -/
theorem standsAt_ofTokens {tokens : List Token} {kinds : List TokenKind}
    (ofKind : tokens.map (·.kind) = kinds ++ [.finish]) :
    (Cursor.ofTokens tokens).StandsAt .none 0 (kinds ++ [.finish]) := by
  have ended : tokens.getLast?.map (·.kind) = some .finish := by
    rw [← List.getLast?_map, ofKind, List.getLast?_concat]
  have all := Cursor.tokens_ofTokens ended
  have kinds : (Cursor.ofTokens tokens).tokens.map (·.kind) = kinds ++ [.finish] := by
    rw [all, ofKind]
  refine ⟨kinds, ?_, ?_⟩
  · unfold Cursor.ofTokens
    split <;> rfl
  · unfold Cursor.ofTokens
    split <;> rfl

/-- A pattern that is read from a source is regular, if the magnitudes of its numbers are finite and
read back from their texts. -/
theorem regular_of_read {source : String} {tokens : List Token} (lexed : ofSource source = .ok tokens)
    {fuel : Nat} {c c' : Cursor} {p : Pattern} (within : ∀ t ∈ c.tokens, t ∈ tokens)
    (read : (Grammar.fuelled fuel).pattern c = .ok (p, c'))
    (numbers : ∀ x ∈ p.numbers, Decimal.IsFinite x ∧ Decimal.PlainReadsBack x.abs) : p.Regular :=
  ⟨sound_fuelled fuel .pattern c p c' read, isName_of_pattern lexed within read, numbers⟩

/-- A pattern that was read from a source is read back from its text. The text is split into tokens,
and of these, up to the last one, the parser makes the pattern again. -/
theorem reads_back {source : String} {tokens : List Token} (lexed : ofSource source = .ok tokens)
    {fuel : Nat} {c c' : Cursor} {p : Pattern} (within : ∀ t ∈ c.tokens, t ∈ tokens)
    (read : (Grammar.fuelled fuel).pattern c = .ok (p, c'))
    (numbers : ∀ x ∈ p.numbers, Decimal.IsFinite x ∧ Decimal.PlainReadsBack x.abs) :
    ∃ tokens', ofSource p.text = .ok tokens' ∧ ∀ fuel', tokens'.length ≤ fuel' →
      ∃ c'', (Grammar.fuelled fuel').pattern (Cursor.ofTokens tokens') = .ok (p, c'') ∧
        c''.current.kind = .finish ∧ c''.following = [] := by
  have regular := regular_of_read lexed within read numbers
  obtain ⟨tokens', split, ofKind⟩ := (lexes_text regular .nil).ofSource
  refine ⟨tokens', split, fun fuel' enough => ?_⟩
  have length := congrArg List.length ofKind
  rw [List.length_map, List.length_append] at length
  have stands := standsAt_ofTokens ofKind
  obtain ⟨_, c'', result, rfl, left⟩ :=
    readable regular (by omega : p.kinds.length ≤ fuel') 0 [.finish] ends_finish _ stands
  exact ⟨c'', result, left.current, List.map_eq_nil_iff.mp left.following⟩

/-- Items inside others, a number with a minus, a text in other quotes, and unit. -/
def nestedText : String := "(a, [-2.5, 'q', ..], ())"

theorem reads_back_nested : ∃ tokens p c', ofSource nestedText = .ok tokens ∧
    (∀ t ∈ (Cursor.ofTokens tokens).tokens, t ∈ tokens) ∧
    (Grammar.fuelled 40).pattern (Cursor.ofTokens tokens) = .ok (p, c') ∧
    (∀ x ∈ p.numbers, Decimal.IsFinite x ∧ Decimal.PlainReadsBack x.abs) ∧
    p.text = "(a, [-2.5, \"q\", ..], ())" ∧
    ∃ tokens', ofSource p.text = .ok tokens' ∧ ∀ fuel', tokens'.length ≤ fuel' →
      ∃ c'', (Grammar.fuelled fuel').pattern (Cursor.ofTokens tokens') = .ok (p, c'') ∧
        c''.current.kind = .finish ∧ c''.following = [] := by
  have whole : (ofSource nestedText).toOption.bind (fun tokens =>
      ((Grammar.fuelled 40).pattern (Cursor.ofTokens tokens)).toOption.map fun read =>
        (tokens.getLast?.map (·.kind), read.1.text, read.1.numbers)) =
      some (some .finish, "(a, [-2.5, \"q\", ..], ())", [-2.5]) := by decide +kernel
  have finite : (-2.5 : Float).isNaN = false ∧ (-2.5 : Float).isInf = false := by decide +kernel
  have back : (ofSource (Decimal.plain (-2.5 : Float).abs)).map (·.map (·.kind)) =
      .ok [.number (-2.5 : Float).abs, .finish] := by decide +kernel
  cases lexed : ofSource nestedText with
  | error e =>
    rw [lexed] at whole
    cases whole
  | ok tokens =>
    rw [lexed] at whole
    cases read : (Grammar.fuelled 40).pattern (Cursor.ofTokens tokens) with
    | error stop =>
      simp only [Except.toOption, Option.bind_some, read] at whole
      cases whole
    | ok made =>
      obtain ⟨p, c'⟩ := made
      simp only [Except.toOption, Option.bind_some, read, Option.map_some, Option.some.injEq,
        Prod.mk.injEq] at whole
      obtain ⟨ended, text, numbers⟩ := whole
      have within : ∀ t ∈ (Cursor.ofTokens tokens).tokens, t ∈ tokens := by
        rw [Cursor.tokens_ofTokens ended]
        exact fun t mem => mem
      have magnitudes : ∀ x ∈ p.numbers, Decimal.IsFinite x ∧ Decimal.PlainReadsBack x.abs := by
        rw [numbers]
        exact List.forall_mem_singleton.mpr ⟨finite, back⟩
      exact ⟨tokens, p, c', rfl, within, read, magnitudes, text,
        reads_back lexed within read magnitudes⟩

end Pattern

end ScriptEngine
