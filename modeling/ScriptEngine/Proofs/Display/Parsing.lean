import ScriptEngine.Proofs.Display.Forms
import ScriptEngine.Proofs.Display.Lexing

/-!
# Written data is read as literals

The tokens of a datum make one expression: a literal, an array, a tuple or a map of such, and a
negated literal for a number with a minus.

* `Datum.Written`: the expressions that a datum is read as.
* `Datum.balanced_kinds`, `Datum.grouped_kinds`: data is neither parameters nor a pattern.
* `Datum.Readable`, `Datum.readable`: the tokens of a datum make such an expression.
* `Datum.ofTokens_kinds`: they make a program of it.
-/

namespace ScriptEngine

namespace Datum

open Parse

mutual

/-- The expressions that a datum is read as. -/
def Written : Datum → Expr → Prop
  | .null, e => e.kind = .literal .null
  | .unit, e => e.kind = .literal .unit
  | .bool b, e => e.kind = .literal (.bool b)
  | .number x, e =>
    if Decimal.isNegated x then ∃ operand, e.kind = .unary .negate operand ∧
      operand.kind = .literal (.number (Decimal.valueOf (Decimal.numeralOf x)))
    else e.kind = .literal (.number (Decimal.valueOf (Decimal.numeralOf x)))
  | .string t, e => e.kind = .literal (.string t)
  | .array items, e => ∃ es, e.kind = .array es ∧ WrittenAll items es
  | .tuple items, e => ∃ es, e.kind = .tuple es ∧ WrittenAll items es
  | .map entries, e => ∃ rows, e.kind = .map rows ∧ WrittenEntries entries rows

def WrittenAll : List Datum → List Expr → Prop
  | [], es => es = []
  | d :: ds, es => ∃ e rest, es = e :: rest ∧ d.Written e ∧ WrittenAll ds rest

def WrittenEntries : List (String × Datum) → List (Expr × Expr) → Prop
  | [], rows => rows = []
  | (key, d) :: entries, rows => ∃ k e rest, rows = (k, e) :: rest ∧
      k.kind = .literal (.string key) ∧ d.Written e ∧ WrittenEntries entries rest

end

theorem balanced_plain {kind : TokenKind} (plain : ∀ opened rest, followerOf? opened (kind :: rest) =
    followerOf? opened rest) : Balanced [kind] :=
  Balanced.nil.cons plain

mutual

/-- In the tokens of a datum the brackets answer one another. -/
theorem balanced_kinds (d : Datum) : Balanced d.kinds := by
  match d with
  | .null | .bool true | .bool false | .string _ => exact balanced_plain fun _ _ => rfl
  | .unit => exact Balanced.nil.parens
  | .number x =>
    have numeral : Balanced [.number (Decimal.valueOf (Decimal.numeralOf x))] :=
      balanced_plain fun _ _ => rfl
    rw [kinds]
    split
    · exact numeral.cons fun _ _ => rfl
    · exact numeral
  | .array items => exact (balanced_itemsKinds items).brackets
  | .tuple items => exact (balanced_itemsKinds items).parens
  | .map entries => exact (balanced_entriesKinds entries).brackets

theorem balanced_itemsKinds (ds : List Datum) : Balanced (itemsKinds ds) := by
  match ds with
  | [] => exact .nil
  | d :: ds => exact (balanced_kinds d).append (balanced_moreKinds ds)

theorem balanced_moreKinds (ds : List Datum) : Balanced (moreKinds ds) := by
  match ds with
  | [] => exact .nil
  | d :: ds => exact ((balanced_kinds d).append (balanced_moreKinds ds)).cons fun _ _ => rfl

theorem balanced_entriesKinds (entries : List (String × Datum)) :
    Balanced (entriesKinds entries) := by
  match entries with
  | [] => exact balanced_plain fun _ _ => rfl
  | (key, d) :: entries =>
    have value := (balanced_kinds d).append (balanced_moreEntriesKinds entries)
    exact (value.cons fun _ _ => rfl).cons fun _ _ => rfl

theorem balanced_moreEntriesKinds (entries : List (String × Datum)) :
    Balanced (moreEntriesKinds entries) := by
  match entries with
  | [] => exact .nil
  | (key, d) :: entries =>
    have value := (balanced_kinds d).append (balanced_moreEntriesKinds entries)
    exact ((value.cons fun _ _ => rfl).cons fun _ _ => rfl).cons fun _ _ => rfl

end

/-- A token that data begins with. -/
def isFirst : TokenKind → Bool
  | .number _ | .string _ | .keyword .nullWord | .keyword .trueWord | .keyword .falseWord => true
  | .mark mark => mark = .minus || mark = .leftParen || mark = .leftBracket
  | _ => false

theorem exists_first (d : Datum) : ∃ kind kinds, d.kinds = kind :: kinds ∧ isFirst kind = true := by
  cases d with
  | bool b => cases b <;> exact ⟨_, _, rfl, rfl⟩
  | number x =>
    rw [kinds]
    split <;> exact ⟨_, _, rfl, rfl⟩
  | _ => exact ⟨_, _, rfl, rfl⟩

theorem grouped_kinds (d : Datum) (rest : List TokenKind) : Grouped (d.kinds ++ rest) rest := by
  match d with
  | .null | .bool true | .bool false | .string _ | .array _ | .map _ =>
    exact .of_ne (fun no => by cases no)
  | .number x =>
    rw [kinds]
    split <;> exact .of_ne (fun no => by cases no)
  | .unit => exact Balanced.nil.grouped
  | .tuple items =>
    rw [kinds, List.cons_append, List.append_assoc]
    exact (balanced_itemsKinds items).grouped

/-- A datum is read as an expression, in so many steps and at such a depth. -/
def Readable (d : Datum) (fuel depth : Nat) : Prop :=
  ∀ rest, Ends rest →
    Reads .none (Grammar.fuelled fuel).expression depth (d.kinds ++ rest) rest d.Written

variable {d : Datum} {ds : List Datum} {entries : List (String × Datum)} {fuel depth : Nat}
  {kind : TokenKind} {kinds rest : List TokenKind}

/-- What is read as a primary expression is read as an expression. -/
theorem readable_of_primary (room : depth + 1 < maxDepth)
    (plain : ∀ kind kinds, d.kinds = kind :: kinds → UnaryOp.ofToken? kind = none)
    (h : ∀ rest, Ends rest →
      Reads .none (primary (Grammar.fuelled fuel)) (depth + 2) (d.kinds ++ rest) rest d.Written) :
    d.Readable (fuel + 5) depth := by
  intro rest ends
  refine reads_expression (n := fuel + 1) ?_ (grouped_kinds _ rest) ends (by omega)
  obtain ⟨kind, kinds, same, first⟩ := d.exists_first
  have alone := plain kind kinds same
  have step : UpdateOp.ofToken? kind = none := by
    cases kind with
    | mark mark => cases mark <;> first | rfl | cases first
    | _ => rfl
  have operand := h rest ends
  rw [same, List.cons_append] at operand ⊢
  exact reads_unaryStep operand ⟨alone, step⟩ ends.operand room

/-- A datum of one token. -/
theorem readable_literal {literal : Literal} (room : depth + 1 < maxDepth) (single : d.kinds = [kind])
    (found : literalOf? kind = some literal)
    (written : ∀ e : Expr, e.kind = .literal literal → d.Written e) :
    d.Readable (fuel + 5) depth := by
  intro rest ends
  refine reads_expression (n := fuel + 1) ?_ (grouped_kinds _ rest) ends (by omega)
  rw [single]
  exact (reads_unary_literal found ends.operand room).imp written

/-- A key of a map is read as a text. -/
theorem readable_key (key : String) (fuel : Nat) (room : depth + 1 < maxDepth) :
    (string key).Readable (fuel + 5) depth :=
  readable_literal room rfl rfl fun _ written => written

theorem readable_unit (room : depth + 1 < maxDepth) : unit.Readable (fuel + 5) depth := by
  refine readable_of_primary room (fun kind kinds same => ?_) fun rest ends => ?_
  · obtain ⟨rfl, -⟩ := List.cons.inj same
    rfl
  · exact reads_primary_grouped (grouped_kinds .unit rest) ends fun _ => reads_grouped_unit ends

theorem readable_number {x : Float} (room : depth + 2 < maxDepth) :
    (number x).Readable (fuel + 6) depth := by
  intro rest ends
  refine reads_expression (n := fuel + 2) ?_ (grouped_kinds _ rest) ends (by omega)
  rw [kinds]
  split
  · next negated =>
    have literal : literalOf? (.number (Decimal.valueOf (Decimal.numeralOf x))) =
        some (.number (Decimal.valueOf (Decimal.numeralOf x))) := rfl
    have operand : Reads .none (readForm (fuel + 1) .unary) (depth + 2) _ rest _ :=
      reads_unary_literal literal ends.operand room
    have negation := reads_negated (g := Grammar.fuelled (fuel + 1)) operand (by omega)
    refine negation.imp fun e written => ?_
    rw [Written, if_pos negated]
    exact written
  · next positive =>
    refine (reads_unary_literal rfl ends.operand (by omega)).imp fun e written => ?_
    rw [Written, if_neg positive]
    exact written

/-! ## Reading data -/

theorem moreKinds_eq (ds : List Datum) : moreKinds ds = behind Datum.kinds ds := by
  induction ds with
  | nil => rfl
  | cons d ds ih => rw [moreKinds, ih]; rfl

/-- The tokens of an entry. -/
def entryKinds (entry : String × Datum) : List TokenKind :=
  .string entry.1 :: .mark .colon :: entry.2.kinds

theorem moreEntriesKinds_eq (entries : List (String × Datum)) :
    moreEntriesKinds entries = behind entryKinds entries := by
  induction entries with
  | nil => rfl
  | cons entry entries ih => rw [moreEntriesKinds, ih]; rfl

theorem writtenAll_of_forall₂ {es : List Expr} (h : List.Forall₂ Written ds es) :
    WrittenAll ds es := by
  induction h with
  | nil => rfl
  | cons written _ ih => exact ⟨_, _, rfl, written, ih⟩

theorem length_of_writtenAll {es : List Expr} (h : WrittenAll ds es) : es.length = ds.length := by
  induction ds generalizing es with
  | nil =>
    obtain rfl : es = [] := h
    rfl
  | cons d ds ih =>
    obtain ⟨e, rest, rfl, -, others⟩ := h
    rw [List.length_cons, List.length_cons, ih others]

/-- The expressions that an entry is read as. -/
def EntryWritten (entry : String × Datum) (row : Expr × Expr) : Prop :=
  row.1.kind = .literal (.string entry.1) ∧ entry.2.Written row.2

theorem writtenEntries_of_forall₂ {rows : List (Expr × Expr)}
    (h : List.Forall₂ EntryWritten entries rows) : WrittenEntries entries rows := by
  induction h with
  | nil => rfl
  | cons written _ ih => exact ⟨_, _, _, rfl, written.1, written.2, ih⟩

/-- The first token of a datum neither closes a bracket nor parts a key from its value. -/
theorem ne_of_first (same : d.kinds = kind :: kinds) : kind ≠ .mark .rightParen ∧
    kind ≠ .mark .rightBracket ∧ kind ≠ .mark .colon := by
  obtain ⟨first, others, same', begins⟩ := d.exists_first
  obtain ⟨rfl, rfl⟩ := List.cons.inj (same.symm.trans same')
  refine ⟨?_, ?_, ?_⟩
  all_goals
    rintro rfl
    cases begins

/-- A round that reads one more item behind a comma. -/
theorem reads_itemRound {α : Type} {close : Mark}
    (closes : close = .rightParen ∨ close = .rightBracket) (readable : d.Readable fuel depth)
    (ends : Ends rest) (found : List Expr) (trailing none : List Expr ⊕ α) :
    Reads .none (do
      if ← accept (.mark .comma) then
        if ← check (.mark close) then return trailing
        else return .inl (found ++ [← (Grammar.fuelled fuel).expression])
      else return none) depth (.mark .comma :: (d.kinds ++ rest)) rest fun next =>
        ∃ found', next = .inl found' ∧ ∃ e, found' = found ++ [e] ∧ d.Written e := by
  obtain ⟨kind, kinds, same, -⟩ := d.exists_first
  obtain ⟨ne_paren, ne_bracket, -⟩ := ne_of_first same
  have other : kind ≠ .mark close := by
    rcases closes with rfl | rfl
    · exact ne_paren
    · exact ne_bracket
  have value := readable rest ends
  rw [same, List.cons_append] at value ⊢
  exact (reads_accept (by decide)).next ((reads_check_of_ne other).next
    (value.bind fun e written => .ret ⟨_, rfl, e, rfl, written⟩))

theorem reads_arrayItems (readable : ∀ d ∈ ds, d.Readable fuel depth) (first : Expr) :
    Reads .none (arrayItems (Grammar.fuelled fuel) first) depth
      (moreKinds ds ++ .mark .rightBracket :: rest) (.mark .rightBracket :: rest)
      fun es => ∃ more, es = first :: more ∧ WrittenAll ds more := by
  have others : Reads .none (arrayItems (Grammar.fuelled fuel) first) depth
      (behind Datum.kinds ds ++ .mark .rightBracket :: rest) (.mark .rightBracket :: rest)
      fun es => ∃ more, es = id ([first] ++ more) ∧ List.Forall₂ Written ds more := by
    refine reads_repeating id ends_bracket (fun d mem found rest ends => ?_) (fun found => ?_) [first]
    · exact reads_itemRound (.inr rfl) (readable d mem) ends found _ _
    · exact (reads_accept_of_ne (by decide)).next (.ret rfl)
  rw [moreKinds_eq]
  refine others.imp ?_
  rintro es ⟨more, rfl, written⟩
  exact ⟨more, rfl, writtenAll_of_forall₂ written⟩

theorem reads_tupleItems (readable : ∀ d ∈ ds, d.Readable fuel depth) (first : Expr) :
    Reads .none (tupleItems (Grammar.fuelled fuel) first) depth
      (moreKinds ds ++ .mark .rightParen :: rest) (.mark .rightParen :: rest)
      fun found => ∃ more, found = (first :: more, false) ∧ WrittenAll ds more := by
  have others : Reads .none (tupleItems (Grammar.fuelled fuel) first) depth
      (behind Datum.kinds ds ++ .mark .rightParen :: rest) (.mark .rightParen :: rest)
      fun found => ∃ more, found = (·, false) ([first] ++ more) ∧ List.Forall₂ Written ds more := by
    refine reads_repeating (·, false) ends_paren (fun d mem found rest ends => ?_) (fun found => ?_)
      [first]
    · exact reads_itemRound (.inl rfl) (readable d mem) ends found _ _
    · exact (reads_accept_of_ne (by decide)).next (.ret rfl)
  rw [moreKinds_eq]
  refine others.imp ?_
  rintro found ⟨more, rfl, written⟩
  exact ⟨more, rfl, writtenAll_of_forall₂ written⟩

theorem reads_mapEntries (room : depth + 1 < maxDepth)
    (readable : ∀ entry ∈ entries, entry.2.Readable (fuel + 5) depth) (first : Expr × Expr) :
    Reads .none (mapEntries (Grammar.fuelled (fuel + 5)) first) depth
      (moreEntriesKinds entries ++ .mark .rightBracket :: rest) (.mark .rightBracket :: rest)
      fun rows => ∃ more, rows = first :: more ∧ WrittenEntries entries more := by
  have others : Reads .none (mapEntries (Grammar.fuelled (fuel + 5)) first) depth
      (behind entryKinds entries ++ .mark .rightBracket :: rest) (.mark .rightBracket :: rest)
      fun rows => ∃ more, rows = id ([first] ++ more) ∧ List.Forall₂ EntryWritten entries more := by
    refine reads_repeating id ends_bracket (fun entry mem found rest ends => ?_) (fun found => ?_)
      [first]
    · obtain ⟨kind, kinds, same, -⟩ := entry.2.exists_first
      have key := readable_key entry.1 fuel room (.mark .colon :: (entry.2.kinds ++ rest))
        ends_colon
      have value := readable entry mem rest ends
      rw [entryKinds, List.cons_append, List.cons_append]
      rw [same, List.cons_append] at value key ⊢
      exact (reads_accept (by decide)).next ((reads_check_of_ne (fun no => by cases no)).next
        (key.bind fun k isKey => reads_consumeMark.bind fun _ _ =>
          value.bind fun e written => .ret ⟨_, rfl, (k, e), rfl, isKey, written⟩))
    · exact (reads_accept_of_ne (by decide)).next (.ret rfl)
  rw [moreEntriesKinds_eq]
  refine others.imp ?_
  rintro rows ⟨more, rfl, written⟩
  exact ⟨more, rfl, writtenEntries_of_forall₂ written⟩

theorem reads_noColon : Reads .none (accept (.mark .colon)) depth
    (moreKinds ds ++ .mark .rightBracket :: rest) (moreKinds ds ++ .mark .rightBracket :: rest)
    (· = false) := by
  cases ds with
  | nil => exact reads_accept_of_ne (by decide)
  | cons d ds => exact reads_accept_of_ne (by decide)

theorem ends_moreKinds {close : Mark} (closes : Ends (.mark close :: rest)) :
    Ends (moreKinds ds ++ .mark close :: rest) := by
  rw [moreKinds_eq]
  exact ends_behind closes Datum.kinds ds

theorem ends_moreEntriesKinds :
    Ends (moreEntriesKinds entries ++ .mark .rightBracket :: rest) := by
  rw [moreEntriesKinds_eq]
  exact ends_behind ends_bracket entryKinds entries

/-- Items between brackets are an array. -/
theorem readable_array (room : depth + 1 < maxDepth)
    (items : ∀ d ∈ ds, d.Readable fuel (depth + 2)) : (array ds).Readable (fuel + 5) depth := by
  refine readable_of_primary room (fun kind kinds same => ?_) fun rest ends => ?_
  · obtain ⟨rfl, -⟩ := List.cons.inj same
    rfl
  · rw [kinds, List.cons_append, List.append_assoc, List.singleton_append]
    cases ds with
    | nil =>
      refine (reads_primary_bracketed ends reads_bracketItems_empty).imp fun e form => ?_
      exact ⟨[], form, rfl⟩
    | cons d ds =>
      obtain ⟨kind, kinds, same, -⟩ := d.exists_first
      obtain ⟨-, ne_bracket, ne_colon⟩ := ne_of_first same
      have first := items d List.mem_cons_self (moreKinds ds ++ .mark .rightBracket :: rest)
        (ends_moreKinds ends_bracket)
      rw [same, List.cons_append] at first
      rw [itemsKinds, List.append_assoc, same, List.cons_append]
      have inside := reads_bracketItems_array (I := WrittenAll (d :: ds)) ne_bracket ne_colon first
        reads_noColon fun e written =>
          (reads_arrayItems (fun d mem => items d (List.mem_cons_of_mem _ mem)) e).imp
            fun es ⟨more, same, all⟩ => ⟨e, more, same, written, all⟩
      exact reads_primary_bracketed ends inside

/-- Two or more items between parentheses are a tuple. -/
theorem readable_tuple (several : 2 ≤ ds.length) (room : depth + 1 < maxDepth)
    (items : ∀ d ∈ ds, d.Readable fuel (depth + 2)) : (tuple ds).Readable (fuel + 5) depth := by
  refine readable_of_primary room (fun kind kinds same => ?_) fun rest ends => ?_
  · obtain ⟨rfl, -⟩ := List.cons.inj same
    rfl
  · have around := grouped_kinds (tuple ds) rest
    rw [kinds, List.cons_append, List.append_assoc, List.singleton_append] at around ⊢
    refine reads_primary_grouped around ends fun position => ?_
    obtain ⟨d, ds, rfl⟩ := List.exists_cons_of_length_pos (Nat.lt_of_lt_of_le (by decide) several)
    obtain ⟨kind, kinds, same, -⟩ := d.exists_first
    have first := items d List.mem_cons_self (moreKinds ds ++ .mark .rightParen :: rest)
      (ends_moreKinds ends_paren)
    rw [same, List.cons_append] at first
    rw [itemsKinds, List.append_assoc, same, List.cons_append]
    refine reads_grouped_tuple (I := WrittenAll (d :: ds)) (ne_of_first same).1
      (first.bind fun e written => ?_) ends
    refine (reads_tupleItems (fun d mem => items d (List.mem_cons_of_mem _ mem)) e).imp ?_
    rintro found ⟨more, rfl, all⟩
    refine ⟨rfl, ?_, e, more, rfl, written, all⟩
    rw [List.length_cons] at several ⊢
    rwa [length_of_writtenAll all]

/-- Entries between brackets are a map. -/
theorem readable_map (room : depth + 3 < maxDepth)
    (values : ∀ entry ∈ entries, entry.2.Readable (fuel + 5) (depth + 2)) :
    (map entries).Readable (fuel + 10) depth := by
  refine readable_of_primary (by omega) (fun kind kinds same => ?_)
    fun rest ends => ?_
  · obtain ⟨rfl, -⟩ := List.cons.inj same
    rfl
  · rw [kinds, List.cons_append, List.append_assoc, List.singleton_append]
    cases entries with
    | nil =>
      refine (reads_primary_bracketed ends reads_bracketItems_colon).imp fun e form => ?_
      exact ⟨[], form, rfl⟩
    | cons entry entries =>
      obtain ⟨key, d⟩ := entry
      obtain ⟨kind, kinds, same, -⟩ := d.exists_first
      have isKey := readable_key key fuel (by omega : depth + 2 + 1 < maxDepth)
        (.mark .colon :: (d.kinds ++ (moreEntriesKinds entries ++ .mark .rightBracket :: rest)))
        ends_colon
      have value := values (key, d) List.mem_cons_self
        (moreEntriesKinds entries ++ .mark .rightBracket :: rest) ends_moreEntriesKinds
      rw [same, List.cons_append] at isKey value
      rw [entriesKinds, List.cons_append, List.cons_append, List.append_assoc, same, List.cons_append]
      have inside := reads_bracketItems_map (I := WrittenEntries ((key, d) :: entries))
        (fun no => by cases no) (fun no => by cases no) isKey value fun k e named written =>
          (reads_mapEntries (by omega) (fun entry mem => values entry (List.mem_cons_of_mem _ mem))
            (k, e)).imp fun rows ⟨more, same, all⟩ => ⟨k, e, more, same, named, written, all⟩
      exact reads_primary_bracketed ends inside

mutual

/-- A datum is read as an expression, if there are steps and room enough for its height. -/
theorem readable {d : Datum} (regular : d.Regular) {fuel depth : Nat}
    (enough : 5 * d.height + 6 ≤ fuel) (room : depth + 2 * d.height + 3 ≤ maxDepth) :
    d.Readable fuel depth := by
  match d with
  | .null | .bool true | .bool false | .string _ =>
    obtain ⟨fuel, rfl⟩ := Nat.exists_eq_add_of_le' (Nat.le_trans (by omega : 5 ≤ _) enough)
    exact readable_literal (by omega) rfl rfl fun _ written => written
  | .number x =>
    obtain ⟨fuel, rfl⟩ := Nat.exists_eq_add_of_le' enough
    exact readable_number room
  | .unit =>
    obtain ⟨fuel, rfl⟩ := Nat.exists_eq_add_of_le' (Nat.le_trans (by omega : 5 ≤ _) enough)
    exact readable_unit (by omega)
  | .array items =>
    rw [height] at enough room
    obtain ⟨fuel, rfl⟩ := Nat.exists_eq_add_of_le' (Nat.le_trans (by omega : 5 ≤ _) enough)
    exact readable_array (by omega) (readable_all regular (by omega) (by omega))
  | .tuple items =>
    rw [height] at enough room
    obtain ⟨fuel, rfl⟩ := Nat.exists_eq_add_of_le' (Nat.le_trans (by omega : 5 ≤ _) enough)
    exact readable_tuple regular.1 (by omega) (readable_all regular.2 (by omega) (by omega))
  | .map entries =>
    rw [height] at enough room
    obtain ⟨fuel, rfl⟩ := Nat.exists_eq_add_of_le' (Nat.le_trans (by omega : 10 ≤ _) enough)
    exact readable_map (by omega) (readable_entries regular.2 (by omega) (by omega))

theorem readable_all {ds : List Datum} (regular : RegularAll ds) {fuel depth : Nat}
    (enough : 5 * heightOfAll ds + 6 ≤ fuel) (room : depth + 2 * heightOfAll ds + 3 ≤ maxDepth) :
    ∀ d ∈ ds, d.Readable fuel depth := by
  match ds with
  | [] => exact fun d none => absurd none List.not_mem_nil
  | d :: ds =>
    rw [heightOfAll] at enough room
    exact List.forall_mem_cons.mpr
      ⟨readable regular.1 (by omega) (by omega), readable_all regular.2 (by omega) (by omega)⟩

theorem readable_entries {entries : List (String × Datum)} (regular : RegularEntries entries)
    {fuel depth : Nat} (enough : 5 * heightOfEntries entries + 6 ≤ fuel)
    (room : depth + 2 * heightOfEntries entries + 3 ≤ maxDepth) :
    ∀ entry ∈ entries, entry.2.Readable fuel depth := by
  match entries with
  | [] => exact fun entry none => absurd none List.not_mem_nil
  | (key, d) :: entries =>
    rw [heightOfEntries] at enough room
    exact List.forall_mem_cons.mpr
      ⟨readable regular.1 (by omega) (by omega), readable_entries regular.2 (by omega) (by omega)⟩

end

/-! ## Reading a program -/

/-- Data begins no statement but an expression. -/
theorem reads_wordedStatement? {g : Grammar} (begins : isFirst kind = true) :
    Reads .none (wordedStatement? g) depth (kind :: kinds) (kind :: kinds) (· = none) := by
  refine reads_get.bind fun c stands => ?_
  rw [stands.current]
  cases kind with
  | keyword word => cases word <;> first | exact .ret rfl | cases begins
  | _ => exact .ret rfl

/-- A datum alone is a statement. -/
theorem reads_statement (readable : d.Readable fuel depth) :
    Reads .none (Grammar.fuelled (fuel + 1)).statement depth (d.kinds ++ [.finish]) [.finish]
      fun s => ∃ e, s.kind = .expression e false ∧ d.Written e := by
  have value := readable [.finish] ends_finish
  obtain ⟨kind, kinds, same, begins⟩ := d.exists_first
  rw [same, List.cons_append] at value ⊢
  exact reads_here.bind fun position _ => (reads_wordedStatement? begins).next
    (value.bind fun e written =>
      (reads_accept_of_ne (by decide)).next (.ret ⟨e, rfl, written⟩))

/-- It is a program of this statement. -/
theorem reads_program (readable : d.Readable fuel 0) :
    Reads .none (program (Grammar.fuelled (fuel + 1))) 0 (d.kinds ++ [.finish]) [.finish]
      fun block => ∃ s e, block.statements = [s] ∧ s.kind = .expression e false ∧ d.Written e := by
  have statement := reads_statement readable
  obtain ⟨kind, kinds, same, begins⟩ := d.exists_first
  have going : kind ≠ .finish := by
    rintro rfl
    cases begins
  rw [same, List.cons_append] at statement ⊢
  have statements : Reads .none (repeating (fun statements => do
      if ← atFinish then return .inr statements.reverse
      else return .inl ((← (Grammar.fuelled (fuel + 1)).statement) :: statements)) []) 0
      (kind :: (kinds ++ [.finish])) [.finish] fun (found : List Stmt) =>
        ∃ s e, found = [s] ∧ s.kind = .expression e false ∧ d.Written e := by
    refine .repeating fun rounds enough => ?_
    obtain ⟨rounds, rfl⟩ : ∃ n, rounds = n + 1 + 1 := ⟨rounds - 2, by simp at enough; omega⟩
    refine Reads.again (I := fun found => ∃ s e, found = [s] ∧ s.kind = .expression e false ∧
      d.Written e) [.finish] ((reads_check_of_ne going).next (statement.bind fun s written => ?_)) ?_
    · obtain ⟨e, isExpression, written⟩ := written
      exact .ret ⟨[s], rfl, s, e, rfl, isExpression, written⟩
    · rintro _ ⟨s, e, rfl, isExpression, written⟩
      refine Reads.last (reads_check_self.next (.ret ?_))
      exact ⟨[s], rfl, s, e, rfl, isExpression, written⟩
  exact reads_here.bind fun position _ => statements.bind fun found ⟨s, e, same, written⟩ =>
    .ret ⟨s, e, same, written⟩

theorem closed_eq {tokens : List Token} (ofKind : tokens.map (·.kind) = kinds ++ [.finish]) :
    closed tokens = tokens := by
  obtain ⟨before, after, rfl, -, last⟩ := List.map_eq_append_iff.mp ofKind
  obtain ⟨token, none, rfl, isFinish, ended⟩ := List.map_eq_cons_iff.mp last
  obtain rfl := List.map_eq_nil_iff.mp ended
  obtain ⟨kind, lexeme, position, stop⟩ := token
  obtain rfl : kind = .finish := isFinish
  rw [closed, List.getLast?_concat]

/-- The tokens of a datum make a program of one expression, which is written as the datum is. -/
theorem ofTokens_kinds (regular : d.Regular) (height : d.height ≤ 8) {tokens : List Token}
    (ofKind : tokens.map (·.kind) = d.kinds ++ [.finish]) :
    ∃ block s e, Parse.ofTokens tokens = .ok block ∧ block.statements = [s] ∧
      s.kind = .expression e false ∧ d.Written e := by
  have ended := closed_eq ofKind
  obtain ⟨kind, kinds, same, -⟩ := d.exists_first
  rw [same, List.cons_append] at ofKind
  obtain ⟨current, following, rfl, ofCurrent, ofFollowing⟩ := List.map_eq_cons_iff.mp ofKind
  have start : Cursor.ofTokens (current :: following) = ⟨current, following, .none, 0, 1⟩ := by
    rw [Cursor.ofTokens, ended]
  have stands : Cursor.StandsAt ⟨current, following, .none, 0, 1⟩ .none 0
      (d.kinds ++ [.finish]) := by
    refine ⟨?_, rfl, rfl⟩
    rw [same, ofCurrent, ofFollowing, List.cons_append]
  have some : 1 ≤ following.length := by
    rw [← List.length_map (f := (·.kind)), ofFollowing, List.length_append]
    exact Nat.le_add_left 1 _
  have readable : d.Readable (16 * (following.length + 1 + 1) - 1) 0 :=
    readable regular (by omega) (by rw [maxDepth]; omega)
  obtain ⟨block, c, result, ⟨s, e, found, isExpression, written⟩, -⟩ :=
    reads_program readable _ stands
  refine ⟨block, s, e, ?_, found, isExpression, written⟩
  have fuel : fuelFor (following.length + 1) = 16 * (following.length + 1 + 1) - 1 + 1 := by
    rw [fuelFor]
    omega
  simp only [Parse.ofTokens, start, fuel, StateT.run', result]
  rfl

end Datum

end ScriptEngine
