import Mathlib
import ScriptEngine.Text.Search

/-!
# Where a text occurs in another one

* `Text.places`: the places from which one text stands in another one.
* `Text.indexOf?_eq_some_iff`, `Text.indexOf?_eq_none_iff`: the first of these places is found, if there
  is one.
* `Text.slice_eq_iff`: a text stands where it can be cut out.
* `Text.suffix_iff`: and it stands at the end if it is what is cut out there.
* `Text.isLeast_places_bytes`, `Text.places_bytes_eq_empty_iff`: a search of the bytes finds the same
  place.
* `Text.intercalate_pieces`: the separator between its pieces gives a text back.
* `Text.replace_eq_intercalate`: replacing puts something else between the same pieces.
* `Text.not_infix_of_mem_pieces`: no piece contains a separator that is not empty.
-/

namespace ScriptEngine.Text

variable {needle text : List Char} {k : Nat}

/-! ## The first occurrence -/

/-- The places of a text from which the needle stands there. -/
def places {α : Type} (needle text : List α) : Set Nat := {k | needle <+: text.drop k}

theorem isLeast_of_prefix (here : needle <+: text) : IsLeast (places needle text) 0 :=
  ⟨here, fun _ _ => Nat.zero_le _⟩

theorem isLeast_of_indexOf? (found : indexOf? needle text = some k) :
    IsLeast (places needle text) k := by
  fun_induction indexOf? needle text generalizing k with
  | case1 empty =>
    cases found
    exact isLeast_of_prefix (List.isEmpty_iff.mp empty ▸ List.nil_prefix)
  | case2 => cases found
  | case3 c rest here =>
    cases found
    exact isLeast_of_prefix (List.isPrefixOf_iff_prefix.mp here)
  | case4 c rest elsewhere ih =>
    obtain ⟨j, later, rfl⟩ := Option.map_eq_some_iff.mp found
    obtain ⟨stands, first⟩ := ih later
    refine ⟨stands, fun i stands => ?_⟩
    cases i with
    | zero => exact absurd (List.isPrefixOf_iff_prefix.mpr stands) elsewhere
    | succ i => exact Nat.succ_le_succ (first stands)

theorem places_eq_empty_of_indexOf? (missed : indexOf? needle text = none) :
    places needle text = ∅ := by
  refine Set.eq_empty_of_forall_notMem fun k stands => ?_
  fun_induction indexOf? needle text generalizing k with
  | case1 => cases missed
  | case2 some =>
    rw [places, Set.mem_ofPred_eq, List.drop_nil, List.prefix_nil] at stands
    exact some (List.isEmpty_iff.mpr stands)
  | case3 => cases missed
  | case4 c rest elsewhere ih =>
    cases k with
    | zero => exact elsewhere (List.isPrefixOf_iff_prefix.mpr stands)
    | succ k => exact ih (Option.map_eq_none_iff.mp missed) k stands

/-- The needle stands where it is found, and nowhere before, -/
theorem indexOf?_eq_some_iff : indexOf? needle text = some k ↔ IsLeast (places needle text) k := by
  refine ⟨isLeast_of_indexOf?, fun least => ?_⟩
  cases found : indexOf? needle text with
  | none => exact absurd least.1 (places_eq_empty_of_indexOf? found ▸ Set.notMem_empty k)
  | some j => rw [(isLeast_of_indexOf? found).unique least]

/-- and nowhere if it is not found. -/
theorem indexOf?_eq_none_iff : indexOf? needle text = none ↔ places needle text = ∅ := by
  refine ⟨places_eq_empty_of_indexOf?, fun nowhere => ?_⟩
  cases found : indexOf? needle text with
  | none => rfl
  | some k => exact absurd (isLeast_of_indexOf? found).1 (nowhere ▸ Set.notMem_empty k)

/-- It is found at the front if the text begins with it. -/
theorem indexOf?_eq_some_zero_iff : indexOf? needle text = some 0 ↔ needle <+: text :=
  indexOf?_eq_some_iff.trans ⟨fun least => least.1, isLeast_of_prefix⟩

theorem mem_places_iff_infix : (∃ k, k ∈ places needle text) ↔ needle <:+: text := by
  constructor
  · rintro ⟨k, stands⟩
    exact stands.isInfix.trans (List.drop_suffix k text).isInfix
  · rintro ⟨before, behind, rfl⟩
    refine ⟨before.length, ?_⟩
    rw [places, Set.mem_ofPred_eq, List.append_assoc, List.drop_left]
    exact List.prefix_append _ _

/-! ## Slices -/

theorem slice_eq (start stop : Nat) (text : List Char) :
    slice start stop text = (text.drop start).take (stop - start) :=
  List.drop_take ..

/-- A text stands at a place if it is what is cut out there. -/
theorem slice_eq_iff : slice k (k + needle.length) text = needle ↔ k ∈ places needle text := by
  rw [slice_eq, Nat.add_sub_cancel_left, places, Set.mem_ofPred_eq, List.prefix_iff_eq_take, eq_comm]

theorem le_of_mem_places (some : needle ≠ []) (stands : k ∈ places needle text) :
    k + needle.length ≤ text.length := by
  have fits := stands.length_le
  rw [List.length_drop] at fits
  have := List.length_pos_iff.mpr some
  omega

/-- The first place leaves room for all of the needle. -/
theorem le_of_isLeast (least : IsLeast (places needle text) k) :
    k + needle.length ≤ text.length := by
  by_cases some : needle = []
  · have first : k ≤ 0 := least.2 (some ▸ List.nil_prefix)
    rw [some, Nat.le_zero.mp first]
    exact Nat.zero_le _
  · exact le_of_mem_places some least.1

/-- A text ends with another one if that is what is cut out at its end. -/
theorem suffix_iff : needle <:+ text ↔ needle.length ≤ text.length ∧
    slice (text.length - needle.length) text.length text = needle := by
  rw [slice, List.take_length]
  constructor
  · exact fun ends => ⟨ends.length_le, (List.suffix_iff_eq_drop.mp ends).symm⟩
  · exact fun ends => ends.2 ▸ List.drop_suffix _ _

/-! ## Bytes -/

/-- The bytes that encode a text. -/
def bytes (text : List Char) : List UInt8 := text.flatMap String.utf8EncodeChar

theorem bytes_cons (c : Char) (rest : List Char) :
    bytes (c :: rest) = String.utf8EncodeChar c ++ bytes rest := List.flatMap_cons

theorem length_bytes_take_succ (c : Char) (rest : List Char) (j : Nat) :
    (bytes ((c :: rest).take (j + 1))).length =
      (String.utf8EncodeChar c).length + (bytes (rest.take j)).length := by
  rw [List.take_succ_cons, bytes_cons, List.length_append]

/-- The bytes of a text tell all of its characters. -/
theorem bytes_prefix_iff : bytes needle <+: bytes text ↔ needle <+: text := by
  constructor
  · rintro ⟨behind, same⟩
    refine List.isPrefix_of_utf8Encode_append_eq_utf8Encode behind.toByteArray ?_
    rw [List.utf8Encode, List.utf8Encode, ← List.toByteArray_append]
    exact congrArg List.toByteArray same
  · rintro ⟨behind, rfl⟩
    rw [bytes, bytes, List.flatMap_append]
    exact List.prefix_append _ _

/-- Bytes that begin with a character do not stand inside the bytes of another one. -/
theorem not_mem_places_inside {d : Char} {rest : List Char} (some : needle ≠ []) (behind : 0 < k)
    (inside : k < (String.utf8EncodeChar d).length) :
    k ∉ places (bytes needle) (bytes (d :: rest)) := by
  intro stands
  obtain ⟨c, cs, rfl⟩ := List.exists_cons_of_ne_nil some
  obtain ⟨first, others, encoded⟩ :=
    List.exists_cons_of_ne_nil (String.utf8EncodeChar_ne_nil (c := c))
  have start : first.IsUTF8FirstByte := by
    have some : 0 < (String.utf8EncodeChar c).length := by
      rw [encoded]
      exact Nat.succ_pos _
    have here : (String.utf8EncodeChar c)[0].IsUTF8FirstByte :=
      UInt8.isUTF8FirstByte_getElem_utf8EncodeChar.mpr rfl
    simpa only [encoded, List.getElem_cons_zero] using here
  rw [places, Set.mem_ofPred_eq, bytes_cons, bytes_cons, encoded,
    List.drop_append_of_le_length inside.le, ← List.cons_getElem_drop_succ (h := inside),
    List.cons_append, List.cons_append, List.cons_prefix_cons] at stands
  rw [stands.1] at start
  exact behind.ne' (UInt8.isUTF8FirstByte_getElem_utf8EncodeChar.mp start)

/-- The bytes of a text stand where its characters stand, -/
theorem mem_places_bytes {j : Nat} (stands : j ∈ places needle text) :
    (bytes (text.take j)).length ∈ places (bytes needle) (bytes text) := by
  have parted : bytes text = bytes (text.take j) ++ bytes (text.drop j) := by
    rw [bytes, bytes, bytes, ← List.flatMap_append, List.take_append_drop]
  rw [places, Set.mem_ofPred_eq, parted, List.drop_left]
  exact bytes_prefix_iff.mpr stands

/-- and nowhere else. -/
theorem exists_of_mem_places_bytes (some : needle ≠ [])
    (stands : k ∈ places (bytes needle) (bytes text)) :
    ∃ j ∈ places needle text, (bytes (text.take j)).length = k := by
  induction text generalizing k with
  | nil =>
    rw [places, Set.mem_ofPred_eq, bytes, bytes, List.flatMap_nil, List.drop_nil, List.prefix_nil,
      List.flatMap_eq_nil_iff] at stands
    obtain ⟨c, cs, rfl⟩ := List.exists_cons_of_ne_nil some
    exact absurd (stands c List.mem_cons_self) String.utf8EncodeChar_ne_nil
  | cons d rest ih =>
    rcases Nat.eq_zero_or_pos k with rfl | behind
    · exact ⟨0, bytes_prefix_iff.mp stands, rfl⟩
    · rcases Nat.lt_or_ge k (String.utf8EncodeChar d).length with inside | beyond
      · exact absurd stands (not_mem_places_inside some behind inside)
      · obtain ⟨i, rfl⟩ := Nat.exists_eq_add_of_le beyond
        rw [places, Set.mem_ofPred_eq, bytes_cons, List.drop_length_add_append] at stands
        obtain ⟨j, later, same⟩ := ih stands
        exact ⟨j + 1, later, by rw [length_bytes_take_succ, same]⟩

/-- The first place of the bytes is that of the characters. -/
theorem isLeast_places_bytes (least : IsLeast (places needle text) k) :
    IsLeast (places (bytes needle) (bytes text)) (bytes (text.take k)).length := by
  refine ⟨mem_places_bytes least.1, fun i stands => ?_⟩
  by_cases some : needle = []
  · have first : k ≤ 0 := least.2 (some ▸ List.nil_prefix)
    rw [Nat.le_zero.mp first]
    exact Nat.zero_le i
  · obtain ⟨j, later, rfl⟩ := exists_of_mem_places_bytes some stands
    exact ((List.take_sublist_take_left (least.2 later)).flatMap _).length_le

theorem places_bytes_eq_empty_iff :
    places (bytes needle) (bytes text) = ∅ ↔ places needle text = ∅ := by
  simp only [Set.eq_empty_iff_forall_notMem]
  constructor
  · exact fun nowhere j stands => nowhere _ (mem_places_bytes stands)
  · intro nowhere k stands
    have some : needle ≠ [] := fun none => nowhere 0 (none ▸ List.nil_prefix)
    obtain ⟨j, stands, -⟩ := exists_of_mem_places_bytes some stands
    exact nowhere j stands

/-! ## Pieces -/

section

variable {separator piece : List Char} {skip : Nat}

/-! ### Scanning from the left -/

theorem piecesFrom_ne_nil : piecesFrom separator skip piece text ≠ [] := by
  fun_induction piecesFrom separator skip piece text with
  | case1 => exact List.cons_ne_nil _ _
  | case2 _ _ _ _ ih => exact ih
  | case3 => exact List.cons_ne_nil _ _
  | case4 _ _ _ _ ih => exact ih

/-- A text that begins with the separator is the separator and what is behind it. -/
theorem append_drop_of_isPrefixOf {c : Char} {rest : List Char} (some : separator ≠ [])
    (here : separator.isPrefixOf (c :: rest) = true) :
    separator ++ rest.drop (separator.length - 1) = c :: rest := by
  obtain ⟨behind, same⟩ := List.isPrefixOf_iff_prefix.mp here
  have cut : (c :: rest).drop separator.length = behind := by rw [← same, List.drop_left]
  rw [← same, ← cut]
  congr 1
  rw [← Nat.sub_add_cancel (List.length_pos_iff.mpr some), List.drop_succ_cons]
  rfl

/-- The pieces with the separator between them are the text that has been scanned. -/
theorem intercalate_piecesFrom (some : separator ≠ []) :
    separator.intercalate (piecesFrom separator skip piece text) =
      piece.reverse ++ text.drop skip := by
  fun_induction piecesFrom separator skip piece text with
  | case1 => rw [List.intercalate_singleton, List.drop_nil, List.append_nil]
  | case2 _ _ _ _ ih => rw [ih, List.drop_succ_cons]
  | case3 piece c rest here ih =>
    rw [List.intercalate_cons_of_ne_nil piecesFrom_ne_nil, ih, List.reverse_nil, List.nil_append,
      List.append_assoc, append_drop_of_isPrefixOf some here, List.drop_zero]
  | case4 piece c rest _ ih =>
    rw [ih, List.reverse_cons, List.append_assoc, List.drop_zero, List.drop_zero,
      List.singleton_append]

/-- What is written in the place of the separator stands between the pieces. -/
theorem replaceFrom_eq (new done : List Char) :
    replaceFrom separator new skip (piece ++ done) text =
      done.reverse ++ new.intercalate (piecesFrom separator skip piece text) := by
  fun_induction piecesFrom separator skip piece text generalizing done with
  | case1 =>
    rw [replaceFrom, List.intercalate_singleton, List.reverse_append]
  | case2 _ _ _ _ ih => rw [replaceFrom, ih]
  | case3 piece c rest here ih =>
    rw [replaceFrom, if_pos here, List.intercalate_cons_of_ne_nil piecesFrom_ne_nil,
      ← List.nil_append (new.reverse ++ (piece ++ done)), ih]
    simp only [List.reverse_append, List.reverse_reverse, List.append_assoc]
  | case4 piece c rest elsewhere ih =>
    rw [replaceFrom, if_neg elsewhere, ← List.cons_append, ih]

/-- The separator does not stand anywhere from a piece on, whatever stands behind the piece. -/
def Clear (separator piece text : List Char) : Prop :=
  ∀ k < piece.length, ¬ separator <+: (piece.reverse ++ text).drop k

theorem clear_nil : Clear separator [] text := fun k less => absurd less (Nat.not_lt_zero k)

/-- A piece grows by a character from which the separator does not stand. -/
theorem Clear.cons {c : Char} {rest : List Char} (clear : Clear separator piece (c :: rest))
    (elsewhere : ¬ separator <+: c :: rest) : Clear separator (c :: piece) rest := by
  intro k less
  rw [List.reverse_cons, List.append_assoc, List.singleton_append]
  rcases Nat.lt_succ_iff_lt_or_eq.mp less with before | rfl
  · exact clear k before
  · rwa [← List.length_reverse, List.drop_left]

/-- A piece of this kind does not contain the separator. -/
theorem Clear.not_infix (clear : Clear separator piece text) (some : separator ≠ []) :
    ¬ separator <:+: piece.reverse := by
  rintro ⟨before, behind, same⟩
  have some := List.length_pos_iff.mpr some
  have length := congrArg List.length same
  rw [List.length_append, List.length_append, List.length_reverse] at length
  refine clear before.length (by omega) ?_
  rw [← same, List.append_assoc, List.append_assoc, List.drop_left]
  exact List.prefix_append _ _

/-- No piece contains the separator. -/
theorem not_infix_of_mem_piecesFrom (some : separator ≠ [])
    (clear : Clear separator piece (text.drop skip)) {part : List Char}
    (among : part ∈ piecesFrom separator skip piece text) : ¬ separator <:+: part := by
  fun_induction piecesFrom separator skip piece text with
  | case1 =>
    rw [List.mem_singleton.mp among]
    exact clear.not_infix some
  | case2 _ _ _ _ ih => exact ih clear among
  | case3 piece c rest here ih =>
    rcases List.mem_cons.mp among with rfl | later
    · exact clear.not_infix some
    · exact ih clear_nil later
  | case4 piece c rest elsewhere ih =>
    exact ih (clear.cons fun stands => elsewhere (List.isPrefixOf_iff_prefix.mpr stands)) among

/-! ### Whole texts -/

theorem pieces_nil (text : List Char) : pieces [] text = [] :: (text.map fun c => [c]) ++ [[]] := rfl

theorem pieces_of_ne_nil (some : separator ≠ []) (text : List Char) :
    pieces separator text = piecesFrom separator 0 [] text := by
  rw [pieces, if_neg (mt List.isEmpty_iff.mp some)]

/-- A text between single characters. -/
theorem intercalate_characters (new text : List Char) :
    new.intercalate (text.map (fun c => [c]) ++ [[]]) = text.flatMap (· :: new) := by
  induction text with
  | nil => rfl
  | cons c rest ih =>
    rw [List.map_cons, List.cons_append, List.intercalate_cons_of_ne_nil (by simp), ih,
      List.flatMap_cons, List.singleton_append, List.cons_append]

/-- The separator between its pieces gives a text back. -/
theorem intercalate_pieces (separator text : List Char) :
    separator.intercalate (pieces separator text) = text := by
  by_cases some : separator = []
  · subst some
    rw [pieces_nil, List.cons_append, List.intercalate_cons_of_ne_nil (by simp),
      intercalate_characters]
    exact List.flatMap_singleton' text
  · rw [pieces_of_ne_nil some, intercalate_piecesFrom some, List.reverse_nil, List.nil_append,
      List.drop_zero]

/-- Replacing is putting something else between the pieces. -/
theorem replace_eq_intercalate (old new text : List Char) :
    replace old new text = new.intercalate (pieces old text) := by
  by_cases some : old = []
  · subst some
    rw [pieces_nil, List.cons_append, List.intercalate_cons_of_ne_nil (by simp),
      intercalate_characters]
    rfl
  · rw [replace, if_neg (mt List.isEmpty_iff.mp some), pieces_of_ne_nil some]
    have written : replaceFrom old new 0 ([] ++ []) text = _ := replaceFrom_eq new []
    exact written

/-- No piece contains the separator. -/
theorem not_infix_of_mem_pieces (some : separator ≠ []) {part : List Char}
    (among : part ∈ pieces separator text) : ¬ separator <:+: part :=
  not_infix_of_mem_piecesFrom some clear_nil (pieces_of_ne_nil some text ▸ among)

end

end ScriptEngine.Text
