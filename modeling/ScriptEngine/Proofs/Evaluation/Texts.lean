import ScriptEngine.Evaluation.Run
import ScriptEngine.Proofs.Decimal.Counts
import ScriptEngine.Proofs.Evaluation.Regime
import ScriptEngine.Proofs.Text.Search

/-!
# Methods of texts

A text is cut between two places, searched for another one, and taken apart and put together again.
The places are numbers that scripts calculate with; they count characters.

* `Text.Refuses`, `Text.steps_of_not_refuses`: which numbers are no places of a text.
* `Eval.cuts_between`: what is cut out, when it is refused, and when there is no outcome.
* `Eval.Answers`: a method that gives an answer and changes nothing.
* `Eval.searches_agree`: all searches go by the first place from which a text can be cut out.
* `Eval.pieces_fit`: pieces can be joined again, and joining them with something else is replacing.
-/

namespace ScriptEngine

open Decimal (steps)

/-! ## Cutting -/

namespace Text

/-- Two numbers between which nothing is cut out of a text of this length, since one of them is out of
order. -/
def Refuses (length : Nat) (start stop : Float) : Prop :=
  start < 0.0 ∨ stop < start ∨ stop > Float.ofNat length

variable {text : List Char} {start stop : Float}

theorem between?_of_refuses (refused : Refuses text.length start stop) :
    between? text start stop = .error () := by
  rw [between?, if_pos]
  simpa [Refuses, or_assoc] using refused

theorem between?_of_not_refuses (allowed : ¬ Refuses text.length start stop) :
    between? text start stop =
      if steps stop < steps start || text.length < steps stop then .ok none
      else .ok (some (slice (steps start) (steps stop) text)) := by
  rw [between?, if_neg]
  simpa [Refuses, or_assoc] using allowed

/-- Numbers that are let through stand for places of the text in their order, unless the end is no
number. -/
theorem steps_of_not_refuses {length : Nat} (small : length < 2 ^ 53)
    (allowed : ¬ Refuses length start stop) (ordered : stop.isNaN = true → steps start = 0) :
    steps start ≤ steps stop ∧ steps stop ≤ length := by
  simp only [Refuses, not_or] at allowed
  obtain ⟨-, before, inside⟩ := allowed
  by_cases none : stop.isNaN = true
  · rw [Decimal.steps_of_isNaN none, ordered none]
    exact ⟨le_rfl, Nat.zero_le _⟩
  · rw [Bool.not_eq_true] at none
    have count := Decimal.isNaN_of_value? (Decimal.value?_ofNat small)
    refine ⟨?_, ?_⟩
    · by_cases none' : start.isNaN = true
      · rw [Decimal.steps_of_isNaN none']
        exact Nat.zero_le _
      · exact Decimal.steps_le_steps (Bool.not_eq_true _ ▸ none') none before
    · rw [← Decimal.steps_ofNat small]
      exact Decimal.steps_le_steps none count inside

/-- What is cut out between two places of a text. -/
theorem between?_ofNat {i j : Nat} (small : text.length < 2 ^ 53) (hi : i < 2 ^ 53)
    (hj : j < 2 ^ 53) : between? text (Float.ofNat i) (Float.ofNat j) =
      if i ≤ j ∧ j ≤ text.length then .ok (some (slice i j text)) else .error () := by
  have refuses : Refuses text.length (Float.ofNat i) (Float.ofNat j) ↔
      ¬ (i ≤ j ∧ j ≤ text.length) := by
    rw [Refuses, gt_iff_lt, Decimal.ofNat_lt_ofNat_iff hj hi, Decimal.ofNat_lt_ofNat_iff small hj]
    simp only [Decimal.not_ofNat_lt_zero hi, false_or]
    omega
  split
  · next inside =>
    rw [between?_of_not_refuses (fun refused => refuses.mp refused inside), Decimal.steps_ofNat hi,
      Decimal.steps_ofNat hj, if_neg]
    simp only [Bool.or_eq_true, decide_eq_true_eq]
    omega
  · next outside => exact between?_of_refuses (refuses.mpr outside)

end Text

/-- The world with a new array. -/
def World.withNewArray (w : World) (items : List Value) : World :=
  { w with store := (w.store.newArray items.toArray).2 }

theorem World.array_withNewArray (w : World) (items : List Value) :
    (w.withNewArray items).store.array w.store.arrays.size = items.toArray := by
  show (w.store.arrays.push items.toArray).getD w.store.arrays.size #[] = _
  rw [Array.getD_eq_getD_getElem?, Array.getElem?_push_size, Option.getD_some]

namespace Eval

variable {machine : Machine} {env : EnvId} {viewer : Option EntityRef} {w : World} {text : String}

/-- What becomes of a text that is cut between two numbers. -/
def cutText (text : String) : Except Unit (Option (List Char)) → Eval Value
  | .ok (some part) => pure (.string (String.ofList part))
  | .ok none => crash
  | .error () => panic ((Value.string text).badArguments "substring")

theorem callMethod_substring (start stop : Float) (rest : List Value) :
    callMethod machine (.string text) "substring" (.number start :: .number stop :: rest) viewer
      env w = cutText text (Text.between? text.toList start stop) env w := by
  show stringMethod .substring (.string text) text "substring" _ env w = _
  have given : (Value.string text).numberArgument "substring"
    (.number start :: .number stop :: rest) 0 = .ok start := rfl
  have given' : (Value.string text).numberArgument "substring"
    (.number start :: .number stop :: rest) 1 = .ok stop := rfl
  simp only [stringMethod, given, given', ofExcept, pure_bind, List.getElem?_cons_succ,
    List.getElem?_cons_zero]
  cases Text.between? text.toList start stop with
  | error => rfl
  | ok part => cases part <;> rfl

/-- Without an end it is cut up to its own end. -/
theorem callMethod_substring_end (start : Float) :
    callMethod machine (.string text) "substring" [.number start] viewer =
      callMethod machine (.string text) "substring"
        [.number start, .number (Float.ofNat text.length)] viewer := rfl

/-- A cut is a part of a text between two places of it, or there is none. -/
structure CutsBetween (machine : Machine) (env : EnvId) (viewer : Option EntityRef) : Prop where
  /-- Numbers out of order are refused, and nothing changes. -/
  refused {text : String} {start stop : Float} (rest : List Value) (w : World) :
    Text.Refuses text.length start stop →
    ∃ p, p.code = .argumentMismatch ∧ callMethod machine (.string text) "substring"
      (.number start :: .number stop :: rest) viewer env w = .stopped (.signal (.panic p)) w
  /-- Others stand for places of the text in their order, and what is between these is cut out. The length
  of a text, which a memory holds, is counted exactly. -/
  cut {text : String} {start stop : Float} (rest : List Value) (w : World) :
    text.length < 2 ^ 53 → ¬ Text.Refuses text.length start stop →
    (stop.isNaN = true → steps start = 0) →
    steps start ≤ steps stop ∧ steps stop ≤ text.length ∧
      callMethod machine (.string text) "substring" (.number start :: .number stop :: rest) viewer
        env w = .done (.string (String.ofList (Text.slice (steps start) (steps stop) text.toList))) w
  /-- But what is no number is not refused as an end. From behind the first character the cut goes
  back to the front then, and the task crashes. -/
  backwards {text : String} {start stop : Float} (rest : List Value) (w : World) :
    ¬ Text.Refuses text.length start stop → stop.isNaN = true → 0 < steps start →
    callMethod machine (.string text) "substring" (.number start :: .number stop :: rest) viewer
      env w = .stopped (.unfinished .crash) w
  /-- The place that a number stands for is found by cutting off its fraction. -/
  place {x : Float} {q : ℚ} : Decimal.value? x = some q → q < 2 ^ 53 → steps x = ⌊q⌋₊
  /-- A cut without an end goes as far as the text. -/
  toEnd (text : String) (start : Float) :
    callMethod machine (.string text) "substring" [.number start] viewer =
      callMethod machine (.string text) "substring"
        [.number start, .number (Float.ofNat text.length)] viewer

theorem cuts_between (machine : Machine) (env : EnvId) (viewer : Option EntityRef) :
    CutsBetween machine env viewer where
  refused {text start stop} rest w out := by
    rw [← String.length_toList] at out
    rw [callMethod_substring, Text.between?_of_refuses out]
    exact ⟨_, rfl, rfl⟩
  cut {text start stop} rest w small allowed ordered := by
    obtain ⟨le, inside⟩ := Text.steps_of_not_refuses small allowed ordered
    rw [← String.length_toList] at allowed
    refine ⟨le, inside, ?_⟩
    rw [callMethod_substring, Text.between?_of_not_refuses allowed, if_neg]
    · rfl
    · rw [String.length_toList]
      simp only [Bool.or_eq_true, decide_eq_true_eq]
      omega
  backwards {text start stop} rest w allowed none behind := by
    rw [← String.length_toList] at allowed
    rw [callMethod_substring, Text.between?_of_not_refuses allowed, if_pos]
    · rfl
    · rw [Decimal.steps_of_isNaN none]
      simp [behind]
  place {x q} value small := by
    rw [Decimal.steps_of_value? value]
    have below : ⌊q⌋₊ < 2 ^ 53 := (Nat.floor_lt' (by norm_num)).mpr (by exact_mod_cast small)
    omega
  toEnd _ _ := callMethod_substring_end _

/-- The characters between one and a half and four are cut out of a word. -/
theorem cuts_between_of_hello : callMethod ⟨fun goal => goal.run 0⟩ (.string "hello") "substring"
    [.number 1.5, .number 4.0] none 0 .empty = .done (.string "ell") .empty := by
  have allowed : ¬ Text.Refuses "hello".length 1.5 4.0 := by
    simp only [Text.Refuses]
    decide +kernel
  have cut := ((cuts_between ⟨fun goal => goal.run 0⟩ 0 none).cut [] .empty (by decide) allowed
    (by decide +kernel)).2.2
  rw [cut]
  have places : steps 1.5 = 1 ∧ steps 4.0 = 4 := by decide +kernel
  rw [places.1, places.2]
  rfl

/-- From the third character to what is no number there is nothing to cut, and nothing is answered. -/
theorem substring_three_nan : ¬ Text.Refuses "hello".length 3.0 (0.0 / 0.0) ∧
    steps (0.0 / 0.0) < steps 3.0 ∧
    callMethod ⟨fun goal => goal.run 0⟩ (.string "hello") "substring"
      [.number 3.0, .number (0.0 / 0.0)] none 0 .empty = .stopped (.unfinished .crash) .empty := by
  have allowed : ¬ Text.Refuses "hello".toList.length 3.0 (0.0 / 0.0) := by
    simp only [Text.Refuses]
    decide +kernel
  have backwards : steps (0.0 / 0.0) < steps 3.0 := by decide +kernel
  refine ⟨allowed, backwards, ?_⟩
  rw [callMethod_substring, Text.between?_of_not_refuses allowed, if_pos]
  · rfl
  · rw [decide_eq_true backwards, Bool.true_or]

/-! ## Searching -/

/-- A method gives this answer whenever it is called, and changes nothing. -/
def Answers (machine : Machine) (env : EnvId) (viewer : Option EntityRef) (receiver : Value)
    (name : String) (args : List Value) (answer : Value) : Prop :=
  ∀ w, callMethod machine receiver name args viewer env w = .done answer w

section

variable (machine : Machine) (env : EnvId) (viewer : Option EntityRef) (s t : String)

theorem answers_len : Answers machine env viewer (.string s) "len" [] (.ofNat s.length) :=
  fun _ => rfl

theorem answers_contains : Answers machine env viewer (.string s) "contains" [.string t]
    (.bool (Text.indexOf? t.toList s.toList).isSome) := fun _ => rfl

theorem answers_indexOf : Answers machine env viewer (.string s) "index_of" [.string t]
    (.number ((Text.indexOf? t.toList s.toList).elim (-1.0) Float.ofNat)) := by
  intro w
  show stringMethod .indexOf (.string s) s "index_of" [.string t] env w = _
  have given : (Value.string s).textArgument "index_of" [.string t] 0 = .ok t := rfl
  simp only [stringMethod, given, ofExcept, pure_bind]
  cases Text.indexOf? t.toList s.toList <;> rfl

theorem answers_startsWith : Answers machine env viewer (.string s) "starts_with" [.string t]
    (.bool (t.toList.isPrefixOf s.toList)) := fun _ => rfl

theorem answers_endsWith : Answers machine env viewer (.string s) "ends_with" [.string t]
    (.bool (t.toList.isSuffixOf s.toList)) := fun _ => rfl

end

theorem answers_substring_end {s : String} {start : Float} {answer : Value} :
    Answers machine env viewer (.string s) "substring" [.number start] answer ↔
      Answers machine env viewer (.string s) "substring"
        [.number start, .number (Float.ofNat s.length)] answer := Iff.rfl

/-- A text is cut out between two places if it is what stands there. -/
theorem answers_substring_iff {s t : String} {i j : Nat} (small : s.length < 2 ^ 53) (hi : i < 2 ^ 53)
    (hj : j < 2 ^ 53) :
    Answers machine env viewer (.string s) "substring"
      [.number (Float.ofNat i), .number (Float.ofNat j)] (.string t) ↔
    (i ≤ j ∧ j ≤ s.length) ∧ Text.slice i j s.toList = t.toList := by
  rw [← String.length_toList] at small ⊢
  constructor
  · intro answers
    have answer := answers .empty
    rw [callMethod_substring, Text.between?_ofNat small hi hj] at answer
    split at answer
    · next inside =>
      cases answer
      exact ⟨inside, String.toList_ofList.symm⟩
    · cases answer
  · rintro ⟨inside, same⟩ w
    rw [callMethod_substring, Text.between?_ofNat small hi hj, if_pos inside, same, cutText,
      String.ofList_toList]
    rfl

/-- What the searches for one text in another come to, which is found at a place or not at all. -/
structure SearchesAgree (machine : Machine) (env : EnvId) (viewer : Option EntityRef) (s t : String)
    (found : Option Nat) : Prop where
  /-- Lengths are counts of characters. -/
  len (u : String) : Answers machine env viewer (.string u) "len" [] (.number (Float.ofNat u.length))
  contains : Answers machine env viewer (.string s) "contains" [.string t] (.bool found.isSome)
  indexOf : Answers machine env viewer (.string s) "index_of" [.string t]
    (.number (found.elim (-1.0) Float.ofNat))
  /-- The index is negative if nothing is contained, and only then. -/
  absent : found.elim (-1.0) Float.ofNat = -1.0 ↔ found.isSome = false
  /-- The text is found where it can be cut out first, -/
  first {k : Nat} : found = some k → IsLeast {k | Answers machine env viewer (.string s) "substring"
    [.number (Float.ofNat k), .number (Float.ofNat k + Float.ofNat t.length)] (.string t)} k
  /-- and if it is not found, it can be cut out nowhere. -/
  nowhere {k : Nat} : found = none → k + t.length ≤ s.length →
    ¬ Answers machine env viewer (.string s) "substring"
      [.number (Float.ofNat k), .number (Float.ofNat k + Float.ofNat t.length)] (.string t)
  startsWith : Answers machine env viewer (.string s) "starts_with" [.string t]
    (.bool (found = some 0))
  endsWith : ∃ ends, Answers machine env viewer (.string s) "ends_with" [.string t] (.bool ends) ∧
    (ends = true ↔ t.length ≤ s.length ∧ Answers machine env viewer (.string s) "substring"
      [.number (Float.ofNat s.length - Float.ofNat t.length)] (.string t))
  /-- A search of the bytes finds the same: as many characters stand before the first place in the
  bytes. -/
  firstInBytes {k : Nat} : found = some k →
    IsLeast (Text.places (Text.bytes t.toList) (Text.bytes s.toList))
      (Text.bytes (s.toList.take k)).length
  nowhereInBytes : found = none → Text.places (Text.bytes t.toList) (Text.bytes s.toList) = ∅

section

variable {s t : String} {k : Nat}

/-- What is found is inside the text. -/
theorem le_of_indexOf? (found : Text.indexOf? t.toList s.toList = some k) :
    k + t.length ≤ s.length := by
  have fits := Text.le_of_isLeast (Text.indexOf?_eq_some_iff.mp found)
  rwa [String.length_toList, String.length_toList] at fits

/-- What is cut out from a place, as long as another text, is that text if it stands there. -/
theorem answers_substring_iff_mem_places (small : s.length < 2 ^ 53)
    (fits : k + t.length ≤ s.length) : Answers machine env viewer (.string s) "substring"
      [.number (Float.ofNat k), .number (Float.ofNat k + Float.ofNat t.length)] (.string t) ↔
    k ∈ Text.places t.toList s.toList := by
  rw [Decimal.ofNat_add_ofNat (by omega), answers_substring_iff small (by omega) (by omega),
    ← Text.slice_eq_iff, String.length_toList]
  exact and_iff_right ⟨Nat.le_add_right .., fits⟩

theorem index_eq_neg_one_iff (small : s.length < 2 ^ 53) :
    (Text.indexOf? t.toList s.toList).elim (-1.0) Float.ofNat = -1.0 ↔
      (Text.indexOf? t.toList s.toList).isSome = false := by
  cases found : Text.indexOf? t.toList s.toList with
  | none => exact ⟨fun _ => rfl, fun _ => rfl⟩
  | some k =>
    have inside := le_of_indexOf? found
    refine ⟨fun same => absurd same (Decimal.ofNat_ne_neg_one (by omega)), fun none => ?_⟩
    cases none

end

/-- The methods that search for a text agree. Numbers count the characters exactly: a text of 2⁵³
characters is longer than any memory. -/
theorem searches_agree (machine : Machine) (env : EnvId) (viewer : Option EntityRef) {s : String}
    (t : String) (small : s.length < 2 ^ 53) :
    SearchesAgree machine env viewer s t (Text.indexOf? t.toList s.toList) where
  len u := answers_len machine env viewer u
  contains := answers_contains machine env viewer s t
  indexOf := answers_indexOf machine env viewer s t
  absent := index_eq_neg_one_iff small
  first {k} found := by
    have inside := le_of_indexOf? found
    have least := Text.indexOf?_eq_some_iff.mp found
    refine ⟨(answers_substring_iff_mem_places small inside).mpr least.1, fun j cut => ?_⟩
    by_contra before
    exact before (least.2 ((answers_substring_iff_mem_places small (by omega)).mp cut))
  nowhere {k} missed inside cut := by
    have stands := (answers_substring_iff_mem_places small inside).mp cut
    rw [Text.indexOf?_eq_none_iff.mp missed] at stands
    exact stands
  startsWith := by
    have starts : t.toList.isPrefixOf s.toList =
        decide (Text.indexOf? t.toList s.toList = some 0) := by
      rw [Bool.eq_iff_iff, decide_eq_true_iff, Text.indexOf?_eq_some_zero_iff,
        List.isPrefixOf_iff_prefix]
    exact starts ▸ answers_startsWith machine env viewer s t
  endsWith := by
    refine ⟨_, answers_endsWith machine env viewer s t, ?_⟩
    rw [List.isSuffixOf_iff_suffix, Text.suffix_iff, String.length_toList, String.length_toList]
    refine and_congr_right fun le => ?_
    rw [Decimal.ofNat_sub_ofNat le small, answers_substring_end,
      answers_substring_iff small (by omega) small]
    exact (and_iff_right ⟨Nat.sub_le .., le_rfl⟩).symm
  firstInBytes found := Text.isLeast_places_bytes (Text.indexOf?_eq_some_iff.mp found)
  nowhereInBytes missed :=
    Text.places_bytes_eq_empty_iff.mpr (Text.indexOf?_eq_none_iff.mp missed)

/-- The first of two overlapping occurrences is found behind characters of two and three bytes. -/
theorem searches_agree_of_overlapping :
    Answers ⟨fun goal => goal.run 0⟩ 0 none (.string "ä€aaa") "index_of" [.string "aa"]
      (.number (Float.ofNat 2)) ∧
    IsLeast (Text.places (Text.bytes "aa".toList) (Text.bytes "ä€aaa".toList)) 5 := by
  have law := searches_agree ⟨fun goal => goal.run 0⟩ 0 none "aa" (s := "ä€aaa") (by decide)
  have found : Text.indexOf? "aa".toList "ä€aaa".toList = some 2 := by decide
  refine ⟨?_, ?_⟩
  · have index := law.indexOf
    rwa [found] at index
  · have least := law.firstInBytes found
    have five : (Text.bytes ("ä€aaa".toList.take 2)).length = 5 := by decide
    rwa [five] at least

/-! ## Splitting, joining and replacing -/

/-- The pieces of a text as values. -/
def pieceValues (s a : String) : List Value :=
  (Text.pieces a.toList s.toList).map fun piece => .string (String.ofList piece)

theorem callMethod_split (s a : String) (w : World) :
    callMethod machine (.string s) "split" [.string a] viewer env w =
      .done (.array w.store.arrays.size) (w.withNewArray (pieceValues s a)) := rfl

theorem callMethod_join (id : ArrayId) (b : String) (w : World) :
    callMethod machine (.array id) "join" [.string b] viewer env w =
      .done (.string (b.intercalate ((w.store.array id).toList.map w.store.display))) w := rfl

theorem answers_replace (s a b : String) :
    Answers machine env viewer (.string s) "replace" [.string a, .string b]
      (.string (String.ofList (Text.replace a.toList b.toList s.toList))) := fun _ => rfl

/-- What a text comes to whose pieces are joined with something else. -/
theorem join_pieces (s a b : String) (w : World) :
    callMethod machine (.array w.store.arrays.size) "join" [.string b] viewer env
        (w.withNewArray (pieceValues s a)) =
      .done (.string (String.ofList (b.toList.intercalate (Text.pieces a.toList s.toList))))
        (w.withNewArray (pieceValues s a)) := by
  have shown : (pieceValues s a).map (w.withNewArray (pieceValues s a)).store.display =
      (Text.pieces a.toList s.toList).map String.ofList := by
    rw [pieceValues, List.map_map]
    rfl
  have back (parts : List (List Char)) : (parts.map String.ofList).map String.toList = parts := by
    rw [List.map_map]
    exact (List.map_congr_left fun part _ => String.toList_ofList).trans (List.map_id' parts)
  rw [callMethod_join, World.array_withNewArray, shown]
  congr 2
  rw [← String.toList_inj, String.toList_intercalate, String.toList_ofList, back]

/-- What the methods do that take a text apart and put it together again. -/
structure PiecesFit (machine : Machine) (env : EnvId) (viewer : Option EntityRef) (s a b : String)
    (w : World) (id : ArrayId) (w' : World) : Prop where
  split : callMethod machine (.string s) "split" [.string a] viewer env w = .done (.array id) w'
  /-- The pieces are put into a new array, and nothing else is changed. -/
  fresh : id = w.store.arrays.size ∧ w' = w.withNewArray (w'.store.array id).toList
  joined : callMethod machine (.array id) "join" [.string a] viewer env w' = .done (.string s) w'
  replaced : ∃ r,
    Answers machine env viewer (.string s) "replace" [.string a, .string b] (.string r) ∧
    callMethod machine (.array id) "join" [.string b] viewer env w' = .done (.string r) w'
  /-- A separator that is not empty is in none of the pieces. -/
  clear : a ≠ "" → ∀ item ∈ w'.store.array id, ∃ piece, item = .string piece ∧
    Answers machine env viewer (.string piece) "contains" [.string a] (.bool false)

theorem pieces_fit (machine : Machine) (env : EnvId) (viewer : Option EntityRef) (s a b : String)
    (w : World) : PiecesFit machine env viewer s a b w w.store.arrays.size
      (w.withNewArray (pieceValues s a)) where
  split := callMethod_split s a w
  fresh := ⟨rfl, by rw [World.array_withNewArray]⟩
  joined := by
    rw [join_pieces, Text.intercalate_pieces, String.ofList_toList]
  replaced := by
    refine ⟨_, answers_replace s a b, ?_⟩
    rw [join_pieces, Text.replace_eq_intercalate]
  clear some item among := by
    rw [World.array_withNewArray, List.mem_toArray] at among
    obtain ⟨piece, inside, rfl⟩ := List.mem_map.mp among
    have some : a.toList ≠ [] := fun none => some (String.toList_eq_nil_iff.mp none)
    refine ⟨_, rfl, ?_⟩
    have absent : Text.indexOf? a.toList (String.ofList piece).toList = none := by
      rw [Text.indexOf?_eq_none_iff, String.toList_ofList, Set.eq_empty_iff_forall_notMem]
      exact fun k stands =>
        Text.not_infix_of_mem_pieces some inside (Text.mem_places_iff_infix.mp ⟨k, stands⟩)
    have answer := answers_contains machine env viewer (String.ofList piece) a
    rwa [absent] at answer

/-- Of two occurrences of "aa" that overlap in three letters the first one separates the pieces. -/
theorem pieces_fit_of_overlapping : ∃ id w',
    callMethod ⟨fun goal => goal.run 0⟩ (.string "aaa") "split" [.string "aa"] none 0 .empty =
      .done (.array id) w' ∧
    callMethod ⟨fun goal => goal.run 0⟩ (.array id) "join" [.string "aa"] none 0 w' =
      .done (.string "aaa") w' ∧
    ∀ item ∈ w'.store.array id, ∃ piece, item = .string piece ∧
      Answers ⟨fun goal => goal.run 0⟩ 0 none (.string piece) "contains" [.string "aa"]
        (.bool false) := by
  have law := pieces_fit ⟨fun goal => goal.run 0⟩ 0 none "aaa" "aa" "b" .empty
  exact ⟨_, _, law.split, law.joined, law.clear (by decide)⟩

end Eval

end ScriptEngine
