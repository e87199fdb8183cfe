import ScriptEngine.Store.Basic
import ScriptEngine.Tree.Outline

/-!
# Equality of values, and patterns

Arrays, tuples and maps are equal by what they hold, everything else that has an identity by that. A pattern
fits a value or not; if it does, each of its names gets a part of the value.
-/

namespace ScriptEngine.Store

/-! ## Equality -/

mutual

/-- Whether two values are equal. The fuel bounds how many cells are entered on the way to any part
of them. -/
def sameFrom (s : Store) (fuel : Nat) (a b : Value) : Bool :=
  match a, b with
  | .null, .null | .unit, .unit => true
  | .bool a, .bool b => a == b
  | .number a, .number b => a == b
  | .string a, .string b => a == b
  | .array a, .array b =>
    a == b || match fuel with
      | 0 => false
      | fuel + 1 => s.sameItems fuel (s.array a).toList (s.array b).toList
  | .tuple a, .tuple b => s.sameItems fuel a b
  | .map a, .map b =>
    a == b || match fuel with
      | 0 => false
      | fuel + 1 =>
        (s.map a).size == (s.map b).size && s.sameEntries fuel (s.map a).entries (s.map b)
  | .entity a, .entity b => a == b
  | .function a, .function b => a == b
  | .external a, .external b => a == b
  | .hostClass a, .hostClass b => a == b
  | .promise a, .promise b => a == b
  | .safe a, .safe b => a == b
  | .space a, .space b => a == b
  | _, _ => false
termination_by (fuel, sizeOf a)

/-- Whether two lists have equal items in order. -/
def sameItems (s : Store) (fuel : Nat) (as bs : List Value) : Bool :=
  match as, bs with
  | [], [] => true
  | a :: as, b :: bs => s.sameFrom fuel a b && s.sameItems fuel as bs
  | _, _ => false
termination_by (fuel, sizeOf as)

/-- Whether a map has an equal value for every entry of a list. -/
def sameEntries (s : Store) (fuel : Nat) (entries : List (String × Value))
    (other : OrderedMap Value) : Bool :=
  match entries with
  | [] => true
  | (key, value) :: entries =>
    (match other.get? key with
      | some found => s.sameFrom fuel value found
      | none => false) && s.sameEntries fuel entries other
termination_by (fuel, sizeOf entries)

end

/-- Whether two values are equal. Between values without cycles every cell is entered at most once
on a way down, and at its end may stand one that is not there: that is fuel enough. -/
def equals (s : Store) (a b : Value) : Bool :=
  s.sameFrom (s.arrays.size + s.maps.size + 1) a b

/-! ## Patterns -/

mutual

/-- The names that a pattern binds in a value and their values, in the order they are written;
nothing if the pattern does not fit. -/
def bindPattern (s : Store) : Pattern → Value → Option (List (String × Value))
  | .wildcard, _ | .rest, _ => some []
  | .bind name, value => some [(name, value)]
  | .literal literal, value => if s.equals (.ofLiteral literal) value then some [] else none
  | .tuple items, value =>
    match s.positional? value with
    | some elements => s.bindSequence items elements
    | none => none
  | .array items, value =>
    match value with
    | .array _ | .tuple _ =>
      match s.positional? value with
      | some elements => s.bindSequence items elements
      | none => none
    | _ => none

/-- Matches a list of patterns with a list of values. The first mark for the rest takes what the
patterns behind it leave over. -/
def bindSequence (s : Store) : List Pattern → List Value → Option (List (String × Value))
  | [], [] => some []
  | [], _ :: _ => none
  | .rest :: items, elements =>
    if items.length ≤ elements.length then
      s.bindEach items (elements.drop (elements.length - items.length))
    else none
  | _ :: _, [] => none
  | item :: items, element :: elements => do
    let first ← s.bindPattern item element
    let others ← s.bindSequence items elements
    return first ++ others

/-- Matches patterns with as many values, one by one. -/
def bindEach (s : Store) : List Pattern → List Value → Option (List (String × Value))
  | item :: items, element :: elements => do
    let first ← s.bindPattern item element
    let others ← s.bindEach items elements
    return first ++ others
  | _, _ => some []

end

/-- Why a value does not fit a pattern. -/
def mismatch (text : String) (pattern : Pattern) : Panic :=
  ⟨.patternMismatch, text ++ " does not fit " ++ pattern.text⟩

end ScriptEngine.Store
