/-!
# Data as bytes

A codec writes data of a type as bytes and reads it from the front of a list of bytes. Numbers are
written with a fixed number of bytes, the lowest first; a list, like a text, begins with its length.
-/

namespace ScriptEngine

/-- Reads from the front of a list of bytes, or fails. -/
abbrev ByteReader := StateT (List UInt8) Option

/-- How data of a type is written as bytes and read again. -/
structure Codec (α : Type) where
  write : α → List UInt8
  read : ByteReader α

namespace Codec

/-- The next byte. -/
def nextByte : ByteReader UInt8
  | [] => none
  | byte :: rest => some (byte, rest)

/-- A number in so many bytes. -/
def writeWord : Nat → Nat → List UInt8
  | 0, _ => []
  | size + 1, n => UInt8.ofNat (n % 256) :: writeWord size (n / 256)

/-- The number in the next so many bytes. -/
def readWord : Nat → ByteReader Nat
  | 0 => return 0
  | size + 1 => do
    let low ← nextByte
    let high ← readWord size
    return low.toNat + 256 * high

/-- Numbers in so many bytes. -/
def word (size : Nat) : Codec Nat := ⟨writeWord size, readWord size⟩

/-- Counts and lengths. -/
def count : Codec Nat := word 8

/-- Yes as one, no as zero. -/
def bool : Codec Bool where
  write b := [if b then 1 else 0]
  read := do
    match ← nextByte with
    | 0 => return false
    | 1 => return true
    | _ => failure

/-- The bits of a number. -/
def float : Codec Float where
  write x := writeWord 8 x.toBits.toNat
  read := do return Float.ofBits (← readWord 8).toUInt64

/-- So many items one after another. -/
def readItems {α : Type} (read : ByteReader α) : Nat → ByteReader (List α)
  | 0 => return []
  | n + 1 => do
    let first ← read
    return first :: (← readItems read n)

/-- A list of items. -/
def list {α : Type} (c : Codec α) : Codec (List α) where
  write items := count.write items.length ++ items.flatMap c.write
  read := do readItems c.read (← count.read)

/-- The text of so many bytes. -/
def textOf? (bytes : List UInt8) : Option String :=
  String.fromUTF8? ⟨bytes.toArray⟩

/-- Texts in UTF-8. -/
def text : Codec String where
  write s := (list (⟨fun byte => [byte], nextByte⟩ : Codec UInt8)).write s.toUTF8.data.toList
  read := do
    let bytes ← (list (⟨fun byte => [byte], nextByte⟩ : Codec UInt8)).read
    match textOf? bytes with
    | some s => return s
    | none => failure

/-- Something that may be missing. -/
def option {α : Type} (c : Codec α) : Codec (Option α) where
  write
    | none => bool.write false
    | some value => bool.write true ++ c.write value
  read := do
    if ← bool.read then return some (← c.read) else return none

/-- Two things one after the other. -/
def pair {α β : Type} (c : Codec α) (d : Codec β) : Codec (α × β) where
  write p := c.write p.1 ++ d.write p.2
  read := do return (← c.read, ← d.read)

/-- The number of a kind. -/
def tag : Codec Nat := word 4

/-- One of some values, by its place among them. -/
def choice {α : Type} [BEq α] (all : List α) : Codec α where
  write value := tag.write (all.idxOf value)
  read := do
    match all[← tag.read]? with
    | some value => return value
    | none => failure

end Codec

end ScriptEngine
