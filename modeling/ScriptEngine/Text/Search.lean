/-!
# Searching in texts

Occurrences of one text in another. All positions count characters.
-/

namespace ScriptEngine.Text

/-- The position of the first occurrence of `needle`. -/
def indexOf? (needle : List Char) : List Char → Option Nat
  | [] => if needle.isEmpty then some 0 else none
  | c :: rest =>
    if needle.isPrefixOf (c :: rest) then some 0 else (indexOf? needle rest).map (· + 1)

/-- The pieces of a text between the occurrences of a separator that is not empty: `skip` counts
the characters of an occurrence still to be passed, and `piece` holds the current piece in reverse.
-/
def piecesFrom (separator : List Char) : Nat → List Char → List Char → List (List Char)
  | _, piece, [] => [piece.reverse]
  | skip + 1, piece, _ :: rest => piecesFrom separator skip piece rest
  | 0, piece, c :: rest =>
    if separator.isPrefixOf (c :: rest) then
      piece.reverse :: piecesFrom separator (separator.length - 1) [] rest
    else piecesFrom separator 0 (c :: piece) rest

/-- The pieces of a text between the occurrences of a separator, found from the left. The empty
separator stands before and behind every character. -/
def pieces (separator text : List Char) : List (List Char) :=
  if separator.isEmpty then [] :: (text.map fun c => [c]) ++ [[]]
  else piecesFrom separator 0 [] text

/-- The text with every occurrence of `old`, which is not empty, replaced: `skip` counts the characters
of an occurrence still to be passed, and `done` holds what has been written in reverse. -/
def replaceFrom (old new : List Char) : Nat → List Char → List Char → List Char
  | _, done, [] => done.reverse
  | skip + 1, done, _ :: rest => replaceFrom old new skip done rest
  | 0, done, c :: rest =>
    if old.isPrefixOf (c :: rest) then
      replaceFrom old new (old.length - 1) (new.reverse ++ done) rest
    else replaceFrom old new 0 (c :: done) rest

/-- The text with every occurrence of `old` replaced, found from the left. The empty text stands before
and behind every character. -/
def replace (old new text : List Char) : List Char :=
  if old.isEmpty then new ++ text.flatMap (· :: new) else replaceFrom old new 0 [] text

/-- The characters from one position up to another. -/
def slice (start stop : Nat) (text : List Char) : List Char :=
  (text.take stop).drop start

end ScriptEngine.Text
