/-!
# Blanks, words and trimming

Blanks are the characters of Unicode's white space together with the four information separators
`U+001C` to `U+001F`. Text is trimmed and cut into words at them, and a text is *settled* by writing
its words with single spaces between them.
-/

namespace Seamark.Text

/-- The blank characters, as pairs of a first and a last code point. -/
def blankRanges : List (Nat × Nat) :=
  [(0x09, 0x0d), (0x1c, 0x20), (0x85, 0x85), (0xa0, 0xa0), (0x1680, 0x1680), (0x2000, 0x200a),
   (0x2028, 0x2029), (0x202f, 0x202f), (0x205f, 0x205f), (0x3000, 0x3000)]

/-- A character that separates words. -/
def isBlank (c : Char) : Bool :=
  blankRanges.any fun r => r.1 ≤ c.toNat && c.toNat ≤ r.2

/-- The text without the blanks it starts with. -/
def trimLeft (cs : List Char) : List Char :=
  cs.dropWhile isBlank

/-- The text without the blanks at its two ends. -/
def trim (cs : List Char) : List Char :=
  ((trimLeft cs).reverse.dropWhile isBlank).reverse

/-- Puts a character in front of the word that is being read. -/
def wordsStep (c : Char) (word : List Char) (rest : List (List Char)) : List Char × List (List Char) :=
  if isBlank c then ([], if word.isEmpty then rest else word :: rest) else (c :: word, rest)

/-- The word at the very start of the text (empty if a blank stands there), and the words after it. -/
def headWords : List Char → List Char × List (List Char)
  | [] => ([], [])
  | c :: cs => wordsStep c (headWords cs).1 (headWords cs).2

/-- The maximal runs of characters that are not blank, in order. -/
def words (cs : List Char) : List (List Char) :=
  let (word, rest) := headWords cs
  if word.isEmpty then rest else word :: rest

/-- Writes words one after the other with a single space between two of them. -/
def unwords : List (List Char) → List Char
  | [] => []
  | [w] => w
  | w :: ws => w ++ ' ' :: unwords ws

/-- The text with every run of blanks made one space and none at the ends. -/
def settle (cs : List Char) : List Char :=
  unwords (words cs)

/-- Cuts a text at every occurrence of a character; an empty text is one empty piece. -/
def splitAt (sep : Char) : List Char → List (List Char)
  | [] => [[]]
  | c :: cs =>
    if c = sep then [] :: splitAt sep cs
    else match splitAt sep cs with
      | [] => [[c]]
      | piece :: pieces => (c :: piece) :: pieces

end Seamark.Text
