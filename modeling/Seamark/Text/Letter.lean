/-!
# Letters

A text from elsewhere may hold, besides characters, the halves by which sixteen-bit text writes a
character beyond the first plane. A text is kept as a string: a half as a character for private use
that is set aside for it, and a character that is itself set aside behind a mark. Main statement: the
letters of a kept text are the letters that were kept.
-/

namespace Seamark.Text

/-- What a text is made of. -/
inductive Letter where
  /-- A character. -/
  | char (c : Char)
  /-- A half of a character, by its place among the halves. -/
  | half (place : Fin 2048)
deriving DecidableEq, Repr

namespace Letter

/-- The code of the first half. -/
def firstHalf : Nat := 0xd800

/-- The code of a letter. -/
def code : Letter → Nat
  | char c => c.toNat
  | half place => firstHalf + place

/-- The letter with a code. -/
def ofCode (n : Nat) : Letter :=
  if n.isValidChar then char (Char.ofNat n) else half (Fin.ofNat 2048 (n - firstHalf))

/-- The letter is a half. -/
def isHalf : Letter → Bool
  | char _ => false
  | half _ => true

/-- The mark before a character that is set aside. -/
def mark : Char := Char.ofNat 0x10d7ff

/-- The code of the first character that is set aside for a half. -/
def firstAside : Nat := 0x10d800

/-- A character that is set aside: the mark, or one for a half. -/
def isAside (c : Char) : Bool :=
  c = mark || (firstAside ≤ c.toNat && c.toNat < firstAside + 2048)

/-- The characters that a letter is kept as. -/
def kept : Letter → List Char
  | char c => if isAside c then [mark, c] else [c]
  | half place => [Char.ofNat (firstAside + place)]

/-- The letter that a character without a mark before it is kept for. -/
def ofKept (c : Char) : Letter :=
  if isAside c then half (Fin.ofNat 2048 (c.toNat - firstAside)) else char c

/-- The letters that characters are kept for. -/
def ofKeptList : List Char → List Letter
  | [] => []
  | [c] => [ofKept c]
  | c :: d :: cs => if c = mark then char d :: ofKeptList cs else ofKept c :: ofKeptList (d :: cs)

theorem ofKeptList_mark (d : Char) (cs : List Char) :
    ofKeptList (mark :: d :: cs) = char d :: ofKeptList cs := by
  simp [ofKeptList]

theorem ofKeptList_cons {c : Char} (h : c ≠ mark) (cs : List Char) :
    ofKeptList (c :: cs) = ofKept c :: ofKeptList cs := by
  cases cs with
  | nil => simp [ofKeptList]
  | cons d ds => simp [ofKeptList, h]

theorem toNat_aside (place : Fin 2048) :
    (Char.ofNat (firstAside + place)).toNat = firstAside + place := by
  have lt := place.isLt
  have h : (firstAside + place).isValidChar := by
    right
    simp only [firstAside]
    omega
  rw [Char.ofNat, dif_pos h]
  rfl

theorem ofKept_aside (place : Fin 2048) :
    ofKept (Char.ofNat (firstAside + place)) = half place := by
  have h : isAside (Char.ofNat (firstAside + place)) = true := by
    simp [isAside, toNat_aside]
  simp [ofKept, h, toNat_aside]

theorem aside_ne_mark (place : Fin 2048) : Char.ofNat (firstAside + place) ≠ mark := by
  intro h
  have := congrArg Char.toNat h
  rw [toNat_aside, show mark.toNat = 0x10d7ff from rfl, firstAside] at this
  omega

/-- A letter that is kept before others is the first one of them. -/
theorem ofKeptList_kept (l : Letter) (cs : List Char) :
    ofKeptList (l.kept ++ cs) = l :: ofKeptList cs := by
  match l with
  | char c =>
    by_cases h : isAside c = true
    · simp [kept, h, ofKeptList_mark]
    · have hc : c ≠ mark := fun e => h (by simp [isAside, e])
      simp [kept, h, ofKeptList_cons hc, ofKept]
  | half place => simp [kept, ofKeptList_cons (aside_ne_mark place), ofKept_aside]

end Letter

/-- The text of letters. -/
def ofLetters (ls : List Letter) : String := String.ofList (ls.flatMap Letter.kept)

/-- The letters of a text. -/
def letters (s : String) : List Letter := Letter.ofKeptList s.toList

/-- The text of characters. -/
def ofChars (cs : List Char) : String := ofLetters (cs.map Letter.char)

/-- The characters of a text, if no letter of it is a half. -/
def chars? (s : String) : Option (List Char) :=
  (letters s).mapM fun
    | .char c => some c
    | .half _ => none

/-- The number of letters of a text. -/
def width (s : String) : Nat := (letters s).length

/-- The letters of a kept text are the ones that were kept. -/
theorem letters_ofLetters (ls : List Letter) : letters (ofLetters ls) = ls := by
  simp only [letters, ofLetters, String.toList_ofList]
  induction ls with
  | nil => rfl
  | cons l ls ih => rw [List.flatMap_cons, Letter.ofKeptList_kept, ih]

end Seamark.Text
