import Seamark.Document.Reader
import Seamark.Text.Blank
import Seamark.Text.Quoted

/-!
# Files

A file is named by a path: parts between slashes, from the root if the path starts with a slash. Two
paths that differ only in repeated slashes and in parts of one dot name the same file, so a path is
kept in its normal form. Two slashes at the start, no more and no less, are a root of their own.
-/

namespace Seamark

/-- Why a file has no document. -/
inductive FileError where
  /-- There is no such file. -/
  | missing
  /-- The path names a directory. -/
  | isDirectory
  /-- A part of the path before the last one is no directory. -/
  | notDirectory
  /-- The path holds a null character, which no name does. -/
  | nullCharacter
  /-- The path holds halves of characters, from one place to another, that no name holds. -/
  | halfCharacters (first : Text.Letter) (start last : Nat)
  /-- The text of the file is no document. -/
  | unreadable (cause : Document.ReadError)
deriving DecidableEq, Repr

/-- A way of finding the document of the file of a path. -/
abbrev Fetch (m : Type → Type) := String → m (Except FileError Value)

namespace Path

/-- The slashes at the start of a normal path. -/
def root (path : List Char) : List Char :=
  match path.takeWhile (· = '/') with
  | [] => []
  | ['/', '/'] => ['/', '/']
  | _ => ['/']

/-- The parts of a path, without those that do not lead anywhere. -/
def parts (path : List Char) : List (List Char) :=
  (Text.splitAt '/' path).filter fun part => part ≠ [] && part ≠ ['.']

/-- The normal form of a path. -/
def normal (path : String) : String :=
  match root path.toList ++ ['/'].intercalate (parts path.toList) with
  | [] => "."
  | cs => String.ofList cs

/-- A half of a character that stands for a single byte of a name. -/
def isByteHalf (l : Text.Letter) : Bool := 0xdc80 ≤ l.code && l.code ≤ 0xdcff

/-- The first halves of characters from a place on that no name holds: from the first one that does
not stand for a byte to the end of the halves around it. -/
def wrongHalves? (start : Nat) : List Text.Letter → Option FileError
  | [] => none
  | l :: ls =>
    if l.isHalf && !isByteHalf l then
      some (.halfCharacters l start (start + (ls.takeWhile Text.Letter.isHalf).length))
    else wrongHalves? (start + 1) ls

/-- What keeps a path from being the name of a file. -/
def fault? (path : String) : Option FileError :=
  match wrongHalves? 0 (Text.letters path) with
  | some cause => some cause
  | none => if path.toList.contains '\x00' then some .nullCharacter else none

end Path

/-- The text of the trouble with the file of a path. -/
def FileError.message (path : String) : FileError → String
  | missing => "[Errno 2] No such file or directory: " ++ Text.quoted path
  | isDirectory => "[Errno 21] Is a directory: " ++ Text.quoted path
  | notDirectory => "[Errno 20] Not a directory: " ++ Text.quoted path
  | nullCharacter => "embedded null byte"
  | halfCharacters first start last =>
    "'utf-8' codec can't encode character"
      ++ (if start = last then " " ++ Text.quoted (Text.ofLetters [first]) ++ " in position " ++ toString start
        else "s in position " ++ toString start ++ "-" ++ toString last)
      ++ ": surrogates not allowed"
  | unreadable cause => cause.message

end Seamark
