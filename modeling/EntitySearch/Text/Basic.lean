/-
Small operations on text that several parts of the library share: trimming, dotted names, comparison without regard to
the case of the first 128 letters, and the length of a text in bytes.
-/
import EntitySearch.Text.Alphabet

namespace EntitySearch.Text

/-- the text without the blanks at its front -/
def trimFront (s : List Char) : List Char := s.dropWhile isBlank

/-- the text without the blanks at its end -/
def trimBack (s : List Char) : List Char := (s.reverse.dropWhile isBlank).reverse

/-- the text without the blanks at either end -/
def trim (s : String) : String := String.ofList (trimBack (trimFront s.toList))

/-- names joined by full stops -/
def dotted (names : List String) : String := ".".intercalate names

/-- the lower-case form of the letters A to Z, other characters unchanged -/
def lower (s : List Char) : List Char := s.map Char.toLower

/-- equality up to the case of the letters A to Z -/
def sameWord (a b : List Char) : Bool := lower a == lower b

/-- what stands after `word` at the front of the text, the case of the letters A to Z left aside -/
def dropWord : (word text : List Char) → Option (List Char)
  | [], text => some text
  | _ :: _, [] => none
  | w :: word, c :: text => if w.toLower == c.toLower then dropWord word text else none

/-- the number of bytes in which a text is stored -/
def byteLength (s : List Char) : Nat := s.foldr (fun c n => c.utf8Size + n) 0

/-- the text before and after the first `c` -/
def splitFirst (c : Char) : List Char → Option (List Char × List Char)
  | [] => none
  | d :: rest => if d == c then some ([], rest) else (splitFirst c rest).map fun (a, b) => (d :: a, b)

/-- a text between single quotes -/
def quoted (s : String) : String := "'" ++ s ++ "'"

end EntitySearch.Text
