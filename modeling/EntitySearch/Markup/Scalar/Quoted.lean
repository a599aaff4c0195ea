/-
Texts in quotes.

Between single quotes a quote is written twice and all else stands for itself; between double quotes a backslash begins
an escape. Gaps are folded, and a backslash at the end of a line takes the line end away. A mark of a document inside
quotes is refused.
-/
import EntitySearch.Json.Reader
import EntitySearch.Markup.Cursor

namespace EntitySearch.Markup

/-- a single-quoted text behind its opening quote -/
def singleQuoted (here : Cursor) : Option Passage :=
  if here.atDocumentMark then none
  else
    match _h : here.rest with
    | [] => none
    | '\'' :: '\'' :: _ => (singleQuoted (here.skip 2)).map (.before ['\''])
    | '\'' :: _ => some ⟨[], here.skip 1⟩
    | c :: _ =>
      if isGap c then (singleQuoted here.behindGap).map (.before (fold here.gap))
      else (singleQuoted (here.skip 1)).map (.before [c])
termination_by here.rest.length
decreasing_by
  · simp only [Cursor.length_skip, _h, List.length_cons]
    omega
  · exact here.length_behindGap_lt _h ‹_›
  · simp [Cursor.length_skip, _h]

/-- the character for a one-letter escape of a double-quoted text -/
def unescape : Char → Option Char
  | '0' => some (Char.ofNat 0)
  | 'a' => some (Char.ofNat 7)
  | 'b' => some (Char.ofNat 8)
  | 't' | '\t' => some '\t'
  | 'n' => some '\n'
  | 'v' => some (Char.ofNat 11)
  | 'f' => some (Char.ofNat 12)
  | 'r' => some '\r'
  | 'e' => some (Char.ofNat 27)
  | ' ' => some ' '
  | '"' => some '"'
  | '/' => some '/'
  | '\\' => some '\\'
  | 'N' => some (Char.ofNat 0x85)
  | '_' => some (Char.ofNat 0xA0)
  | 'L' => some (Char.ofNat 0x2028)
  | 'P' => some (Char.ofNat 0x2029)
  | _ => none

/-- the number of hexadecimal digits behind the letter of a numeric escape -/
def codeWidth : Char → Option Nat
  | 'x' => some 2
  | 'u' => some 4
  | 'U' => some 8
  | _ => none

/-- the character with a code point -/
def charOf (n : Nat) : Option Char := if n.isValidChar then some (Char.ofNat n) else none

/-- the character for the escape whose letter is given, and the number of digits behind the letter -/
def escaped (letter : Char) (rest : List Char) : Option (Char × Nat) :=
  match codeWidth letter with
  | none => (unescape letter).map fun c => (c, 0)
  | some width =>
    let digits := rest.take width
    if digits.length < width then none else ((Json.hex? digits).bind charOf).map fun c => (c, width)

/-- a double-quoted text behind its opening quote -/
def doubleQuoted (here : Cursor) : Option Passage :=
  if here.atDocumentMark then none
  else
    match _h : here.rest with
    | [] => none
    | '"' :: _ => some ⟨[], here.skip 1⟩
    | ['\\'] => none
    | '\\' :: c :: rest =>
      if isBreak c then
        let lineEnd := here.skip 1
        (doubleQuoted lineEnd.behindGap).map (.before ((lineEnds lineEnd.gap).drop 1))
      else
        (escaped c rest).bind fun (e, digits) => (doubleQuoted (here.skip (digits + 2))).map (.before [e])
    | c :: _ =>
      if isGap c then (doubleQuoted here.behindGap).map (.before (fold here.gap))
      else (doubleQuoted (here.skip 1)).map (.before [c])
termination_by here.rest.length
decreasing_by
  · have := (here.skip 1).length_behindGap_le
    have := here.length_skip 1
    simp_all only [List.length_cons]
    omega
  · simp only [Cursor.length_skip, _h, List.length_cons]
    omega
  · exact here.length_behindGap_lt _h ‹_›
  · simp [Cursor.length_skip, _h]

end EntitySearch.Markup
