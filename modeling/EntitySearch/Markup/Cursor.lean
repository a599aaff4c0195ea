/-
Places in a text of markup, and the characters that stand there.

A line ends with a line feed, a carriage return, both in this order, the next-line character, or a separator of lines
or of paragraphs. A gap is a run of blanks and line ends. Where a gap stands inside a text, `fold` says what it leaves
there: line ends count only if a blank line lies between them, and blanks around a line end never do.
-/

namespace EntitySearch.Markup

/-- a character that markup may hold -/
def isAllowed (c : Char) : Bool :=
  c == '\t' || c == '\n' || c == '\r' || (' ' ≤ c && c ≤ '~') || c.toNat == 0x85
    || (0xA0 ≤ c.toNat && c.toNat != 0xFFFE && c.toNat != 0xFFFF)

/-- the mark of the byte order, which says nothing at the front of a line -/
def isOrderMark (c : Char) : Bool := c.toNat == 0xFEFF

/-- the separator of lines or of paragraphs, which keeps its form inside a text -/
def isSeparator (c : Char) : Bool := c.toNat == 0x2028 || c.toNat == 0x2029

/-- the end of a line -/
def isBreak (c : Char) : Bool := c == '\n' || c == '\r' || c.toNat == 0x85 || isSeparator c

/-- a blank inside a line -/
def isBlank (c : Char) : Bool := c == ' ' || c == '\t'

/-- a blank or a line end -/
def isGap (c : Char) : Bool := isBlank c || isBreak c

/-- the text goes on with a blank or a line end, or is over -/
def atGap (s : List Char) : Bool := s.head?.all isGap

/-- a bracket, a brace or a comma -/
def isFlowSign (c : Char) : Bool := c == ',' || c == '[' || c == ']' || c == '\x7b' || c == '\x7d'

/-- a character of the name of an anchor or of a handle -/
def isNameChar (c : Char) : Bool := c.isAlphanum || c == '_' || c == '-'

/-- the line ends of a gap, all but the separators in one form -/
def lineEnds : List Char → List Char
  | [] => []
  | '\r' :: '\n' :: rest => '\n' :: lineEnds rest
  | c :: rest =>
    if isSeparator c then c :: lineEnds rest
    else if isBreak c then '\n' :: lineEnds rest
    else lineEnds rest

/-- what a gap leaves in a text: blanks stay, one line end is a blank, of several the first is dropped -/
def fold (gap : List Char) : List Char :=
  match lineEnds gap with
  | [] => gap
  | ['\n'] => [' ']
  | '\n' :: more => more
  | ends => ends

/-- a place in a text, counted from zero, and what follows it -/
structure Cursor where
  index : Nat
  line : Nat
  column : Nat
  rest : List Char

namespace Cursor

/-- the front of a text -/
def start (s : List Char) : Cursor := ⟨0, 0, 0, s⟩

/-- the place some characters further on the same line -/
def skip (here : Cursor) (n : Nat) : Cursor := ⟨here.index + n, here.line, here.column + n, here.rest.drop n⟩

/-- the place behind the line end that stands here -/
def nextLine (here : Cursor) : Cursor :=
  match here.rest with
  | '\r' :: '\n' :: rest => ⟨here.index + 2, here.line + 1, 0, rest⟩
  | _ :: rest => ⟨here.index + 1, here.line + 1, 0, rest⟩
  | [] => here

/-- the place where the gap in front of a text ends, which begins at the place given by the numbers -/
def gapEnd (index line column : Nat) : List Char → Cursor
  | [] => ⟨index, line, column, []⟩
  | '\r' :: '\n' :: rest => gapEnd (index + 2) (line + 1) 0 rest
  | c :: rest =>
    if isBreak c then gapEnd (index + 1) (line + 1) 0 rest
    else if isBlank c then gapEnd (index + 1) line (column + 1) rest
    else ⟨index, line, column, c :: rest⟩

/-- the gap that stands here, perhaps none -/
def gap (here : Cursor) : List Char := here.rest.takeWhile isGap

/-- the place behind the gap that stands here -/
def behindGap (here : Cursor) : Cursor := gapEnd here.index here.line here.column here.rest

/-- the number of characters up to the end of the line -/
def leftOnLine (here : Cursor) : Nat := (here.rest.takeWhile fun c => !isBreak c).length

/-- the line end that stands here, if one does -/
def lineEnd (here : Cursor) : List Char := lineEnds (here.rest.take 1)

/-- the place behind the blanks that stand here -/
def behindBlanks (here : Cursor) : Cursor := here.skip (here.rest.takeWhile isBlank).length

/-- behind blanks and a comment, if the line is over then: the front of the next line -/
def lineOver (here : Cursor) : Option Cursor :=
  let here := here.behindBlanks
  let here := if here.rest.head? == some '#' then here.skip here.leftOnLine else here
  if here.rest.head?.all isBreak then some here.nextLine else none

/-- three marks at the front of a line, alone -/
def atMark (mark : Char) (here : Cursor) : Bool :=
  here.column == 0 && here.rest.take 3 == [mark, mark, mark] && atGap (here.rest.drop 3)

/-- the mark of the beginning or of the end of a document -/
def atDocumentMark (here : Cursor) : Bool := here.atMark '-' || here.atMark '.'

theorem length_skip (here : Cursor) (n : Nat) : (here.skip n).rest.length = here.rest.length - n := List.length_drop

theorem length_nextLine_le (here : Cursor) : here.nextLine.rest.length ≤ here.rest.length - 1 := by
  unfold nextLine
  split
  · next h =>
      rw [h]
      exact Nat.le_succ _
  · next h =>
      rw [h]
      exact Nat.le_refl _
  · next h =>
      rw [h]
      exact Nat.le_refl 0

theorem length_gapEnd_le (index line column : Nat) (s : List Char) :
    (gapEnd index line column s).rest.length ≤ s.length := by
  fun_induction gapEnd index line column s with
  | case1 => exact Nat.le_refl 0
  | case2 _ _ _ _ ih => exact Nat.le_trans ih (Nat.le_add_right _ 2)
  | case3 _ _ _ _ _ _ _ ih => exact Nat.le_succ_of_le ih
  | case4 _ _ _ _ _ _ _ _ ih => exact Nat.le_succ_of_le ih
  | case5 => exact Nat.le_refl _

theorem length_behindGap_le (here : Cursor) : here.behindGap.rest.length ≤ here.rest.length := length_gapEnd_le ..

/-- A gap that stands here is left behind. -/
theorem length_behindGap_lt (here : Cursor) {c : Char} {rest : List Char} (h : here.rest = c :: rest)
    (hc : isGap c = true) : here.behindGap.rest.length < here.rest.length := by
  unfold behindGap
  rw [h]
  unfold gapEnd
  split
  · simp_all
  · rename_i s hs
    obtain ⟨rfl, rfl⟩ := List.cons.inj hs
    have := length_gapEnd_le (here.index + 2) (here.line + 1) 0 s
    simp only [List.length_cons]
    omega
  · rename_i d s _ hs
    obtain ⟨rfl, rfl⟩ := List.cons.inj hs
    have h1 := length_gapEnd_le (here.index + 1) (here.line + 1) 0 rest
    have h2 := length_gapEnd_le (here.index + 1) here.line (here.column + 1) rest
    by_cases hb : isBreak c = true
    · rw [if_pos hb, List.length_cons]
      omega
    · rw [if_neg hb, if_pos (by simpa [isGap, hb] using hc), List.length_cons]
      omega

end Cursor

/-- what a scalar holds, and the place behind it -/
structure Passage where
  content : List Char
  behind : Cursor

/-- more content in front -/
def Passage.before (front : List Char) (p : Passage) : Passage := { p with content := front ++ p.content }

/-- the text that it holds -/
def Passage.text (p : Passage) : String := String.ofList p.content

end EntitySearch.Markup
