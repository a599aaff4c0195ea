/-
Texts in blocks, behind a bar or an angle.

The lines of a block stand at a margin of their own, which is given behind the bar or found from the lines without
content at the front. Behind a bar the lines stay as they are; behind an angle the line end between two lines that
begin without a blank is a blank. A minus or a plus says what becomes of the line ends at the end of the block.
-/
import EntitySearch.Markup.Cursor

namespace EntitySearch.Markup

/-- the line ends kept at the end of a block -/
inductive Kept where
  | nothing
  | one
  | all
  deriving DecidableEq, Repr

/-- what stands behind the bar or the angle, and the place behind it -/
structure Header where
  kept : Kept
  /-- how far the lines stand in, if that is said -/
  further : Option Nat
  behind : Cursor

def Kept.ofSign? (c : Char) : Option Kept :=
  if c == '+' then some .all else if c == '-' then some .nothing else none

/-- the value of a decimal digit -/
def digit? (c : Char) : Option Nat := if c.isDigit then some (c.toNat - 48) else none

/-- a sign that stands here, if one does, and the place behind it -/
def sign {α : Type} (read : Char → Option α) (here : Cursor) : Option α × Cursor :=
  match here.rest.head?.bind read with
  | some a => (some a, here.skip 1)
  | none => (none, here)

/-- a header, its two signs in either order; a zero is refused -/
def Header.read? (here : Cursor) : Option Header :=
  let (front, here) := sign Kept.ofSign? here
  let (further, here) := sign digit? here
  let (back, here) := if front.isSome then (none, here) else sign Kept.ofSign? here
  if further == some 0 then none else some ⟨(front <|> back).getD .one, further, here⟩

/-- the line ends of lines without content, the greatest column reached in them, and the place of the content -/
structure EmptyLines where
  ends : List Char
  deepest : Nat
  behind : Cursor

/-- a line in front -/
def EmptyLines.after (lineEnd : List Char) (column : Nat) (e : EmptyLines) : EmptyLines :=
  ⟨lineEnd ++ e.ends, max column e.deepest, e.behind⟩

/-- behind the spaces that stand here, up to the margin at most if that is known -/
def Cursor.indented (margin : Option Nat) (here : Cursor) : Cursor :=
  let spaces := (here.rest.takeWhile (· == ' ')).length
  here.skip ((margin.map fun m => min spaces (m - here.column)).getD spaces)

theorem Cursor.length_indented_le (margin : Option Nat) (here : Cursor) :
    (here.indented margin).rest.length ≤ here.rest.length := by
  simp only [indented, length_skip]
  omega

/-- the lines without content that stand here; a tabulator before the margin is refused -/
def emptyLines (margin : Option Nat) (here : Cursor) : Option EmptyLines :=
  let content := here.indented margin
  let stop : EmptyLines := ⟨[], content.column, content⟩
  match _h : content.rest with
  | [] => some stop
  | c :: _ =>
    if c == '\t' && margin.all (content.column < ·) then none
    else if isBreak c then (emptyLines margin content.nextLine).map (.after content.lineEnd content.column)
    else some stop
termination_by here.rest.length
decreasing_by
  have h1 := here.length_indented_le margin
  have h2 := (here.indented margin).length_nextLine_le
  have h3 : 0 < (here.indented margin).rest.length := List.length_pos_iff.2 fun h => by simp_all [content]
  omega

theorem length_behind_emptyLines_le {margin : Option Nat} {here : Cursor} {e : EmptyLines}
    (h : emptyLines margin here = some e) : e.behind.rest.length ≤ here.rest.length := by
  fun_induction emptyLines margin here generalizing e with
  | case1 here =>
    obtain rfl := Option.some.inj h
    exact here.length_indented_le margin
  | case2 => exact absurd h (by simp)
  | case3 here =>
    rename_i ih
    obtain ⟨f, hf, rfl⟩ := Option.map_eq_some_iff.1 h
    have h1 : f.behind.rest.length ≤ (here.indented margin).nextLine.rest.length := ih hf
    have h2 := here.length_indented_le margin
    have h3 := (here.indented margin).length_nextLine_le
    simp only [EmptyLines.after]
    omega
  | case4 here =>
    obtain rfl := Option.some.inj h
    exact here.length_indented_le margin

/-- the line ends that stay at the end of a block: the one behind its last line, and those of empty lines -/
def Kept.of (kept : Kept) (last empty : List Char) : List Char :=
  match kept with
  | .nothing => []
  | .one => last
  | .all => last ++ empty

/-- what stands between two lines of a block with no empty line between them, or before the first of empty lines -/
def joint (folded : Bool) (lineEnd empty : List Char) : List Char :=
  if folded && lineEnd == ['\n'] then if empty.isEmpty then [' '] else [] else lineEnd

/-- the lines of a block at its margin; given are the end of the line before, whether that line begins with a blank,
and the empty lines behind it -/
def blockLines (folded : Bool) (kept : Kept) (margin : Nat) (lineEnd : List Char) (afterBlank : Bool)
    (e : EmptyLines) : Option Passage :=
  let here := e.behind
  if here.column == margin && !here.rest.isEmpty then
    let atBlank := here.rest.head?.any isBlank
    let front := joint (folded && !afterBlank && !atBlank) lineEnd e.ends ++ e.ends
    let last := here.skip here.leftOnLine
    match _h : emptyLines (some margin) last.nextLine with
    | none => none
    | some next =>
      (blockLines folded kept margin last.lineEnd atBlank next).map
        (.before (front ++ here.rest.take here.leftOnLine))
  else some ⟨kept.of lineEnd e.ends, here⟩
termination_by e.behind.rest.length
decreasing_by
  have hc : (e.behind.column == margin && !e.behind.rest.isEmpty) = true := ‹_›
  have h1 : next.behind.rest.length ≤ (e.behind.skip e.behind.leftOnLine).nextLine.rest.length :=
    length_behind_emptyLines_le _h
  have h2 := (e.behind.skip e.behind.leftOnLine).length_nextLine_le
  have h3 := e.behind.length_skip e.behind.leftOnLine
  have h4 : 0 < e.behind.rest.length := by
    simp only [Bool.and_eq_true, Bool.not_eq_true', List.isEmpty_eq_false_iff] at hc
    exact List.length_pos_iff.2 hc.2
  omega

/-- a block text behind its bar or angle; lines inside the block around it stand at least at `outer` -/
def blockText (folded : Bool) (outer : Nat) (here : Cursor) : Option Passage :=
  (Header.read? here).bind fun header =>
    header.behind.lineOver.bind fun first =>
      (emptyLines (header.further.map (outer - 1 + ·)) first).bind fun e =>
        let margin := match header.further with
          | some n => outer - 1 + n
          | none => max (max e.deepest outer) 1
        blockLines folded header.kept margin [] false e

end EntitySearch.Markup
