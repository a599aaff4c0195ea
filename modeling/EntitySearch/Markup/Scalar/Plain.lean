/-
Bare texts, written without quotes.

A bare text goes on over line ends as long as the next line stands at the margin or further in; inside brackets any
line does. It ends before a comment, a mark of a document, a colon with a gap behind it, and inside brackets before a
bracket, a brace or a comma.
-/
import EntitySearch.Markup.Cursor

namespace EntitySearch.Markup

/-- the characters of a bare text at the front of a text, up to the first gap at most -/
def bareWord (inFlow : Bool) : List Char → List Char
  | [] => []
  | c :: rest =>
    if isGap c || (c == ':' && (atGap rest || (inFlow && rest.head?.any fun d => isFlowSign d || d == '?')))
        || (inFlow && isFlowSign c) then []
    else c :: bareWord inFlow rest

/-- a colon that ends a bare word and is no sign of its own, which is refused -/
def isStrayColon (inFlow : Bool) : List Char → Bool
  | ':' :: c :: _ => inFlow && (isFlowSign c || c == '?')
  | _ => false

/-- a tabulator in front of the margin, once a line has ended; `column` is known from then on -/
def hasEarlyTab (margin : Nat) (column : Option Nat) : List Char → Bool
  | [] => false
  | c :: rest =>
    if isBreak c then hasEarlyTab margin (some 0) rest
    else (c == '\t' && column.any (· < margin)) || hasEarlyTab margin (column.map (· + 1)) rest

theorem length_bareWord_le (inFlow : Bool) (s : List Char) : (bareWord inFlow s).length ≤ s.length := by
  fun_induction bareWord inFlow s with
  | case1 => exact Nat.le_refl 0
  | case2 => exact Nat.zero_le _
  | case3 _ _ _ ih => exact Nat.succ_le_succ ih

/-- a bare text, the gap in front of what is left of it being given; also whether it ends at a line end -/
def bareText (inFlow : Bool) (margin : Nat) (gap : List Char) (here : Cursor) : Option (Passage × Bool) :=
  let stop := some (⟨[], here⟩, !(lineEnds gap).isEmpty)
  let word := bareWord inFlow here.rest
  let behind := here.skip word.length
  if here.atDocumentMark || here.rest.head? == some '#' then stop
  else if isStrayColon inFlow behind.rest then none
  else if word.isEmpty then stop
  else
    let front := fold gap ++ word
    if behind.gap.isEmpty then some (⟨front, behind⟩, false)
    else if hasEarlyTab margin none behind.gap then none
    else
      let next := behind.behindGap
      if !inFlow && next.column < margin then some (⟨front, next⟩, !(lineEnds behind.gap).isEmpty)
      else (bareText inFlow margin behind.gap next).map fun (p, ended) => (p.before front, ended)
termination_by here.rest.length
decreasing_by
  rename_i hw _ _ _
  have h1 := (here.skip (bareWord inFlow here.rest).length).length_behindGap_le
  have h2 := here.length_skip (bareWord inFlow here.rest).length
  have h3 := length_bareWord_le inFlow here.rest
  have h4 : 0 < (bareWord inFlow here.rest).length := by simpa [List.length_pos_iff] using hw
  omega

end EntitySearch.Markup
