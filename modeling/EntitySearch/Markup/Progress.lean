/-
How far the tokens of a text have been read, and what columns and lines say about the next one.

A block opens where a dash or a key stands further in than the blocks around it, and it closes before the first token
that stands further out; inside brackets columns mean nothing. A key is recognized only by the colon behind it, so the
beginning of whatever may be a key is remembered, one for each bracket level: it has to be on the line of its colon and
at most 1024 characters before it. What begins in the column of a block of keys has to be a key.
-/
import EntitySearch.Markup.Token

namespace EntitySearch.Markup

/-- what may turn out to be a key -/
structure KeyStart where
  /-- the number of tokens in front of it -/
  position : Nat
  index : Nat
  line : Nat
  column : Nat
  /-- nothing but a key may stand there -/
  required : Bool

/-- how far the tokens of a text have been read -/
structure Progress where
  here : Cursor
  /-- the columns of the blocks that are open, the innermost first -/
  columns : List Nat
  /-- what may be a key on the present bracket level -/
  keyStart : Option KeyStart
  /-- what may be a key on the levels around the open brackets, the innermost first -/
  outerKeyStarts : List (Option KeyStart)
  /-- a key may begin here -/
  keyAllowed : Bool
  tokens : Array Token

namespace Progress

/-- nothing has been read of a text -/
def start (s : List Char) : Progress := ⟨.start s, [], none, [], true, #[]⟩

/-- some bracket is open -/
def inFlow (p : Progress) : Bool := !p.outerKeyStarts.isEmpty

/-- the least column in which text of the innermost block stands -/
def margin (p : Progress) : Nat := (p.columns.head?.map (· + 1)).getD 0

/-- one more token, and the place behind it -/
def push (p : Progress) (t : Token) (behind : Cursor) : Progress := { p with tokens := p.tokens.push t, here := behind }

/-- one more token of so many characters -/
def take (p : Progress) (t : Token) (length : Nat) : Progress := p.push t (p.here.skip length)

/-- nothing is remembered that may be a key; a required key that is none is refused -/
def dropKey (p : Progress) : Option Progress :=
  if p.keyStart.any (·.required) then none else some { p with keyStart := none }

/-- what begins here is remembered, if it may be a key -/
def saveKey (p : Progress) : Option Progress :=
  if p.keyAllowed then
    let required := !p.inFlow && p.columns.head? == some p.here.column
    p.dropKey.map fun p =>
      { p with keyStart := some ⟨p.tokens.size, p.here.index, p.here.line, p.here.column, required⟩ }
  else some p

/-- whether a key may begin behind this -/
def allowKey (p : Progress) (allowed : Bool) : Progress := { p with keyAllowed := allowed }

/-- a colon here is too far away -/
def isStale (here : Cursor) (k : KeyStart) : Bool := k.line < here.line || k.index + 1024 < here.index

/-- what is too far away to be a key is forgotten; a required key is refused then -/
def forgetStale (p : Progress) : Option Progress :=
  let stale (k : Option KeyStart) : Bool := k.any (isStale p.here)
  if (p.keyStart :: p.outerKeyStarts).any fun k => stale k && k.any (·.required) then none
  else
    let fresh (k : Option KeyStart) : Option KeyStart := if stale k then none else k
    some { p with keyStart := fresh p.keyStart, outerKeyStarts := p.outerKeyStarts.map fresh }

/-- a block begins with a token in a column, unless one that is as far in is open; `position` tokens are in front -/
def openBlock (p : Progress) (first : Token) (column position : Nat) : Progress :=
  if p.inFlow || p.columns.head?.any (column ≤ ·) then p
  else { p with columns := column :: p.columns, tokens := p.tokens.insertIdxIfInBounds position first }

/-- the blocks are closed that are further in than a limit -/
def closeBlocks (p : Progress) (further : Nat → Bool) : Progress :=
  if p.inFlow then p
  else
    let closed := (p.columns.takeWhile further).map fun _ => Token.endBlock
    { p with columns := p.columns.dropWhile further, tokens := p.tokens ++ closed }

/-- all blocks are closed, and nothing may be a key -/
def closeAll (p : Progress) : Option Progress := ((p.closeBlocks fun _ => true).dropKey).map (·.allowKey false)

/-- behind blanks, comments and line ends, and whether a key may begin there; where one may, a tabulator is no blank -/
def toToken (inFlow keyAllowed : Bool) (here : Cursor) : Cursor × Bool :=
  match _h : here.rest with
  | [] => (here, keyAllowed)
  | c :: _ =>
    if c == ' ' || (c == '\t' && (inFlow || !keyAllowed)) || (isOrderMark c && here.column == 0) then
      toToken inFlow keyAllowed (here.skip 1)
    else if c == '#' then toToken inFlow keyAllowed (here.skip here.leftOnLine)
    else if isBreak c then toToken inFlow (keyAllowed || !inFlow) here.nextLine
    else (here, keyAllowed)
termination_by here.rest.length
decreasing_by
  · simp only [Cursor.length_skip, _h, List.length_cons]
    omega
  · have hc : c = '#' := by simpa using ‹(c == '#') = true›
    subst hc
    have : 0 < here.leftOnLine := by simp [Cursor.leftOnLine, _h, isBreak, isSeparator]
    simp only [Cursor.length_skip, _h, List.length_cons]
    omega
  · have := here.length_nextLine_le
    simp only [_h, List.length_cons] at this ⊢
    omega

/-- in front of the next token -/
def skipGap (p : Progress) : Progress :=
  let (here, allowed) := toToken p.inFlow p.keyAllowed p.here
  { p with here := here, keyAllowed := allowed }

end Progress

end EntitySearch.Markup
