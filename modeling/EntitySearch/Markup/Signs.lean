/-
What stands in a text of markup, token by token.

A sign says whether a key may begin behind it. Behind a dash, a question mark, a colon without a key, a comma and an
opening bracket one may, as at the front of a line; behind a scalar, an anchor or a tag on the same line none may.
-/
import EntitySearch.Markup.Progress
import EntitySearch.Markup.Scalar.Block
import EntitySearch.Markup.Scalar.Plain
import EntitySearch.Markup.Scalar.Quoted

namespace EntitySearch.Markup

namespace Progress

/-- a bracket opens -/
def openBracket (p : Progress) (t : Token) : Option Progress :=
  p.saveKey.map fun p =>
    { p.take t 1 with keyStart := none, outerKeyStarts := p.keyStart :: p.outerKeyStarts, keyAllowed := true }

/-- a bracket closes, one that is open or not -/
def closeBracket (p : Progress) (t : Token) : Option Progress :=
  p.dropKey.map fun p =>
    match p.outerKeyStarts with
    | k :: outer => { p.take t 1 with keyStart := k, outerKeyStarts := outer, keyAllowed := false }
    | [] => (p.take t 1).allowKey false

/-- a comma -/
def comma (p : Progress) : Option Progress := p.dropKey.map fun p => (p.take .comma 1).allowKey true

/-- a sign that opens a block where it stands -/
def blockSign (p : Progress) (first sign : Token) : Option Progress :=
  let inFlow := p.inFlow
  if !inFlow && !p.keyAllowed then none
  else
    (p.openBlock first p.here.column p.tokens.size).dropKey.map fun p =>
      (p.take sign 1).allowKey (!inFlow || sign == .dash)

/-- a colon, behind a key or behind none -/
def colon (p : Progress) : Option Progress :=
  match p.keyStart with
  | some k =>
    let p := { p with tokens := p.tokens.insertIdxIfInBounds k.position .key, keyStart := none }
    some (((p.openBlock .beginTable k.column k.position).take .value 1).allowKey false)
  | none => p.blockSign .beginTable .value

/-- an anchor or a reference: a name behind its sign, and behind the name a gap or one of some signs -/
def named (p : Progress) (token : String → Token) : Option Progress :=
  p.saveKey.bind fun p =>
    let (name, behind) := nameAt (p.here.skip 1)
    if !name.isEmpty && (atGap behind.rest || behind.rest.head?.any ("?:,]\x7d%@\x60".toList.contains ·)) then
      some ((p.push (token name) behind).allowKey false)
    else none

/-- a tag -/
def tag (p : Progress) : Option Progress :=
  p.saveKey.bind fun p =>
    (WrittenTag.read? p.inFlow p.here).map fun (tag, behind) => (p.push (.tag tag) behind).allowKey false

/-- a text in quotes -/
def quotedText (p : Progress) (read : Cursor → Option Passage) : Option Progress :=
  p.saveKey.bind fun p =>
    (read (p.here.skip 1)).map fun q => (p.push (.scalar .quoted q.text) q.behind).allowKey false

/-- a text in a block -/
def blockText (p : Progress) (folded : Bool) : Option Progress :=
  p.dropKey.bind fun p =>
    (Markup.blockText folded p.margin (p.here.skip 1)).map fun q =>
      (p.push (.scalar (if folded then .quoted else .literal) q.text) q.behind).allowKey true

/-- a bare text; a key may begin behind it if it ends with its line -/
def bareText (p : Progress) : Option Progress :=
  p.saveKey.bind fun p =>
    (Markup.bareText p.inFlow p.margin [] p.here).map fun (q, ended) =>
      (p.push (.scalar .bare q.text) q.behind).allowKey ended

/-- a directive -/
def directive (p : Progress) : Option Progress :=
  p.closeAll.bind fun p =>
    (Directive.read? (p.here.skip 1)).map fun (d, behind) => p.push (.directive d) behind

/-- a character that cannot begin a bare text -/
def isIndicator (c : Char) : Bool := isGap c || ",[]\x7b\x7d#&*!|>'\"%@\x60".toList.contains c

/-- the token that stands here -/
def token (p : Progress) : Option Progress :=
  let here := p.here
  let alone := p.inFlow || atGap here.rest.tail
  if here.column == 0 && here.rest.head? == some '%' then p.directive
  else if here.atMark '-' then p.closeAll.map (·.take .beginDocument 3)
  else if here.atMark '.' then p.closeAll.map (·.take .endDocument 3)
  else
    match here.rest with
    | [] => none
    | '[' :: _ => p.openBracket .openList
    | '\x7b' :: _ => p.openBracket .openTable
    | ']' :: _ => p.closeBracket .closeList
    | '\x7d' :: _ => p.closeBracket .closeTable
    | ',' :: _ => p.comma
    | '*' :: _ => p.named .reference
    | '&' :: _ => p.named .anchor
    | '!' :: _ => p.tag
    | '\'' :: _ => p.quotedText singleQuoted
    | '"' :: _ => p.quotedText doubleQuoted
    | c :: rest =>
      if c == '-' && atGap rest then p.blockSign .beginList .dash
      else if c == '?' && alone then p.blockSign .beginTable .key
      else if c == ':' && alone then p.colon
      else if (c == '|' || c == '>') && !p.inFlow then p.blockText (c == '>')
      else if isIndicator c then none
      else p.bareText

/-- all tokens of the text, those read and those to come; each takes at least one character, so the bound is enough -/
def run : (bound : Nat) → Progress → Option (Array Token)
  | 0, _ => none
  | bound + 1, p =>
    p.skipGap.forgetStale.bind fun p =>
      let p := p.closeBlocks (p.here.column < ·)
      if p.here.rest.isEmpty then p.closeAll.map (·.tokens) else p.token.bind (run bound)

end Progress

/-- the tokens of a text, a mark of the byte order in front of it left aside -/
def tokens (s : List Char) : Option (List Token) :=
  let s := if s.head?.any isOrderMark then s.drop 1 else s
  if s.all isAllowed then ((Progress.start s).run (s.length + 1)).map (·.toList) else none

end EntitySearch.Markup
