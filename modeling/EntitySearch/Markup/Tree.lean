/-
The tree that the tokens of a text stand for.

A text holds one document, perhaps with directives in front of it. A node may have an anchor and a tag in front of it,
and a reference stands for the latest node with an anchor of its name. What is left out is an empty bare word. A table
inside brackets takes entries without a value, and a list inside brackets takes an entry as a table of its own.
-/
import EntitySearch.Markup.Signs

namespace EntitySearch.Markup

/-- the tokens that are left, the anchors met so far with their numbers, the latest first, and their nodes -/
structure Assembly where
  rest : List Token
  names : List (String × Nat)
  anchored : List (Nat × Node)

/-- a step that takes tokens -/
abbrev Assemble := StateT Assembly Option

/-- the next token -/
def peek : Assemble (Option Token) := do return (← get).rest.head?

/-- the next token is passed over -/
def advance : Assemble Unit := modify fun a => { a with rest := a.rest.tail }

/-- the next token is one of these -/
def at? (ts : List Token) : Assemble Bool := do return (← peek).any (ts.contains ·)

/-- the next token is passed over if it is that one -/
def pass (t : Token) : Assemble Bool := do
  if ← at? [t] then
    advance
    return true
  else return false

/-- the next token has to be that one -/
def need (t : Token) : Assemble Unit := do
  if !(← pass t) then failure

/-- a node, left out if the next token is one of these -/
def orLeftOut (ts : List Token) (node : Assemble Node) : Assemble Node := do
  if ← at? ts then return .empty else node

/-- the name of an anchor, if one stands here -/
def anchor? : Assemble (Option String) := do
  match ← peek with
  | some (.anchor name) =>
    advance
    return some name
  | _ => return none

/-- a tag, if one stands here; its handle has to be known -/
def tag? (handles : Handles) : Assemble (Option Tag) := do
  match ← peek with
  | some (.tag t) =>
    advance
    return some (← t.tag? handles)
  | _ => return none

/-- a number for an anchor -/
def setAnchor (name : String) : Assemble Nat :=
  modifyGet fun a => (a.names.length, { a with names := (name, a.names.length) :: a.names })

/-- the node with an anchor -/
def setNode (number : Nat) (n : Node) : Assemble Unit :=
  modify fun a => { a with anchored := (number, n) :: a.anchored }

mutual

/-- a node; `inBlock` says that it may be a block, `dashes` that its items may stand in the column of its key -/
def node (handles : Handles) : (bound : Nat) → (inBlock dashes : Bool) → Assemble Node
  | 0, _, _ => failure
  | bound + 1, inBlock, dashes => do
    if let some (.reference name) ← peek then
      advance
      return .reference (← (← get).names.lookup name)
    let before ← anchor?
    let tag ← tag? handles
    let behind ← if before.isNone then anchor? else pure none
    let anchor := before <|> behind
    let number ← anchor.mapM setAnchor
    let leftOut : Assemble Node :=
      if anchor.isSome || tag.isSome then pure (.scalar .bare (tag.getD .missing) "") else failure
    let n ← match ← peek with
      | some (.scalar style text) => do
        advance
        pure (.scalar style (if tag == some (.named "") then .missing else tag.getD .missing) text)
      | some .openList => do
        advance
        .list <$> flowItems handles bound true
      | some .openTable => do
        advance
        .table <$> flowEntries handles bound true
      | some .beginList => if inBlock then advance *> .list <$> blockItems handles bound else leftOut
      | some .beginTable => if inBlock then advance *> .table <$> blockEntries handles bound else leftOut
      | some .dash => if dashes then .list <$> dashItems handles bound else leftOut
      | _ => leftOut
    if let some number := number then setNode number n
    return n

/-- the items of a block up to its end -/
def blockItems (handles : Handles) : (bound : Nat) → Assemble (List Node)
  | 0 => failure
  | bound + 1 => do
    if ← pass .endBlock then return []
    need .dash
    let n ← orLeftOut [.dash, .endBlock] (node handles bound true false)
    return n :: (← blockItems handles bound)

/-- the items of a list in the column of its key -/
def dashItems (handles : Handles) : (bound : Nat) → Assemble (List Node)
  | 0 => failure
  | bound + 1 => do
    if ← pass .dash then
      let n ← orLeftOut [.dash, .key, .value, .endBlock] (node handles bound true false)
      return n :: (← dashItems handles bound)
    else return []

/-- the entries of a block up to its end -/
def blockEntries (handles : Handles) : (bound : Nat) → Assemble (List (Node × Node))
  | 0 => failure
  | bound + 1 => do
    if ← pass .endBlock then return []
    need .key
    let part := orLeftOut [.key, .value, .endBlock] (node handles bound true true)
    let key ← part
    let value ← if ← pass .value then part else pure .empty
    return (key, value) :: (← blockEntries handles bound)

/-- the value behind a key inside brackets, where the next token may be the one that ends the entry -/
def flowValue (handles : Handles) (last : Token) : (bound : Nat) → Assemble Node
  | 0 => failure
  | bound + 1 => do
    if ← pass .value then orLeftOut [.comma, last] (node handles bound false false) else return .empty

/-- the items up to the closing bracket -/
def flowItems (handles : Handles) : (bound : Nat) → (first : Bool) → Assemble (List Node)
  | 0, _ => failure
  | bound + 1, first => do
    if !first && !(← at? [.closeList]) then need .comma
    if ← pass .closeList then return []
    let n ← if ← pass .key then flowPair handles bound else node handles bound false false
    return n :: (← flowItems handles bound false)

/-- an entry inside a list; a sign where its key should be stands for an empty key -/
def flowPair (handles : Handles) : (bound : Nat) → Assemble Node
  | 0 => failure
  | bound + 1 => do
    let signs : List Token := [.value, .comma, .closeList]
    let key ← if ← at? signs then advance *> pure .empty else node handles bound false false
    return .table [(key, ← flowValue handles .closeList bound)]

/-- the entries up to the closing brace -/
def flowEntries (handles : Handles) : (bound : Nat) → (first : Bool) → Assemble (List (Node × Node))
  | 0, _ => failure
  | bound + 1, first => do
    if !first && !(← at? [.closeTable]) then need .comma
    if ← pass .closeTable then return []
    let entry ←
      if ← pass .key then
        let key ← orLeftOut [.value, .comma, .closeTable] (node handles bound false false)
        pure (key, ← flowValue handles .closeTable bound)
      else pure (← node handles bound false false, .empty)
    return entry :: (← flowEntries handles bound false)

end

/-- a tree, and the nodes in it that references refer to -/
structure Document where
  root : Node
  anchored : List (Nat × Node)

/-- the reading of a document -/
def Document.reading (d : Document) : Reading := .loose d.anchored

/-- the directives in front of a document, and the tokens behind them -/
def directivesOf : List Token → List Directive × List Token
  | .directive d :: rest => ((directivesOf rest).map (d :: ·) id)
  | rest => ([], rest)

/-- the document of which some tokens are all; the bound is more than the calls of `node` and its parts can be -/
def Document.ofTokens (tokens : List Token) : Option Document := do
  let (directives, rest) := directivesOf tokens
  let handles ← Handles.declare false [] directives
  let marked := rest.head? == some .beginDocument
  if !directives.isEmpty && !marked then none
  let rest := if marked then rest.tail else rest
  let isEmpty := rest.isEmpty || (marked && rest.head? == some .endDocument)
  let content := node handles (4 * tokens.length + 4) true false
  let (root, a) ← if isEmpty then some (.empty, ⟨rest, [], []⟩) else content.run ⟨rest, [], []⟩
  if a.rest.all (· == .endDocument) then some ⟨root, a.anchored⟩ else none

/-- the document in a text -/
def parse (text : String) : Option Document := (tokens text.toList).bind Document.ofTokens

end EntitySearch.Markup
