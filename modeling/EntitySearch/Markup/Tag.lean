/-
Tags, which say of what sort a value is, and the directives that declare handles for them.

A tag is written in full between angles, or as a handle and what follows it. In a tag a percent sign and two
hexadecimal digits stand for a byte; such bytes come in groups, one group for each character.
-/
import EntitySearch.Json.Reader
import EntitySearch.Markup.Cursor

namespace EntitySearch.Markup

/-- what a tag says -/
inductive Tag where
  | missing
  | null
  | bool
  | int
  /-- a tag of its own, without the exclamation mark in front -/
  | named (name : String)
  | other
  deriving DecidableEq, Repr

/-- the bytes of a text -/
abbrev Bytes := List UInt8

def Bytes.ofText (text : String) : Bytes := text.toUTF8.toList

/-- what stands in front of the names of the common tags -/
def commonLead : String := "tag:yaml.org,2002:"

/-- what the tag with a text says -/
def Tag.ofText (text : String) : Tag :=
  if text == commonLead ++ "null" then .null
  else if text == commonLead ++ "bool" then .bool
  else if text == commonLead ++ "int" then .int
  else match text.toList with
    | '!' :: name => .named (String.ofList name)
    | _ => .other

/-- what the tag with some bytes says; bytes that are no text say nothing known -/
def Tag.ofBytes (bytes : Bytes) : Tag :=
  match String.fromUTF8? ⟨bytes.toArray⟩ with
  | some text => .ofText text
  | none => .other

/-- a tag as it is written: in full if the handle is empty -/
structure WrittenTag where
  handle : String
  rest : Bytes
  deriving DecidableEq

/-- the handles that tags may begin with, and the bytes that each stands for -/
abbrev Handles := List (String × Bytes)

/-- the handles that need no declaration -/
def Handles.common : Handles := [("!", Bytes.ofText "!"), ("!!", Bytes.ofText commonLead)]

/-- what a tag says, if its handle is known -/
def WrittenTag.tag? (handles : Handles) (t : WrittenTag) : Option Tag :=
  if t.handle.isEmpty then some (.ofBytes t.rest)
  else (handles.lookup t.handle).map fun lead => .ofBytes (lead ++ t.rest)

/-- a character of a tag; commas and brackets only where the tag stands between angles or in a directive -/
def isTagChar (wide : Bool) (c : Char) : Bool :=
  isNameChar c || ";/?:@&=+$.!~*'()".toList.contains c || (wide && ",[]".toList.contains c)

/-- how many bytes follow the first byte of a character, if it can be one -/
def bytesBehind (first : Nat) : Option Nat :=
  if first < 0x80 then some 0
  else if first < 0xC0 then none
  else if first < 0xE0 then some 1
  else if first < 0xF0 then some 2
  else if first < 0xF8 then some 3
  else none

/-- the bytes of a tag and the number of its characters; `due` bytes of a character begun are still to come -/
def tagBytes (wide : Bool) (due : Nat) : List Char → Option (Bytes × Nat)
  | '%' :: a :: b :: rest =>
    (Json.hex? [a, b]).bind fun byte =>
      (if due == 0 then bytesBehind byte else if 0x80 ≤ byte && byte < 0xC0 then some (due - 1) else none).bind fun due =>
        (tagBytes wide due rest).map fun (bytes, n) => (byte.toUInt8 :: bytes, n + 3)
  | c :: rest =>
    if due != 0 || c == '%' then none
    else if isTagChar wide c then (tagBytes wide 0 rest).map fun (bytes, n) => (c.toUInt8 :: bytes, n + 1)
    else some ([], 0)
  | [] => if due == 0 then some ([], 0) else none

/-- the bytes of a tag that stands here, at least one, and the place behind it -/
def someTagBytes (wide : Bool) (here : Cursor) : Option (Bytes × Cursor) :=
  match tagBytes wide 0 here.rest with
  | some (bytes, n) => if n == 0 then none else some (bytes, here.skip n)
  | none => none

/-- the name at a place and the place behind it -/
def nameAt (here : Cursor) : String × Cursor :=
  let name := here.rest.takeWhile isNameChar
  (String.ofList name, here.skip name.length)

/-- the tag whose exclamation mark stands here, and the place behind it -/
def WrittenTag.read? (inFlow : Bool) (here : Cursor) : Option (WrittenTag × Cursor) := do
  let (tag, behind) ←
    if (here.rest.drop 1).head? == some '<' then do
      let (bytes, behind) ← someTagBytes true (here.skip 2)
      if behind.rest.head? == some '>' then some (⟨"", bytes⟩, behind.skip 1) else none
    else do
      let (name, behind) := nameAt (here.skip 1)
      if behind.rest.head? == some '!' then
        let (bytes, behind) ← someTagBytes false (behind.skip 1)
        some (⟨"!" ++ name ++ "!", bytes⟩, behind)
      else
        let (bytes, n) ← tagBytes false 0 behind.rest
        let bytes := Bytes.ofText name ++ bytes
        some (if bytes.isEmpty then ⟨"", Bytes.ofText "!"⟩ else ⟨"!", bytes⟩, behind.skip n)
  if atGap behind.rest || (inFlow && behind.rest.head? == some ',') then some (tag, behind) else none

/-- a line that says something about the document below -/
inductive Directive where
  | version (major minor : Nat)
  | handle (name : String) (lead : Bytes)
  deriving DecidableEq

/-- a number of one to nine digits that stands here, and the place behind it -/
def numberAt (here : Cursor) : Option (Nat × Cursor) :=
  let digits := here.rest.takeWhile Char.isDigit
  if digits.isEmpty || 9 < digits.length then none
  else some (digits.foldl (fun n c => n * 10 + (c.toNat - 48)) 0, here.skip digits.length)

/-- the version that stands here, and the place behind it -/
def versionAt (here : Cursor) : Option (Directive × Cursor) := do
  let (major, here) ← numberAt here
  if here.rest.head? == some '.' then
    let (minor, here) ← numberAt (here.skip 1)
    some (.version major minor, here)
  else none

/-- the handle that stands here with the bytes that it stands for, and the place behind them -/
def handleAt (here : Cursor) : Option (Directive × Cursor) := do
  if here.rest.head? != some '!' then none
  let (name, here) := nameAt (here.skip 1)
  let (handle, here) ←
    if here.rest.head? == some '!' then some ("!" ++ name ++ "!", here.skip 1)
    else if name.isEmpty then some ("!", here)
    else none
  if here.rest.head?.any isBlank then
    let (lead, here) ← someTagBytes true here.behindBlanks
    if atGap here.rest then some (.handle handle lead, here) else none
  else none

/-- the directive behind a percent sign, and the front of the next line -/
def Directive.read? (here : Cursor) : Option (Directive × Cursor) := do
  let (name, here) := nameAt here
  if !atGap here.rest then none
  let (directive, here) ←
    if name == "YAML" then versionAt here.behindBlanks
    else if name == "TAG" then handleAt here.behindBlanks
    else none
  some (directive, ← here.lineOver)

/-- the handles known below some directives: a version of 1.1 or 1.2 may be given once, and each handle once -/
def Handles.declare (version : Bool) (declared : Handles) : List Directive → Option Handles
  | [] => some (declared ++ Handles.common)
  | .version major minor :: rest =>
    if version || major != 1 || (minor != 1 && minor != 2) then none else declare true declared rest
  | .handle name lead :: rest =>
    if (declared.lookup name).isSome then none else declare version ((name, lead) :: declared) rest

end EntitySearch.Markup
