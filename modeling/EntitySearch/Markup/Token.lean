/-
The tokens of indented markup.

Besides the signs that are written there are tokens for what columns say: where a block of items or of entries begins
and where a block ends. A key has a token in front of it, whether it is written with a sign or recognized by the colon
behind it.
-/
import EntitySearch.Markup.Node

namespace EntitySearch.Markup

/-- what a text of markup is made of -/
inductive Token where
  | scalar (style : Style) (text : String)
  | tag (tag : WrittenTag)
  | anchor (name : String)
  | reference (name : String)
  | dash
  | key
  | value
  | comma
  | openList
  | closeList
  | openTable
  | closeTable
  | beginList
  | beginTable
  | endBlock
  | directive (directive : Directive)
  | beginDocument
  | endDocument
  deriving DecidableEq

end EntitySearch.Markup
