/-
LIKE patterns written as wildcard patterns.

In a LIKE pattern `%` is any run of characters and `_` any one; the escape character makes the next one literal and
stands for itself at the end. In a wildcard pattern the same are `*` and `?`, and the backslash makes the next
character literal.
-/
namespace EntitySearch.Wildcard

/-- a character that stands for itself in a wildcard pattern -/
def literal (c : Char) : List Char := if c == '*' || c == '?' || c == '\\' then ['\\', c] else [c]

/-- a character of a LIKE pattern that is not escaped -/
def unescaped (c : Char) : List Char := if c == '%' then ['*'] else if c == '_' then ['?'] else literal c

/-- the wildcard pattern for a LIKE pattern -/
def ofLike (escape : Option Char) : List Char → List Char
  | [] => []
  | c :: rest =>
    if escape == some c then
      match rest with
      | next :: rest => literal next ++ ofLike escape rest
      | [] => literal c
    else unescaped c ++ ofLike escape rest

/-- the same on texts -/
def ofLikeText (pattern : String) (escape : Option Char) : String := String.ofList (ofLike escape pattern.toList)

end EntitySearch.Wildcard
