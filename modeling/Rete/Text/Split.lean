/-!
# Splitting text

Dotted names are split at their dots. The functions work on character lists, where they are
recursions on the text.
-/

namespace Rete.Text

/-- The pieces between the separators: one more than there are separators, some perhaps
empty. -/
def splitChars (separator : Char) : List Char → List (List Char)
  | [] => [[]]
  | c :: rest =>
    if c = separator then [] :: splitChars separator rest
    else
      match splitChars separator rest with
      | [] => [[c]]
      | piece :: pieces => (c :: piece) :: pieces

/-- The pieces of a text between the separators. -/
def split (separator : Char) (text : String) : List String :=
  (splitChars separator text.toList).map String.ofList

/-- The text before and after the first separator, if there is one. -/
def splitFirst? (separator : Char) (text : String) : Option (String × String) :=
  match text.toList.dropWhile (· != separator) with
  | [] => none
  | _ :: rest => some (String.ofList (text.toList.takeWhile (· != separator)), String.ofList rest)

/-- The piece after the last separator; the whole text if there is none. -/
def lastPiece (separator : Char) (text : String) : String :=
  String.ofList (text.toList.reverse.takeWhile (· != separator)).reverse

/-- The text without a leading part, if it starts with that part. -/
def dropLeading? (leading text : String) : Option String :=
  if leading.toList.isPrefixOf text.toList then
    some (String.ofList (text.toList.drop leading.length))
  else none

/-- The text without a trailing part, if it ends with that part. -/
def dropTrailing? (trailing text : String) : Option String :=
  if trailing.toList.isSuffixOf text.toList then
    some (String.ofList (text.toList.take (text.length - trailing.length)))
  else none

end Rete.Text
