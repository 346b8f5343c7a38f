import Rete.Text.CaseMapping
import Rete.Text.CaseProperty

/-!
# Upper and lower case of text

Each character is replaced by its full Unicode mapping, which may be several characters. The
one rule that looks at the context is the capital sigma: it becomes the final form at the end
of a word, that is when a cased character stands before it and none after it, case-ignorable
characters being passed over.
-/

namespace Rete.Text

/-- Upper case, character by character. -/
def toUpper (text : String) : String :=
  String.ofList (text.toList.flatMap upperCase.map)

/-- Whether the first character that is not case-ignorable is cased. -/
def startsCased (chars : List Char) : Bool :=
  match chars.dropWhile caseIgnorable.contains with
  | [] => false
  | c :: _ => cased.contains c

/-- Lower case of the characters that follow `before`, which is listed last first. -/
def lowerAfter (before : List Char) : List Char → List Char
  | [] => []
  | c :: rest =>
    let lowered :=
      if c = 'Σ' then
        if startsCased before && !startsCased rest then ['ς'] else ['σ']
      else lowerCase.map c
    lowered ++ lowerAfter (c :: before) rest

/-- Lower case, with the final form of sigma at the ends of words. -/
def toLower (text : String) : String := String.ofList (lowerAfter [] text.toList)

end Rete.Text
