import Rete.Text.GraphemeExtend
import Rete.Text.Unprintable

/-!
# Quoted text

Text between double quotes in which quotes, backslashes and everything without a printed form
of its own are escaped. Combining marks are escaped too, so that they do not print onto the
quote or the character before them.
-/

namespace Rete.Text

/-- A code point in braces, in lower-case hexadecimal digits. -/
def escapeCode (c : Char) : List Char :=
  ['\\', 'u', '{'] ++ Nat.toDigits 16 c.toNat ++ ['}']

/-- The form of a character inside quotes. -/
def escape (c : Char) : List Char :=
  match c with
  | '\x00' => ['\\', '0']
  | '\t' => ['\\', 't']
  | '\r' => ['\\', 'r']
  | '\n' => ['\\', 'n']
  | '\\' => ['\\', '\\']
  | '"' => ['\\', '"']
  | c => if graphemeExtend.contains c || unprintable.contains c then escapeCode c else [c]

/-- Text in quotes. -/
def quote (text : String) : String :=
  String.ofList ('"' :: text.toList.flatMap escape ++ ['"'])

end Rete.Text
