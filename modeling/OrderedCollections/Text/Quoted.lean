/-
**Quoted text.**

A text is shown between double quotes. Quotes and backslashes, the usual control characters, and
every character without a shape of its own are written as escapes, so that the quoted form is a
single line that can be read.

* `Quoted.encode`: the quoted form.
* `Quoted.isShapeless`: whether a character has no shape of its own.
-/

import OrderedCollections.Text.CharacterClass.Extending
import OrderedCollections.Text.CharacterClass.Unseen

namespace OrderedCollections.Quoted

/-- Whether a character has no shape of its own: nothing visible is drawn for it, or it joins the
character before it. -/
def isShapeless (char : Char) : Bool :=
  CharacterClass.unseen.contains char || CharacterClass.extending.contains char

/-- The written form of a character. -/
def escape (char : Char) : String :=
  match char with
  | '"' => "\\\""
  | '\\' => "\\\\"
  | '\n' => "\\n"
  | '\t' => "\\t"
  | '\r' => "\\r"
  | '\x00' => "\\0"
  | other =>
    if isShapeless other then "\\u\x7b" ++ String.ofList (Nat.toDigits 16 other.toNat) ++ "\x7d"
    else other.toString

/-- The quoted form of a text. -/
def encode (text : String) : String :=
  "\"" ++ String.join (text.toList.map escape) ++ "\""

end OrderedCollections.Quoted
