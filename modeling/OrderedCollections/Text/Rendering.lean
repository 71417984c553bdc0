/-
**Rendering of nested values.**

A value can be shown on one line, or spread over several with one element on each. A rendering holds
both forms; larger renderings are put together from smaller ones.

* Elements stand between brackets, separated by a comma and a blank on one line; spread out, each
  has a line of its own, indented by four blanks and followed by a comma.
* A value without elements is the bare pair of brackets in both forms.
-/

namespace OrderedCollections

/-- A value shown on one line, and spread over several. -/
structure Rendering where
  /-- The form on one line. -/
  oneLine : String
  /-- The lines of the spread form. -/
  lines : List String
  deriving DecidableEq, Repr

namespace Rendering

/-- The spread form as one text. -/
def spread (rendering : Rendering) : String :=
  "\n".intercalate rendering.lines

/-- A value that has one form only. -/
def atom (text : String) : Rendering where
  oneLine := text
  lines := [text]

/-- The digits of a number, after a sign if it is negative. -/
def integer (number : Int) : Rendering :=
  let digits := String.ofList (Nat.toDigits 10 number.natAbs)
  atom (if number < 0 then "-" ++ digits else digits)

/-- One value directly followed by another, with a text between them. -/
def beside (first : Rendering) (between : String) (second : Rendering) : Rendering where
  oneLine := first.oneLine ++ between ++ second.oneLine
  lines :=
    first.lines.dropLast ++
      [first.lines.getLastD "" ++ between ++ second.lines.headD ""] ++ second.lines.drop 1

/-- The lines of an element: indented, and closed by a comma. -/
def elementLines (element : Rendering) : List String :=
  (element.lines.dropLast ++ [element.lines.getLastD "" ++ ","]).map ("    " ++ ·)

/-- Elements between brackets. -/
def enclosed (opening closing : String) (elements : List Rendering) : Rendering where
  oneLine := opening ++ ", ".intercalate (elements.map oneLine) ++ closing
  lines :=
    if elements.isEmpty then [opening ++ closing]
    else [opening] ++ elements.flatMap elementLines ++ [closing]

/-- A list. -/
def list (elements : List Rendering) : Rendering :=
  enclosed "[" "]" elements

/-- A dictionary of keys and values. -/
def dictionary (entries : List (Rendering × Rendering)) : Rendering :=
  enclosed "\x7b" "\x7d" (entries.map fun (key, value) => key.beside ": " value)

/-- A named record of named fields, at least one of them. -/
def record (name : String) (fields : List (String × Rendering)) : Rendering :=
  let elements := fields.map fun (label, value) => (atom label).beside ": " value
  { oneLine := name ++ " \x7b " ++ ", ".intercalate (elements.map oneLine) ++ " \x7d"
    lines := [name ++ " \x7b"] ++ elements.flatMap elementLines ++ ["\x7d"] }

end Rendering

end OrderedCollections
