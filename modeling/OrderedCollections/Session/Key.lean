/-
**Keys and values of a session.**

A session runs commands on a collection of keys, or of keys and values, and records the replies. The
keys are of a type that has a key for every number and that can be shown; the values are numbers or
texts.
-/

import OrderedCollections.Comparator.Window
import OrderedCollections.Text.Quoted
import OrderedCollections.Text.Rendering

namespace OrderedCollections.Session

/-- A type of keys. -/
class Key (κ : Type) where
  /-- The key of a number. -/
  ofNumber : Nat → κ
  /-- The key as it is shown. -/
  rendering : κ → Rendering

instance : Key Int64 where
  ofNumber number := Int64.ofNat number
  rendering key := .integer key.toInt

/-- The text of a number has at least five digits. -/
instance : Key String where
  ofNumber number := String.ofList ((Nat.toDigits 10 number).leftpad 5 '0')
  rendering key := .atom (Quoted.encode key)

/-- The sequence of a number holds its tens and its last digit. -/
instance : Key (List Int64) where
  ofNumber number := [Int64.ofNat (number / 10), Int64.ofNat (number % 10)]
  rendering key := .list (key.map fun item => .integer item.toInt)

instance : Key Mark where
  ofNumber number := ⟨Int64.ofNat number, 0⟩
  rendering key :=
    .record "Mark"
      [("place", .integer key.place.toInt), ("tolerance", .integer key.tolerance.toNat)]

/-- A value stored under a key. -/
inductive Value where
  | number (amount : Int64)
  | text (content : String)
  deriving DecidableEq, Repr

namespace Value

/-- The value after an edit: numbers are added, texts are joined, and a value of the other kind
replaces the old one. -/
def edit (change old : Value) : Value :=
  match old, change with
  | .number amount, .number more => .number (amount + more)
  | .text content, .text more => .text (content ++ more)
  | _, _ => change

/-- What a value counts for in a tally: a number for itself, a text for its length in bytes. -/
def weight : Value → Int64
  | number amount => amount
  | text content => Int64.ofNat content.utf8ByteSize

/-- The value as it is shown. -/
def rendering : Value → Rendering
  | number amount => .integer amount.toInt
  | text content => .atom (Quoted.encode content)

end Value

end OrderedCollections.Session
