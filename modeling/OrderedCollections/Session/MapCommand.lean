/-
**Commands on ordered maps.**

The operations of the maps as commands, so that a session is a list of commands. The point commands
need nothing but the operations that all ordered maps offer; each kind of map adds its own.

* `PointCommand.run`, `SkipMapCommand.run`, `RedBlackCommand.run`: the reply to a command, and the
  map after it.
* `PointCommand.transcript` and its namesakes: the outcomes of the commands of a session.
-/

import OrderedCollections.OrderedMap
import OrderedCollections.RedBlack.Iterator
import OrderedCollections.SkipMap.Iterator
import OrderedCollections.Session.Script

namespace OrderedCollections.Session

/-- The operation that a batch calls on a map. -/
inductive PointBatch where
  | put
  | get
  | remove
  deriving DecidableEq, Repr

/-- A command on any ordered map. -/
inductive PointCommand (κ : Type) where
  | put (key : κ) (value : Value)
  | get (key : κ)
  | edit (key : κ) (change : Value)
  | contains (key : κ)
  | remove (key : κ)
  | isEmpty
  | batch (operation : PointBatch) (progression : Progression)

variable {κ ρ μ : Type} {σ : Type → Type} [NodeStore σ]

namespace PointCommand

variable [OrderedMap μ κ Value]

/-- The answer to one call of a batch, if it hits, and the map after it. -/
def call (operation : PointBatch) (place : Nat) (key : κ) (map : μ) :
    Checked (Option Int64 × μ) := do
  match operation with
  | .put =>
    let (before, after) ← OrderedMap.put key (Value.number (Int64.ofNat place)) map
    return (before.map Value.weight, after)
  | .get => return ((← OrderedMap.get? key map).map Value.weight, map)
  | .remove =>
    let (value, after) ← OrderedMap.remove key map
    return (value.map Value.weight, after)

/-- The reply to a command, and the map after it. -/
def run [Key κ] (command : PointCommand κ) (map : μ) : Checked (Reply (κ × Value) × μ) := do
  match command with
  | put key value =>
    let (before, after) ← OrderedMap.put key value map
    return (.value before, after)
  | get key => return (.value (← OrderedMap.get? key map), map)
  | edit key change =>
    let (value, after) ← OrderedMap.modify key change.edit map
    return (.value value, after)
  | contains key => return (.flag (← OrderedMap.contains key map), map)
  | remove key =>
    let (value, after) ← OrderedMap.remove key map
    return (.value value, after)
  | isEmpty => return (.flag (OrderedMap.isEmpty map), map)
  | batch operation progression =>
    let (tally, after) ←
      runBatch (fun place number => call operation place (Key.ofNumber number)) progression map
    return (.tally tally, after)

/-- The outcomes of the commands of a session, which ends where a command runs into a fault. -/
def transcript [Key κ] : List (PointCommand κ) → μ → List (Outcome (κ × Value))
  | [], _ => []
  | command :: commands, map =>
    match command.run map with
    | .ok (reply, after) => ⟨reply, OrderedMap.size after, none⟩ :: transcript commands after
    | .error _ => []

end PointCommand

/-- Entries of a map as they are shown. -/
def renderEntries [Key κ] (entries : List (κ × Value)) : Rendering :=
  .dictionary (entries.map fun (key, value) => (Key.rendering key, value.rendering))

/-- A command on a skip map. -/
inductive SkipMapCommand (κ : Type) where
  | point (command : PointCommand κ)
  | first
  | last
  | clear
  | elements
  | iterate (script : List ForwardStep)
  | display (layout : Layout)
  | compare (one other : κ)

namespace SkipMapCommand

/-- The reply to a command, and the map after it. -/
def run [Key κ] [RandomSource ρ] (command : SkipMapCommand κ) (map : SkipMap κ Value ρ σ) :
    Checked (Reply (κ × Value) × SkipMap κ Value ρ σ) := do
  match command with
  | point command => command.run map
  | first => return (.element (← map.first?), map)
  | last => return (.element (← map.last?), map)
  | clear => return (.done, map.clear)
  | elements => return (.elements (← map.entries), map)
  | iterate script => return (.iterated (← runScript ForwardStep.run script map.iterator), map)
  | display layout => return (.text (layout.render (renderEntries (← map.entries))), map)
  | compare one other => return (.ordering (map.cmp one other), map)

/-- The map after the commands of a session. -/
def runAll [Key κ] [RandomSource ρ] (commands : List (SkipMapCommand κ))
    (map : SkipMap κ Value ρ σ) : Checked (SkipMap κ Value ρ σ) :=
  commands.foldlM (fun map command => return (← command.run map).2) map

/-- The outcomes of the commands of a session, which ends where a command runs into a fault. -/
def transcript [Key κ] [RandomSource ρ] :
    List (SkipMapCommand κ) → SkipMap κ Value ρ σ → List (Outcome (κ × Value))
  | [], _ => []
  | command :: commands, map =>
    match command.run map with
    | .ok (reply, after) => ⟨reply, after.size, some after.height⟩ :: transcript commands after
    | .error _ => []

end SkipMapCommand

/-- A command on a red-black map. -/
inductive RedBlackCommand (κ : Type) where
  | point (command : PointCommand κ)
  | tryInsert (key : κ) (value : Value)
  | tryInsertEdited (key : κ) (value change : Value)
  | update (key : κ) (value : Value)
  | first
  | last
  | clear
  | elements
  | reversed
  | iterate (script : List BidirectionalStep)
  | display (layout : Layout)
  | compare (one other : κ)

namespace RedBlackCommand

/-- The reply to a strict insertion, and the map after it: the value of the new entry after a change
made through its place. -/
def insertedReply (change : Value → Value) (outcome : Except Error NodeId)
    (map : RedBlackMap κ Value σ) : Checked (Reply (κ × Value) × RedBlackMap κ Value σ) := do
  match outcome with
  | .ok id =>
    let (_, changed) ← map.replaceAt id change
    return (.outcome (.ok (← changed.valueAt id)), changed)
  | .error error => return (.outcome (.error error), map)

/-- The reply to a command, and the map after it. -/
def run [Key κ] (command : RedBlackCommand κ) (map : RedBlackMap κ Value σ) :
    Checked (Reply (κ × Value) × RedBlackMap κ Value σ) := do
  match command with
  | point command => command.run map
  | tryInsert key value =>
    let (outcome, after) ← map.tryInsert key value
    insertedReply id outcome after
  | tryInsertEdited key value change =>
    let (outcome, after) ← map.tryInsert key value
    insertedReply change.edit outcome after
  | update key value =>
    let (outcome, after) ← map.update key value
    return (.outcome outcome, after)
  | first => return (.element (← map.first?), map)
  | last => return (.element (← map.last?), map)
  | clear => return (.done, map.clear)
  | elements => return (.elements (← map.entries), map)
  | reversed => return (.elements (← BidirectionalIterator.restBack (← map.iterator)), map)
  | iterate script =>
    return (.iterated (← runScript BidirectionalStep.run script (← map.iterator)), map)
  | display layout => return (.text (layout.render (renderEntries (← map.entries))), map)
  | compare one other => return (.ordering (map.cmp one other), map)

/-- The map after the commands of a session. -/
def runAll [Key κ] (commands : List (RedBlackCommand κ)) (map : RedBlackMap κ Value σ) :
    Checked (RedBlackMap κ Value σ) :=
  commands.foldlM (fun map command => return (← command.run map).2) map

/-- The outcomes of the commands of a session, which ends where a command runs into a fault. -/
def transcript [Key κ] :
    List (RedBlackCommand κ) → RedBlackMap κ Value σ → List (Outcome (κ × Value))
  | [], _ => []
  | command :: commands, map =>
    match command.run map with
    | .ok (reply, after) => ⟨reply, after.size, none⟩ :: transcript commands after
    | .error _ => []

end RedBlackCommand

end OrderedCollections.Session
