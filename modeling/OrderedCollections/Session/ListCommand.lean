/-
**Commands on a skip list.**

Every operation of a skip list as a command, so that a session is a list of commands.

* `ListCommand.run`: the reply to a command, and the list after it.
* `ListCommand.transcript`: the outcomes of the commands of a session.
-/

import OrderedCollections.SkipList.Iterator
import OrderedCollections.Session.Script

namespace OrderedCollections.Session

/-- The operation that a batch calls on a list. -/
inductive ListBatch where
  | insert
  | remove
  | rank
  | find
  deriving DecidableEq, Repr

/-- Where a walk along a list starts. -/
inductive WalkStart where
  | front
  | back
  | rank (wanted : Nat)
  deriving DecidableEq, Repr

/-- A move of a walk, which has a current entry and a saved one. -/
inductive Move where
  | next
  | prev
  | save
  | swap
  | rank
  | display
  deriving DecidableEq, Repr

/-- A command on a skip list. -/
inductive ListCommand (κ : Type) where
  | insert (key : κ)
  | find (key : κ)
  | contains (key : κ)
  | remove (key : κ)
  | rank (key : κ)
  | atRank (wanted : Nat)
  | removeRank (wanted : Nat)
  | front
  | back
  | isEmpty
  | clear
  | elements
  | reversed
  | ranks
  | iterate (script : List BidirectionalStep)
  | walk (start : WalkStart) (moves : List Move)
  | display (layout : Layout)
  | compare (one other : κ)
  | batch (operation : ListBatch) (progression : Progression)

variable {κ ρ : Type} {σ : Type → Type} [NodeStore σ]

/-- An entry with its rank and its neighbours. -/
def viewEntry (entry : SkipList.Entry κ ρ σ) : Checked (EntryView κ) := do
  let prev ← (← entry.prev?).mapM SkipList.Entry.value
  let next ← (← entry.next?).mapM SkipList.Entry.value
  return { value := ← entry.value, rank := ← entry.rank, prev := prev, next := next }

/-- The view of an entry that was asked for. -/
def viewPlaced (outcome : Except Error (SkipList.Entry κ ρ σ)) :
    Checked (Except Error (EntryView κ)) :=
  match outcome with
  | .ok entry => return .ok (← viewEntry entry)
  | .error error => return .error error

variable [Key κ]

/-- The list as it is shown. -/
def renderList (list : SkipList κ ρ σ) : Checked Rendering :=
  return .list ((← list.elements).map Key.rendering)

/-- An entry as it is shown. -/
def renderEntry (entry : SkipList.Entry κ ρ σ) : Checked Rendering :=
  return .record "EntryRef" [("value", Key.rendering (← entry.value))]

/-- The answers to the moves of a walk. A move past the end is answered by nothing and leads
nowhere. -/
def runMoves : List Move → (current saved : SkipList.Entry κ ρ σ) → Checked (List (WalkReply κ))
  | [], _, _ => return []
  | move :: moves, current, saved => do
    match move with
    | .next => step (← current.next?) moves current saved
    | .prev => step (← current.prev?) moves current saved
    | .save => runMoves moves current current
    | .swap => return .element (some (← saved.value)) :: (← runMoves moves saved current)
    | .rank => return .rank (← current.rank) :: (← runMoves moves current saved)
    | .display =>
      return .text (← renderEntry current).oneLine :: (← runMoves moves current saved)
where
  /-- Goes to the given entry, if there is one, and on with the moves that follow. -/
  step (reached : Option (SkipList.Entry κ ρ σ)) (moves : List Move)
      (current saved : SkipList.Entry κ ρ σ) : Checked (List (WalkReply κ)) := do
    match reached with
    | some entry =>
      return .element (some (← entry.value)) :: (← runMoves moves entry saved)
    | none => return .element none :: (← runMoves moves current saved)

/-- The entry at which a walk starts. -/
def WalkStart.entry? (start : WalkStart) (list : SkipList κ ρ σ) :
    Checked (Option (SkipList.Entry κ ρ σ)) :=
  match start with
  | front => return list.front?
  | back => return list.back?
  | rank wanted => list.atRank? wanted

/-- The answer to one call of a batch, if it hits, and the list after it. -/
def ListBatch.call [RandomSource ρ] (operation : ListBatch) (key : κ) (list : SkipList κ ρ σ) :
    Checked (Option Int64 × SkipList κ ρ σ) := do
  match operation with
  | insert =>
    let (outcome, after) ← list.insert key
    match outcome with
    | .ok id =>
      let entry : SkipList.Entry κ ρ σ := ⟨after, id⟩
      return (some (Int64.ofNat (← entry.rank)), after)
    | .error _ => return (none, after)
  | remove =>
    let (taken, after) ← list.remove key
    return (taken.map fun _ => 1, after)
  | rank => return ((← list.rank key).toOption.map Int64.ofNat, list)
  | find =>
    match ← list.find key with
    | .ok entry => return (some (Int64.ofNat (← entry.rank)), list)
    | .error _ => return (none, list)

namespace ListCommand

/-- The reply to a command, and the list after it. -/
def run [RandomSource ρ] (command : ListCommand κ) (list : SkipList κ ρ σ) :
    Checked (Reply κ × SkipList κ ρ σ) := do
  match command with
  | insert key =>
    let (outcome, after) ← list.insert key
    return (.placed (← viewPlaced (outcome.map fun id => ⟨after, id⟩)), after)
  | find key => return (.placed (← viewPlaced (← list.find key)), list)
  | contains key => return (.flag (← list.contains key), list)
  | remove key =>
    let (taken, after) ← list.remove key
    return (.element taken, after)
  | rank key => return (.rank (← list.rank key), list)
  | atRank wanted => return (.entry (← (← list.atRank? wanted).mapM viewEntry), list)
  | removeRank wanted =>
    let (taken, after) ← list.removeRank wanted
    return (.element taken, after)
  | front => return (.entry (← list.front?.mapM viewEntry), list)
  | back => return (.entry (← list.back?.mapM viewEntry), list)
  | isEmpty => return (.flag list.isEmpty, list)
  | clear => return (.done, list.clear)
  | elements => return (.elements (← list.elements), list)
  | reversed => return (.elements (← BidirectionalIterator.restBack list.iterator), list)
  | ranks =>
    let ranks ← (← list.elements).mapM list.rank
    return (.ranks (ranks.map fun rank => rank.toOption.getD 0), list)
  | iterate script =>
    return (.iterated (← runScript BidirectionalStep.run script list.iterator), list)
  | walk start moves =>
    match ← start.entry? list with
    | some entry =>
      let replies ← runMoves moves entry entry
      return (.walked (some (.element (some (← entry.value)) :: replies)), list)
    | none => return (.walked none, list)
  | display layout => return (.text (layout.render (← renderList list)), list)
  | compare one other => return (.ordering (list.cmp one other), list)
  | batch operation progression =>
    let (tally, after) ←
      runBatch (fun _ number => operation.call (Key.ofNumber number)) progression list
    return (.tally tally, after)

/-- The list after the commands of a session. -/
def runAll [RandomSource ρ] (commands : List (ListCommand κ)) (list : SkipList κ ρ σ) :
    Checked (SkipList κ ρ σ) :=
  commands.foldlM (fun list command => return (← command.run list).2) list

/-- The outcomes of the commands of a session, which ends where a command runs into a fault. -/
def transcript [RandomSource ρ] :
    List (ListCommand κ) → SkipList κ ρ σ → List (Outcome κ)
  | [], _ => []
  | command :: commands, list =>
    match command.run list with
    | .ok (reply, after) =>
      ⟨reply, after.size, some after.height⟩ :: transcript commands after
    | .error _ => []

end ListCommand

end OrderedCollections.Session
