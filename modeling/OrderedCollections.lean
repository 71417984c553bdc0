import OrderedCollections.Checked
import OrderedCollections.Comparator
import OrderedCollections.Comparator.Integer
import OrderedCollections.Comparator.Sequence
import OrderedCollections.Comparator.Text
import OrderedCollections.Comparator.Window
import OrderedCollections.Error
import OrderedCollections.HeightGenerator
import OrderedCollections.Iteration
import OrderedCollections.NodeStore
import OrderedCollections.NodeStore.Slots
import OrderedCollections.Options
import OrderedCollections.OrderedMap
import OrderedCollections.Proofs.Heights.Climb
import OrderedCollections.Proofs.Heights.Doubles
import OrderedCollections.Proofs.Heights.Geometric
import OrderedCollections.Proofs.Interleaving
import OrderedCollections.Proofs.Iteration
import OrderedCollections.Proofs.NodeStore.Cells
import OrderedCollections.Proofs.NodeStore.Replaced
import OrderedCollections.Proofs.RedBlack.Alarms
import OrderedCollections.Proofs.RedBlack.Balance
import OrderedCollections.Proofs.RedBlack.Deletion
import OrderedCollections.Proofs.RedBlack.Depth
import OrderedCollections.Proofs.RedBlack.Dictionary
import OrderedCollections.Proofs.RedBlack.Insertion
import OrderedCollections.Proofs.RedBlack.Iteration
import OrderedCollections.Proofs.RedBlack.Linked
import OrderedCollections.Proofs.RedBlack.Mending
import OrderedCollections.Proofs.RedBlack.OneEntry
import OrderedCollections.Proofs.RedBlack.Operations
import OrderedCollections.Proofs.RedBlack.Quiet
import OrderedCollections.Proofs.RedBlack.Refinement
import OrderedCollections.Proofs.RedBlack.Relinking
import OrderedCollections.Proofs.RedBlack.Rotation
import OrderedCollections.Proofs.RedBlack.Run
import OrderedCollections.Proofs.RedBlack.Tree
import OrderedCollections.Proofs.RedBlack.WellFormed
import OrderedCollections.Proofs.Session.Scripts
import OrderedCollections.Proofs.Session.Transcript
import OrderedCollections.Proofs.SideBySide
import OrderedCollections.Proofs.SkipList.Alike
import OrderedCollections.Proofs.SkipList.Chronicle
import OrderedCollections.Proofs.SkipList.Descent
import OrderedCollections.Proofs.SkipList.Frame
import OrderedCollections.Proofs.SkipList.Insertion
import OrderedCollections.Proofs.SkipList.Levels
import OrderedCollections.Proofs.SkipList.Lookup
import OrderedCollections.Proofs.SkipList.Operations
import OrderedCollections.Proofs.SkipList.Positions
import OrderedCollections.Proofs.SkipList.Ranks
import OrderedCollections.Proofs.SkipList.Recorded
import OrderedCollections.Proofs.SkipList.Refinement
import OrderedCollections.Proofs.SkipList.Removal
import OrderedCollections.Proofs.SkipList.Retrace
import OrderedCollections.Proofs.SkipList.Row
import OrderedCollections.Proofs.SkipList.RowDescent
import OrderedCollections.Proofs.SkipList.RowOfLinks
import OrderedCollections.Proofs.SkipList.Run
import OrderedCollections.Proofs.SkipList.SharedGap
import OrderedCollections.Proofs.SkipList.Sound
import OrderedCollections.Proofs.SkipList.Stretch
import OrderedCollections.Proofs.SkipList.Towers
import OrderedCollections.Proofs.SkipList.Twins
import OrderedCollections.Proofs.SkipList.Undo
import OrderedCollections.Proofs.SkipList.Walk
import OrderedCollections.Proofs.SkipList.WellLinked
import OrderedCollections.Proofs.SkipMap.Agreement
import OrderedCollections.Proofs.SkipMap.Ascending
import OrderedCollections.Proofs.SkipMap.Chronicle
import OrderedCollections.Proofs.SkipMap.Descent
import OrderedCollections.Proofs.SkipMap.Frame
import OrderedCollections.Proofs.SkipMap.InStep
import OrderedCollections.Proofs.SkipMap.Lockstep
import OrderedCollections.Proofs.SkipMap.Operations
import OrderedCollections.Proofs.SkipMap.Run
import OrderedCollections.Proofs.SkipMap.SortedMap
import OrderedCollections.Proofs.SkipMap.Sound
import OrderedCollections.Proofs.SkipMap.Splice
import OrderedCollections.Proofs.SkipMap.Undo
import OrderedCollections.Proofs.SkipMap.WellLinked
import OrderedCollections.Random.KeyStream
import OrderedCollections.Random.Source
import OrderedCollections.RedBlack.Iterator
import OrderedCollections.RedBlack.LinkedTree
import OrderedCollections.RedBlack.Map
import OrderedCollections.RedBlack.Repair
import OrderedCollections.RedBlack.Side
import OrderedCollections.Session.Key
import OrderedCollections.Session.ListCommand
import OrderedCollections.Session.MapCommand
import OrderedCollections.Session.Reply
import OrderedCollections.Session.Script
import OrderedCollections.Session.Tally
import OrderedCollections.SkipList.Basic
import OrderedCollections.SkipList.Descent
import OrderedCollections.SkipList.Iterator
import OrderedCollections.SkipList.Links
import OrderedCollections.SkipList.Splice
import OrderedCollections.SkipMap.Basic
import OrderedCollections.SkipMap.Descent
import OrderedCollections.SkipMap.Iterator
import OrderedCollections.SkipMap.Links
import OrderedCollections.SkipMap.Splice
import OrderedCollections.Text.CharacterClass
import OrderedCollections.Text.CharacterClass.Extending
import OrderedCollections.Text.CharacterClass.Unseen
import OrderedCollections.Text.Quoted
import OrderedCollections.Text.Rendering
