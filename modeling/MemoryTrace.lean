import MemoryTrace.CommandLine.FileTree
import MemoryTrace.CommandLine.Log
import MemoryTrace.CommandLine.Report
import MemoryTrace.CommandLine.Run
import MemoryTrace.Demo
import MemoryTrace.Main
import MemoryTrace.Memory.Basic
import MemoryTrace.Memory.Block
import MemoryTrace.Memory.Event
import MemoryTrace.Memory.Layout
import MemoryTrace.Memory.Leak
import MemoryTrace.Memory.Operation
import MemoryTrace.Memory.Ownership
import MemoryTrace.Recording.History
import MemoryTrace.Recording.Record
import MemoryTrace.Script.Assignment
import MemoryTrace.Script.CodeLine
import MemoryTrace.Script.Declaration
import MemoryTrace.Script.Name
import MemoryTrace.Script.TypeName
import MemoryTrace.Session.Assignment
import MemoryTrace.Session.Basic
import MemoryTrace.Session.ClassDefinition
import MemoryTrace.Session.Declaration
import MemoryTrace.Session.Error
import MemoryTrace.Session.Execution
import MemoryTrace.Session.Note
import MemoryTrace.Session.Scope
import MemoryTrace.Session.Statement
import MemoryTrace.Table
import MemoryTrace.Text.Alphanumeric
import MemoryTrace.Text.Basic
import MemoryTrace.Text.Blank
import MemoryTrace.Text.Column
import MemoryTrace.Text.Control
import MemoryTrace.Text.Number
import MemoryTrace.Total
import MemoryTrace.Viewer.Frame
import MemoryTrace.Viewer.Highlight
import MemoryTrace.Viewer.Pane.Events
import MemoryTrace.Viewer.Pane.Heap
import MemoryTrace.Viewer.Pane.Source
import MemoryTrace.Viewer.Pane.Stack
import MemoryTrace.Viewer.Pane.Status
import MemoryTrace.Viewer.Screen
import MemoryTrace.Viewer.Scroll
import MemoryTrace.Viewer.State
import MemoryTrace.Viewer.Style
import MemoryTrace.Proofs.Memory.Blocks
import MemoryTrace.Proofs.Memory.Registry
import MemoryTrace.Proofs.Memory.Refusal
import MemoryTrace.Proofs.Session.Aside
import MemoryTrace.Proofs.Session.Forms
import MemoryTrace.Proofs.Session.Changes
import MemoryTrace.Proofs.Session.Reach
import MemoryTrace.Proofs.Recording.Targets
import MemoryTrace.Proofs.Memory.Holders
import MemoryTrace.Proofs.Memory.Matched
import MemoryTrace.Proofs.Memory.Counted
import MemoryTrace.Proofs.Memory.Aiming
import MemoryTrace.Proofs.Memory.SharedCounts
import MemoryTrace.Proofs.Memory.Owned
import MemoryTrace.Proofs.Memory.OwnedOperations
import MemoryTrace.Proofs.Memory.Unwinding
import MemoryTrace.Proofs.Memory.Disciplined
import MemoryTrace.Proofs.Memory.Changes
import MemoryTrace.Proofs.Memory.Logging
import MemoryTrace.Proofs.Memory.Lost
import MemoryTrace.Proofs.Script.Reading
import MemoryTrace.Proofs.Script.SmartLine
import MemoryTrace.Proofs.Memory.Reseat
import MemoryTrace.Proofs.Session.Success
import MemoryTrace.Proofs.Session.Stepwise
import MemoryTrace.Proofs.Session.Permanence
import MemoryTrace.Proofs.Script.SmartValue
import MemoryTrace.Proofs.Session.SmartStatement
import MemoryTrace.Proofs.Session.SmartScript
import MemoryTrace.Proofs.Session.Names
import MemoryTrace.Proofs.Memory.Standing
import MemoryTrace.Proofs.Session.Failures
import MemoryTrace.Proofs.Session.Acceptance
import MemoryTrace.Proofs.Session.Atomicity
import MemoryTrace.Proofs.Memory.Unlogged
import MemoryTrace.Proofs.Script.Layout
import MemoryTrace.Proofs.Session.Blind
import MemoryTrace.Proofs.Session.Pieces
import MemoryTrace.Proofs.Memory.Frozen
import MemoryTrace.Proofs.Script.FirstLines
import MemoryTrace.Proofs.Session.FailingLine
import MemoryTrace.Proofs.Recording.FailingLine
import MemoryTrace.Proofs.Memory.Primitives
import MemoryTrace.Proofs.Memory.WellFormed
import MemoryTrace.Proofs.Memory.HeapRanges
import MemoryTrace.Proofs.Session.Slots
import MemoryTrace.Proofs.Memory.Layouts
import MemoryTrace.Proofs.Session.Classes
import MemoryTrace.Proofs.Session.Local
import MemoryTrace.Proofs.Session.ClassSizes
import MemoryTrace.Proofs.Memory.Popping
import MemoryTrace.Proofs.Script.Braces
import MemoryTrace.Proofs.Session.Scopes
import MemoryTrace.Proofs.Session.MainScope
import MemoryTrace.Proofs.Session.Balanced
import MemoryTrace.Proofs.Script.ClassText
import MemoryTrace.Proofs.Session.OneLineClass
import MemoryTrace.Proofs.Session.OutsideMain
import MemoryTrace.Proofs.Session.Outcome
import MemoryTrace.Proofs.Script.OwnerLine
import MemoryTrace.Proofs.Session.OwnerDeclaration
import MemoryTrace.Proofs.Script.PointerLine
import MemoryTrace.Proofs.Session.PointerDeclaration
import MemoryTrace.Proofs.Text.Bytes
import MemoryTrace.Proofs.Script.AssignmentCut
import MemoryTrace.Proofs.Script.Cuts
import MemoryTrace.Proofs.Script.AsciiBlanks
import MemoryTrace.Proofs.Session.Crashes
import MemoryTrace.Proofs.Memory.InPlace
import MemoryTrace.Proofs.Memory.Retargeting
import MemoryTrace.Proofs.Memory.Transfer
import MemoryTrace.Proofs.Memory.Copies
import MemoryTrace.Proofs.Session.Identifiers
import MemoryTrace.Proofs.Session.Deletion
import MemoryTrace.Proofs.Memory.Appending
import MemoryTrace.Proofs.Memory.Draining
import MemoryTrace.Proofs.Session.Draining
import MemoryTrace.Proofs.Memory.Lifetimes
import MemoryTrace.Proofs.Memory.Capacity
import MemoryTrace.Proofs.Memory.Statistics
import MemoryTrace.Proofs.Viewer.HeapPane
import MemoryTrace.Proofs.Script.FirstSign
import MemoryTrace.Proofs.Script.Angles
import MemoryTrace.Proofs.Script.DeclarationParts
import MemoryTrace.Proofs.Script.DeclarationPrinting
import MemoryTrace.Proofs.Script.CommaList
import MemoryTrace.Proofs.Session.SmartDeclaration
import MemoryTrace.Proofs.Session.RawAllocation
import MemoryTrace.Proofs.Viewer.ListPane
import MemoryTrace.Proofs.Viewer.Highlighting
import MemoryTrace.Proofs.Recording.Lines
import MemoryTrace.Proofs.Viewer.Watching
import MemoryTrace.Proofs.Viewer.SourcePane
import MemoryTrace.Proofs.Recording.Cursor
import MemoryTrace.Proofs.Viewer.Navigation
import MemoryTrace.Proofs.Script.Templates
