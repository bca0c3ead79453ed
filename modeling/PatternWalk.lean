import PatternWalk.Build
import PatternWalk.Build.Draft
import PatternWalk.Build.Tail
import PatternWalk.Graph.Ahead
import PatternWalk.Graph.Answers
import PatternWalk.Graph.Basic
import PatternWalk.Graph.BreadthFirst
import PatternWalk.Graph.Closed
import PatternWalk.Graph.Consulted
import PatternWalk.Graph.Course
import PatternWalk.Graph.Distance
import PatternWalk.Graph.Dump
import PatternWalk.Graph.Edit
import PatternWalk.Graph.EventWalk
import PatternWalk.Graph.Finding
import PatternWalk.Graph.Gathering
import PatternWalk.Graph.History
import PatternWalk.Graph.Mirror
import PatternWalk.Graph.Padding
import PatternWalk.Graph.Reading
import PatternWalk.Graph.Renaming
import PatternWalk.Graph.Run
import PatternWalk.Graph.Safety
import PatternWalk.Graph.Search
import PatternWalk.Graph.Spelling
import PatternWalk.Graph.State
import PatternWalk.Graph.Walk
import PatternWalk.Graph.Walked
import PatternWalk.Marks
import PatternWalk.Pattern
import PatternWalk.Pattern.Ambiguity
import PatternWalk.Pattern.Cursor
import PatternWalk.Pattern.Fault
import PatternWalk.Pattern.Item
import PatternWalk.Pattern.Joining
import PatternWalk.Pattern.Language
import PatternWalk.Pattern.SinglePath
import PatternWalk.Pattern.Symbol
import PatternWalk.Proofs.Absorption
import PatternWalk.Proofs.Anonymity
import PatternWalk.Proofs.Bounds
import PatternWalk.Proofs.Completeness
import PatternWalk.Proofs.Faithfulness
import PatternWalk.Proofs.Finishing
import PatternWalk.Proofs.FirstFault
import PatternWalk.Proofs.Footing
import PatternWalk.Proofs.Histories
import PatternWalk.Proofs.IdleTargets
import PatternWalk.Proofs.Log
import PatternWalk.Proofs.LookAhead
import PatternWalk.Proofs.Nondeterminism
import PatternWalk.Proofs.OnceEach
import PatternWalk.Proofs.Priority
import PatternWalk.Proofs.Repetition
import PatternWalk.Proofs.Row
import PatternWalk.Proofs.Shape
import PatternWalk.Proofs.Simulation
import PatternWalk.Proofs.Soundness
import PatternWalk.Proofs.Synchronisation
import PatternWalk.Proofs.Transcription
import PatternWalk.Proofs.Viability
import PatternWalk.Proofs.WalkOrder
import PatternWalk.Record
import PatternWalk.Text.Nongraphic
import PatternWalk.Text.Quoted
import PatternWalk.Text.Readable
