import GoPlanner.Main
import GoPlanner.Proofs.Discovery.Circles
import GoPlanner.Proofs.Discovery.Ignored
import GoPlanner.Proofs.Discovery.Relation
import GoPlanner.Proofs.Discovery.ReportedCycle
import GoPlanner.Proofs.Discovery.Unanimous
import GoPlanner.Proofs.Build.Precompiled
import GoPlanner.Proofs.Build.Reuse
import GoPlanner.Proofs.FileTree.Directories
import GoPlanner.Proofs.Build.Effects
import GoPlanner.Proofs.Build.Performed
import GoPlanner.Proofs.Build.Operands
import GoPlanner.Proofs.Build.Absolute
import GoPlanner.Proofs.ModuleFile.RoundTrip
import GoPlanner.Proofs.Source.WrittenHeader
import GoPlanner.Proofs.Source.ConstraintLines
import GoPlanner.Proofs.Discovery.SingleFile
import GoPlanner.Proofs.FileTree.Upward
import GoPlanner.Proofs.Build.Diagnostics
import GoPlanner.Proofs.Constraint.Grammar
import GoPlanner.Proofs.Constraint.Clauses
import GoPlanner.Proofs.Graph.Dropped
import GoPlanner.Proofs.Graph.Recorded
import GoPlanner.Proofs.Discovery.Selected
import GoPlanner.Proofs.Locate.Order
import GoPlanner.Proofs.ModuleFile.Comments
import GoPlanner.Proofs.ModuleFile.Essential
import GoPlanner.Proofs.Locate.Contained
import GoPlanner.Proofs.Source.Tags
import GoPlanner.Proofs.ImportConfig.Written
import GoPlanner.Proofs.StandardLibrary
import GoPlanner.Proofs.Source.LineEndings
import GoPlanner.Proofs.Discovery.Visits
import GoPlanner.Proofs.Json.Written
import GoPlanner.Proofs.Layout.Apart
import GoPlanner.Proofs.Hash.Undo
import GoPlanner.Proofs.Graph.Index
