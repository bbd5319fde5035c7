import CoverageLift.FileTree
import CoverageLift.Main
import CoverageLift.Proofs.Arena.Allocation
import CoverageLift.Proofs.Arena.Turn
import CoverageLift.Proofs.Arena.History
import CoverageLift.Proofs.Arena.Sharing
import CoverageLift.Proofs.Arena.Course
import CoverageLift.Proofs.Arena.Origin
import CoverageLift.Proofs.Arena.Vacancy
import CoverageLift.Proofs.Arena.Dropping
import CoverageLift.Proofs.Remap.Contributions
import CoverageLift.Proofs.Remap.Turns
import CoverageLift.Proofs.Remap.Dropping
import CoverageLift.Proofs.Arena.Totals
import CoverageLift.Proofs.Remap.Report
import CoverageLift.Proofs.Remap.Writes
import CoverageLift.Proofs.Remap.Tables
import CoverageLift.Proofs.Remap.Lifting
import CoverageLift.Proofs.Remap.Ranges
import CoverageLift.Proofs.Remap.Effect
import CoverageLift.Proofs.Remap.Independence
import CoverageLift.Proofs.Remap.Totals
import CoverageLift.Proofs.Remap.Failure
import CoverageLift.Proofs.SourceMap.Lookup
import CoverageLift.Proofs.Arena.Rows
import CoverageLift.Proofs.Remap.Recognition
import CoverageLift.Proofs.Remap.Writing
import CoverageLift.Proofs.Remap.Rows
import CoverageLift.Proofs.Remap.Alone
import CoverageLift.Proofs.Arena.Weights
import CoverageLift.Proofs.Remap.Branches
import CoverageLift.Proofs.Remap.Batches
import CoverageLift.Proofs.SourceMap.Numbers
import CoverageLift.Proofs.SourceMap.RoundTrip
import CoverageLift.Proofs.Json.LongNumerals
import CoverageLift.Proofs.SourceMap.Legality
import CoverageLift.Proofs.SourceMap.LineCounts
import CoverageLift.Proofs.SourceMap.Refusal
import CoverageLift.Proofs.Discovery.Search
import CoverageLift.Proofs.Discovery.Survival
import CoverageLift.Proofs.Discovery.Registration
import CoverageLift.Proofs.Atlas.Log
import CoverageLift.Proofs.Remap.Repetition
import CoverageLift.Proofs.Arena.Precedence
import CoverageLift.Proofs.Remap.Seeds
import CoverageLift.Proofs.Command.Inputs
import CoverageLift.Proofs.SourceMap.Words
import CoverageLift.Proofs.SourceMap.Acceptance
import CoverageLift.Proofs.Json.Members
import CoverageLift.Proofs.Command.NamedMaps
import CoverageLift.Proofs.Command.Summary
import CoverageLift.Proofs.Path.Normal
import CoverageLift.Proofs.SourceMap.SourceRoots
import CoverageLift.Proofs.SourceMap.Spellings
import CoverageLift.Proofs.Remap.Positions
import CoverageLift.Proofs.Remap.Anchors
import CoverageLift.Proofs.Remap.Members
import CoverageLift.Proofs.Remap.Functions
import CoverageLift.Proofs.Remap.Identities
import CoverageLift.Proofs.Text.Encodings
import CoverageLift.Proofs.Discovery.Comments
import CoverageLift.Proofs.Arena.LeastFree
import CoverageLift.Proofs.Arena.Growth
import CoverageLift.Proofs.Path.Names
import CoverageLift.Proofs.Settings.Documents
import CoverageLift.Proofs.Settings.Loading
