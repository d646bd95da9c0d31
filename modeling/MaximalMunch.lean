import MaximalMunch.Main
import MaximalMunch.Scan.Effort
import MaximalMunch.Scan.Summary
import MaximalMunch.Proofs.Trail
import MaximalMunch.Proofs.LongestMatch
import MaximalMunch.Proofs.Following
import MaximalMunch.Proofs.Emission
import MaximalMunch.Proofs.Tokenize
import MaximalMunch.Proofs.KindNames
import MaximalMunch.Proofs.Requests
import MaximalMunch.Proofs.CopiedText
import MaximalMunch.Proofs.Push
import MaximalMunch.Proofs.Chunks
import MaximalMunch.Proofs.LinearScan
import MaximalMunch.Proofs.Splitting
import MaximalMunch.Proofs.ClassLookup
import MaximalMunch.Proofs.ClassIntervals
import MaximalMunch.Proofs.Columns
import MaximalMunch.Proofs.CompiledClasses
import MaximalMunch.Proofs.CompiledTable
import MaximalMunch.Proofs.History
import MaximalMunch.Proofs.Meaning
import MaximalMunch.Proofs.Pointwise
import MaximalMunch.Proofs.Canonicity
import MaximalMunch.Proofs.Coarsest
import MaximalMunch.Proofs.BinaryForm
import MaximalMunch.Proofs.Truncation
import MaximalMunch.Proofs.JsonDocument
import MaximalMunch.Proofs.JsonForm
import MaximalMunch.Proofs.Calls
import MaximalMunch.Proofs.Pruning
import MaximalMunch.Proofs.Translation
import MaximalMunch.Proofs.MemorySize
import MaximalMunch.Proofs.DeadEnds
import MaximalMunch.Proofs.Validation
import MaximalMunch.Proofs.CompiledParts
import MaximalMunch.Proofs.Buildable
import MaximalMunch.Proofs.Edges
import MaximalMunch.Proofs.DemoLanguages
import MaximalMunch.Proofs.DrawnLabels
import MaximalMunch.Proofs.SampleLength
