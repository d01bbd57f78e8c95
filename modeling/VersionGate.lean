import VersionGate.Main
import VersionGate.Session
import VersionGate.Proofs.Annotation
import VersionGate.Proofs.Annotation.Marker
import VersionGate.Proofs.CommandLine.Check
import VersionGate.Proofs.CommandLine.Files
import VersionGate.Proofs.CommandLine.Prune
import VersionGate.Proofs.CommandLine.Words
import VersionGate.Proofs.Config.Characters
import VersionGate.Proofs.Config.Description
import VersionGate.Proofs.Config.Endless
import VersionGate.Proofs.Config.JsonFile
import VersionGate.Proofs.Config.Loading
import VersionGate.Proofs.Config.Refusal
import VersionGate.Proofs.Config.YamlFile
import VersionGate.Proofs.Data.Depth
import VersionGate.Proofs.Data.Labels
import VersionGate.Proofs.Data.Store
import VersionGate.Proofs.Data.Writable
import VersionGate.Proofs.Decimal
import VersionGate.Proofs.Hex
import VersionGate.Proofs.Json.Integers
import VersionGate.Proofs.Json.RoundTrip
import VersionGate.Proofs.Json.Text
import VersionGate.Proofs.Letter
import VersionGate.Proofs.LowerCase
import VersionGate.Proofs.Message
import VersionGate.Proofs.Patch
import VersionGate.Proofs.Patch.Standing
import VersionGate.Proofs.Pruning.Comparisons
import VersionGate.Proofs.Pruning.Convergence
import VersionGate.Proofs.Pruning.Detached
import VersionGate.Proofs.Pruning.Ending
import VersionGate.Proofs.Pruning.Failure
import VersionGate.Proofs.Pruning.Fault
import VersionGate.Proofs.Pruning.Kept
import VersionGate.Proofs.Pruning.Pass
import VersionGate.Proofs.Pruning.Place
import VersionGate.Proofs.Pruning.Result
import VersionGate.Proofs.Pruning.Resume
import VersionGate.Proofs.Pruning.Seam
import VersionGate.Proofs.Pruning.Settled
import VersionGate.Proofs.Pruning.Trace
import VersionGate.Proofs.Pruning.Unseen
import VersionGate.Proofs.Pruning.Variants
import VersionGate.Proofs.Pruning.Walk
import VersionGate.Proofs.Requirement.Algebra
import VersionGate.Proofs.Requirement.Descent
import VersionGate.Proofs.Requirement.Evaluation
import VersionGate.Proofs.Requirement.Facts
import VersionGate.Proofs.Requirement.Grammar
import VersionGate.Proofs.Requirement.Meaning
import VersionGate.Proofs.Requirement.Mods
import VersionGate.Proofs.Requirement.Partition
import VersionGate.Proofs.Requirement.Rearranged
import VersionGate.Proofs.Requirement.Safety
import VersionGate.Proofs.Requirement.Single
import VersionGate.Proofs.Requirement.Tokens
import VersionGate.Proofs.Session.Accounting
import VersionGate.Proofs.Term
import VersionGate.Proofs.Term.Interval
import VersionGate.Proofs.Term.Spelling
import VersionGate.Proofs.Term.Text
import VersionGate.Proofs.Traversal
import VersionGate.Proofs.Version.Precedence
import VersionGate.Proofs.Yaml.Building
import VersionGate.Proofs.Yaml.Cursor
import VersionGate.Proofs.Yaml.Document
import VersionGate.Proofs.Yaml.DoubleQuoted
import VersionGate.Proofs.Yaml.Graph
import VersionGate.Proofs.Yaml.Plain
import VersionGate.Proofs.Yaml.Quoted
import VersionGate.Proofs.Yaml.Runs
import VersionGate.Proofs.Yaml.Scanning
import VersionGate.Proofs.Yaml.SingleQuoted
import VersionGate.Proofs.Yaml.Structure
import VersionGate.Proofs.Yaml.Text
import VersionGate.Proofs.Yaml.TreeBack
import VersionGate.Proofs.Yaml.TreeTokens
import VersionGate.Proofs.Yaml.Written
