import CodeGraph.CommandLine.Directory
import CodeGraph.Main
import CodeGraph.Project.Graph
import CodeGraph.Proofs.Loading.Resolution
import CodeGraph.Proofs.Loading.TwoPasses
import CodeGraph.Proofs.References
import CodeGraph.Proofs.Loading.Integrity
import CodeGraph.Proofs.Stub.Mentions
import CodeGraph.Proofs.Stub.Layout
import CodeGraph.Proofs.Stub.Nesting
import CodeGraph.Proofs.Stub.Traversal
import CodeGraph.Proofs.Stub.Bodies
import CodeGraph.Proofs.Stub.Cycles
import CodeGraph.Proofs.Stub.Depth
import CodeGraph.Proofs.ReferentialIntegrity
import CodeGraph.Proofs.Loading.Arena
import CodeGraph.Proofs.Loading.Blame
import CodeGraph.Proofs.Loading.ErrorPaths
import CodeGraph.Proofs.Loading.Instances
import CodeGraph.Proofs.Loading.Slots
import CodeGraph.Proofs.Validity.Acceptance
import CodeGraph.Proofs.Loading.Stretches
import CodeGraph.Proofs.Stub.Tidy
import CodeGraph.Proofs.Stub.Scripts
import CodeGraph.Proofs.Stub.Lines
import CodeGraph.Proofs.Stub.Composition
import CodeGraph.Proofs.Stub.Policies
import CodeGraph.Proofs.Stub.Shifting
import CodeGraph.Proofs.Stub.Packages
import CodeGraph.Proofs.Loading.Ownership
import CodeGraph.Proofs.Keys.Spelling
import CodeGraph.Proofs.Document.Spellings
import CodeGraph.Proofs.Loading.Carrying
import CodeGraph.Proofs.Loading.Appending
import CodeGraph.Proofs.Loading.Respelling
import CodeGraph.Proofs.Reachability
import CodeGraph.Proofs.Renumbering
import CodeGraph.Proofs.Stub.Solids
import CodeGraph.Proofs.Stub.Indentation
import CodeGraph.Proofs.CommandLine.Stubs
import CodeGraph.Proofs.Keys.Counting
import CodeGraph.Proofs.SolidInstances
import CodeGraph.Proofs.Loading.Abstracts
import CodeGraph.Proofs.Loading.Indices
import CodeGraph.Proofs.Loading.WrongShapes
import CodeGraph.Proofs.Loading.OutOfRange
import CodeGraph.Proofs.Statistics
import CodeGraph.Proofs.Loading.OptionalReads
import CodeGraph.Proofs.CommandLine.StubGrammar
import CodeGraph.Proofs.Loading.PathTexts
