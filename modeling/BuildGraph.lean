import BuildGraph.Assembly
import BuildGraph.Consumer.Contents
import BuildGraph.Consumer.Directories
import BuildGraph.Consumer.Plugins
import BuildGraph.Consumer.Project
import BuildGraph.Document.Reference
import BuildGraph.Document.Workspace
import BuildGraph.Fingerprint
import BuildGraph.Graph.Listing
import BuildGraph.Settings.Resolution
import BuildGraph.Proofs.NetCondition
import BuildGraph.Proofs.Route
import BuildGraph.Proofs.Interning
import BuildGraph.Proofs.Drafting
import BuildGraph.Proofs.CycleSearch
import BuildGraph.Proofs.Topological
import BuildGraph.Proofs.TargetCycle
import BuildGraph.Proofs.Validation
import BuildGraph.Proofs.PathCondition
import BuildGraph.Proofs.Reach
import BuildGraph.Proofs.References
import BuildGraph.Proofs.Consumer
import BuildGraph.Proofs.NodeKey
import BuildGraph.Proofs.Passage
import BuildGraph.Proofs.TargetNodes
import BuildGraph.Proofs.LinkedNodes
import BuildGraph.Proofs.HostedTests
import BuildGraph.Proofs.StaticCode
import BuildGraph.Proofs.DynamicCode
import BuildGraph.Proofs.ExternalBundles
import BuildGraph.Proofs.CopiedXcframeworks
import BuildGraph.Proofs.Agreement
import BuildGraph.Proofs.Parts
import BuildGraph.Proofs.ConsumersAgree
import BuildGraph.Proofs.AnswersAgree
import BuildGraph.Proofs.Reordering
import BuildGraph.Proofs.Coherence
import BuildGraph.Proofs.LocalBundles
import BuildGraph.Proofs.KeyText
import BuildGraph.Proofs.DigestInput
import BuildGraph.Proofs.DigestAnswers
import BuildGraph.Proofs.Inquiries
import BuildGraph.Proofs.Declarations
import BuildGraph.Proofs.Assembled
import BuildGraph.Proofs.DeclaredCycles
import BuildGraph.Proofs.LinkedImage
import BuildGraph.Proofs.MacroIsolation
import BuildGraph.Proofs.ReadBack
import BuildGraph.Proofs.EmbeddedFrameworks
import BuildGraph.Proofs.DirectTargets
import BuildGraph.Proofs.BuildOrder
import BuildGraph.Proofs.Lockstep
import BuildGraph.Proofs.DepthFaults
import BuildGraph.Proofs.ChecksAgree
import BuildGraph.Proofs.ReorderedFaults
import BuildGraph.Proofs.KeptAnswers
import BuildGraph.Proofs.CanonicalReferences
import BuildGraph.Proofs.SearchPaths
import BuildGraph.Proofs.ResolvedNodes
import BuildGraph.Proofs.RegisteredTargets
import BuildGraph.Proofs.ReachedTargets
import BuildGraph.Proofs.MacroPlugins
import BuildGraph.Proofs.DraftContents
import BuildGraph.Proofs.SearchTurns
import BuildGraph.Proofs.Selections
