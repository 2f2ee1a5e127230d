import QbsCore.BuildGraph.ProductInstaller
import QbsCore.BuildGraph.CleanupRuns
import QbsCore.Resolver.FileTagsFilters
import QbsCore.Loader.ModuleProviders
import QbsCore.BuildGraph.CycleDetector
import QbsCore.BuildGraph.ReferenceIntegrity
import QbsCore.BuildGraph.Persistence
import QbsCore.BuildGraph.EdgeInvariants
import QbsCore.ChangeTracking.ChangedProducts
import QbsCore.ChangeTracking.LatestRun
import QbsCore.ChangeTracking.PropertyLookup
import QbsCore.ChangeTracking.RequestedArtifacts
import QbsCore.ChangeTracking.RuleComparison
import QbsCore.Executor.BuildProgress
import QbsCore.Executor.JobLimitLookup
import QbsCore.Executor.JobSequences
import QbsCore.Executor.ProductPriorities
import QbsCore.Executor.Rescue
import QbsCore.Language.ExportedModules
import QbsCore.Launcher.Answers
import QbsCore.Rules.FileTagMap
import QbsCore.Rules.RuleGraph
import QbsCore.Rules.RuleNode
import QbsCore.Loader.DependsResolution
import QbsCore.Loader.ModuleMerger
import QbsCore.Loader.ModuleValues
import QbsCore.Loader.Probes
import QbsCore.Loader.ProductSort
import QbsCore.Resolver.GroupProperties
import QbsCore.Resolver.JobLimits
import QbsCore.Serialization.CommandLists
import QbsCore.Serialization.RoundTrip
import QbsCore.Language.EvaluatorMemory
import QbsCore.Language.NextChains
import QbsCore.Language.PropertiesItems
import QbsCore.Language.WildcardChanges
import QbsCore.Api.WildcardMatching
import QbsCore.Resolver.GroupPropertyMaps
import QbsCore.Resolver.ProductDependencies
import QbsCore.Library.Base64
import QbsCore.Library.CompactJson
import QbsCore.Loader.MultiplexedDependencies
import QbsCore.Tools.SetOperations
import QbsCore.PkgConfig.ModuleList
import QbsCore.PkgConfig.PackageOrder
import QbsCore.BuildGraph.EmptyDirectories
import QbsCore.Api.ProjectDataComparison
import QbsCore.Scanner.CppScanner
import QbsCore.Scanner.ScannedDependencies
import QbsCore.Executor.TimestampsUpdater
import QbsCore.Api.ProjectFileEdits
import QbsCore.Library.LexSequence
import QbsCore.PkgConfig.VersionComparison
import QbsCore.Library.NestedMaps
import QbsCore.Language.ConfigProperties
import QbsCore.Tools.ResolvedPaths
import QbsCore.PkgConfig.VariableSubstitution
import QbsCore.Library.BaseChain
import QbsCore.Tools.Profile
import QbsCore.Tools.ProfileInheritance
import QbsCore.Tools.ConfigValues
import QbsCore.Tools.SetupProjectParameters
import QbsCore.Library.ResumableParser
import QbsCore.Library.ByteReader
import QbsCore.Tools.DataStream
import QbsCore.Launcher.Packets
import QbsCore.Library.Occurrences
import QbsCore.Session.SessionPacket
import QbsCore.Tools.ScriptLiterals
import QbsCore.Tools.SettingsRepresentation
import QbsCore.Library.SimultaneousEdits
import QbsCore.Api.ChangeSet
import QbsCore.Api.ChangeSetApplied
import QbsCore.Session.ClientData
