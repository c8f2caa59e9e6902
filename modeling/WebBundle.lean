import WebBundle.Config.Reader
import WebBundle.Config.Writer
import WebBundle.Build.Basic
import WebBundle.CommandLine.Execution
import WebBundle.Store.Faulty
import WebBundle.Store.Tree
import WebBundle.Main
import WebBundle.Proofs.DepthFirstOrder
import WebBundle.Proofs.BoundaryMembers
import WebBundle.Proofs.Extraction
import WebBundle.Proofs.DraftInvariant
import WebBundle.Proofs.ExtractionInvariant
import WebBundle.Proofs.InitialDraft
import WebBundle.Proofs.SplittingRun
import WebBundle.Proofs.ChunkNumbering
import WebBundle.Proofs.ChunkOrder
import WebBundle.Proofs.PageLoading
import WebBundle.Proofs.RequestBudget
import WebBundle.Proofs.AsyncCode
import WebBundle.Proofs.ExtractedChunks
import WebBundle.Proofs.SizeThresholds
import WebBundle.Proofs.RepeatedDownloads
import WebBundle.Proofs.CachedRuns
import WebBundle.Proofs.TidyPaths
import WebBundle.Proofs.ResolvedFiles
import WebBundle.Proofs.ModuleNames
import WebBundle.Proofs.ProcessedFiles
import WebBundle.Proofs.GraphGrowth
import WebBundle.Proofs.DiscoverySteps
import WebBundle.Proofs.LinkedModules
import WebBundle.Proofs.DiscoveryRun
import WebBundle.Proofs.StubKeys
import WebBundle.Proofs.ModuleOrigins
import WebBundle.Proofs.DiscoveredGraphs
import WebBundle.Proofs.SharedModules
import WebBundle.Proofs.SideModules
import WebBundle.Proofs.QuietBuilds
import WebBundle.Proofs.StoreRegions
import WebBundle.Proofs.StagedWrites
import WebBundle.Proofs.VerbatimNames
import WebBundle.Proofs.ConfinedRuns
import WebBundle.Proofs.TextSearch
import WebBundle.Proofs.CallForms
import WebBundle.Proofs.StatementForms
import WebBundle.Proofs.ScannedImports
import WebBundle.Proofs.MinimizedScripts
import WebBundle.Proofs.QuotedData
import WebBundle.Proofs.DataModules
import WebBundle.Proofs.RewrittenCalls
import WebBundle.Proofs.CommentedCalls
import WebBundle.Proofs.EntryFiles
import WebBundle.Proofs.KeptSources
import WebBundle.Proofs.UnloadedModules
import WebBundle.Proofs.ReadOptions
import WebBundle.Proofs.StrayKeys
import WebBundle.Proofs.JsonTexts
import WebBundle.Proofs.WrittenOptions
import WebBundle.Proofs.ChunkNames
import WebBundle.Proofs.EntryChunks
import WebBundle.Proofs.EmittedFiles
import WebBundle.Proofs.EntryScripts
import WebBundle.Proofs.InlinedAssets
import WebBundle.Proofs.OutputManifest
import WebBundle.Proofs.CommentRemoval
import WebBundle.Proofs.LexemeSequences
import WebBundle.Proofs.OutputDirectories
import WebBundle.Proofs.TakenModules
import WebBundle.Proofs.WrittenOutput
import WebBundle.Proofs.PathLocations
import WebBundle.Proofs.ProbeLists
import WebBundle.Proofs.StyleOrder
import WebBundle.Proofs.RemovedImports
import WebBundle.Proofs.ChainComposition
import WebBundle.Proofs.AliasChoice
import WebBundle.Proofs.EntryLookup
import WebBundle.Proofs.FoundPaths
import WebBundle.Proofs.SourceOrder
import WebBundle.Proofs.DiscoveryRounds
import WebBundle.Proofs.ImportCycles
import WebBundle.Proofs.LoadOrder
import WebBundle.Proofs.StoredDirectories
import WebBundle.Proofs.MovedDirectories
import WebBundle.Proofs.StaticClosure
