import ApiClientGen.Main
import ApiClientGen.Json.Printer
import ApiClientGen.Schema.Encode
import ApiClientGen.Proofs.ReferenceScan
import ApiClientGen.Proofs.ClassClosure
import ApiClientGen.Proofs.RunOutcome
import ApiClientGen.Proofs.TreeGrowth
import ApiClientGen.Proofs.RunEffect
import ApiClientGen.Proofs.Answers
import ApiClientGen.Proofs.FilePlaces
import ApiClientGen.Proofs.KeptDocuments
import ApiClientGen.Proofs.CacheReplay
import ApiClientGen.Proofs.OutputFiles
import ApiClientGen.Proofs.OutputNames
import ApiClientGen.Proofs.RunSteps
import ApiClientGen.Proofs.CacheEntries
import ApiClientGen.Proofs.CachedLoad
import ApiClientGen.Proofs.FetchedDocuments
import ApiClientGen.Proofs.FinalCache
import ApiClientGen.Proofs.SplitFiles
import ApiClientGen.Proofs.Confinement
import ApiClientGen.Proofs.FileContents
import ApiClientGen.Proofs.RequestTrail
import ApiClientGen.Proofs.FailingRuns
import ApiClientGen.Proofs.CompleteRun
import ApiClientGen.Proofs.Warnings
import ApiClientGen.Proofs.StrictRun
import ApiClientGen.Proofs.FailureCauses
import ApiClientGen.Proofs.FinishedPrefix
import ApiClientGen.Proofs.ProgramReport
import ApiClientGen.Proofs.MergedResource
import ApiClientGen.Proofs.MergeFold
import ApiClientGen.Proofs.TextLines
import ApiClientGen.Proofs.DeclaredLines
import ApiClientGen.Proofs.FreeText
import ApiClientGen.Proofs.FinalFiles
import ApiClientGen.Proofs.ImportTargets
import ApiClientGen.Proofs.TwinTrees
import ApiClientGen.Proofs.ScriptText
import ApiClientGen.Proofs.TwinRuns
import ApiClientGen.Proofs.GroupedOutput
import ApiClientGen.Proofs.RunSuccess
import ApiClientGen.Proofs.OfflineRun
import ApiClientGen.Proofs.RequestTargets
import ApiClientGen.Proofs.RecordRoundTrip
import ApiClientGen.Proofs.DistinctKeys
import ApiClientGen.Proofs.RecordGrammar
import ApiClientGen.Proofs.RecordFaults
import ApiClientGen.Proofs.TreeRoom
import ApiClientGen.Proofs.GuidedRun
import ApiClientGen.Proofs.ListingOrder
import ApiClientGen.Proofs.UnseenEdits
import ApiClientGen.Proofs.OutputModes
import ApiClientGen.Proofs.DocBlocks
import ApiClientGen.Proofs.ImportLists
import ApiClientGen.Proofs.ParameterGroups
import ApiClientGen.Proofs.InterfaceMembers
import ApiClientGen.Proofs.ClassOutline
import ApiClientGen.Proofs.RequestLiterals
import ApiClientGen.Proofs.LiteralLines
import ApiClientGen.Proofs.ClassIdentifiers
import ApiClientGen.Proofs.DeclaredNames
import ApiClientGen.Proofs.LiteralUnions
import ApiClientGen.Proofs.MemberKeys
import ApiClientGen.Proofs.TagReferences
import ApiClientGen.Proofs.SegmentNames
import ApiClientGen.Proofs.ArrayLayers
import ApiClientGen.Proofs.CommentShape
import ApiClientGen.Proofs.NormalPaths
import ApiClientGen.Proofs.SettingWords
import ApiClientGen.Proofs.SparedEntries
