import ReleaseAdvisor.Main
import ReleaseAdvisor.Proofs.Analysis.HistoryParts
import ReleaseAdvisor.Proofs.Analysis.ReportText
import ReleaseAdvisor.Proofs.Analysis.ScheduleIndependence
import ReleaseAdvisor.Proofs.Commit.HistoryText
import ReleaseAdvisor.Proofs.Commit.LineEndings
import ReleaseAdvisor.Proofs.Commit.Narrowing
import ReleaseAdvisor.Proofs.Commit.SharedCommit
import ReleaseAdvisor.Proofs.Module.CacheHistory
import ReleaseAdvisor.Proofs.Module.Migration
import ReleaseAdvisor.Proofs.Rule.StandardRules
import ReleaseAdvisor.Proofs.Rule.WrittenRules
import ReleaseAdvisor.Proofs.Files.Listing
import ReleaseAdvisor.Proofs.Module.Discovery
import ReleaseAdvisor.Proofs.CommandLine.ConfigCommands
import ReleaseAdvisor.Proofs.Module.CompleteIdentity
import ReleaseAdvisor.Proofs.Module.Keywords
import ReleaseAdvisor.Proofs.Commit.HeaderSplits
import ReleaseAdvisor.Proofs.Analysis.RelevantScopes
import ReleaseAdvisor.Proofs.CommandLine.AnalysisOutput
import ReleaseAdvisor.Proofs.CommandLine.Diagnostics
import ReleaseAdvisor.Proofs.Rule.RecordFaults
import ReleaseAdvisor.Proofs.Rule.WrittenScopes
import ReleaseAdvisor.Proofs.Module.DescriptorLoading
import ReleaseAdvisor.Proofs.Module.AnalyzerEntry
import ReleaseAdvisor.Proofs.Module.Inference
import ReleaseAdvisor.Proofs.Analysis.StaticScopes
import ReleaseAdvisor.Proofs.Rule.RecordText
import ReleaseAdvisor.Proofs.Analysis.WarningCauses
import ReleaseAdvisor.Proofs.Analysis.SummaryLines
import ReleaseAdvisor.Proofs.Settings
import ReleaseAdvisor.Proofs.Module.Title
