import LineShell.Proofs.AbortedRun
import LineShell.Proofs.AssignmentRoundTrip
import LineShell.Proofs.ByteScans
import LineShell.Proofs.CommandLine
import LineShell.Proofs.DescriptorBalance
import LineShell.Proofs.ExitCode
import LineShell.Proofs.ExpandedReading
import LineShell.Proofs.HomeDirectory
import LineShell.Proofs.LineDependence
import LineShell.Proofs.LineTokens
import LineShell.Proofs.LineWarnings
import LineShell.Proofs.PathSearch
import LineShell.Proofs.PipelineWriting
import LineShell.Proofs.RedirectGrammar
import LineShell.Proofs.ReferenceForms
import LineShell.Proofs.ReportFormat
import LineShell.Proofs.ReportJson
import LineShell.Proofs.SessionFrame
import LineShell.Proofs.ShellExit
import LineShell.Proofs.SuggestionLookUp
import LineShell.Proofs.TerminalScript
import LineShell.Proofs.TrailingComment
import LineShell.Proofs.WiringTakes
import LineShell.Rehearsal
import LineShell.World
