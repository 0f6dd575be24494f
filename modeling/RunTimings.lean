import RunTimings.Analysis
import RunTimings.CommandLine.Arguments
import RunTimings.CommandLine.Command
import RunTimings.CommandLine.Filter
import RunTimings.CommandLine.Run
import RunTimings.Dataset.Basic
import RunTimings.Dataset.Discovery
import RunTimings.Failure
import RunTimings.FileSystem.Access
import RunTimings.FileSystem.Basic
import RunTimings.FileSystem.Error
import RunTimings.FileSystem.Layout
import RunTimings.FileSystem.Path
import RunTimings.FileSystem.View
import RunTimings.FileSystem.Walk
import RunTimings.Journal
import RunTimings.Json.Printer
import RunTimings.Json.Value
import RunTimings.Log.Content
import RunTimings.Log.Scan
import RunTimings.Main
import RunTimings.Marker.Basic
import RunTimings.Marker.Recognise
import RunTimings.Marker.Written
import RunTimings.Measure.CycleBounds
import RunTimings.Measure.Diagnostic
import RunTimings.Measure.Intervals
import RunTimings.Measure.PerStep
import RunTimings.Measure.Waits
import RunTimings.Number.Binary64
import RunTimings.Number.Fixed
import RunTimings.Number.FloatText
import RunTimings.Number.Mean
import RunTimings.Number.Numeral
import RunTimings.Number.Range64
import RunTimings.Number.Shortest
import RunTimings.Proofs.BoundRuns
import RunTimings.Proofs.BrokenBytes
import RunTimings.Proofs.ByteOrder
import RunTimings.Proofs.CheckedRuns
import RunTimings.Proofs.CheckedScans
import RunTimings.Proofs.Classification
import RunTimings.Proofs.ClockOffsets
import RunTimings.Proofs.CommandLines
import RunTimings.Proofs.ComparedRuns
import RunTimings.Proofs.CycleLines
import RunTimings.Proofs.CycleReports
import RunTimings.Proofs.DecodedLines
import RunTimings.Proofs.DirectoryListings
import RunTimings.Proofs.DiscoveredFiles
import RunTimings.Proofs.DistinctLogs
import RunTimings.Proofs.FilesRead
import RunTimings.Proofs.FirstFailures
import RunTimings.Proofs.FirstOffences
import RunTimings.Proofs.HiddenMarkers
import RunTimings.Proofs.JsonGrammar
import RunTimings.Proofs.JsonReader
import RunTimings.Proofs.LineNumbers
import RunTimings.Proofs.LogReading
import RunTimings.Proofs.NearestNumbers
import RunTimings.Proofs.Numerals
import RunTimings.Proofs.Outcomes
import RunTimings.Proofs.OutputFiles
import RunTimings.Proofs.PrintedJson
import RunTimings.Proofs.RefusedEvents
import RunTimings.Proofs.ReportDocuments
import RunTimings.Proofs.SavedFiles
import RunTimings.Proofs.ScanContinuation
import RunTimings.Proofs.ShortestDecimals
import RunTimings.Proofs.StepAccounts
import RunTimings.Proofs.StepHistory
import RunTimings.Proofs.StepLines
import RunTimings.Proofs.StepLogs
import RunTimings.Proofs.StepNotes
import RunTimings.Proofs.StepReports
import RunTimings.Proofs.TableColumns
import RunTimings.Proofs.TableLines
import RunTimings.Proofs.TrailingBlanks
import RunTimings.Proofs.UnusedLines
import RunTimings.Proofs.Utf8Texts
import RunTimings.Proofs.WaitAverages
import RunTimings.Proofs.WaitOrders
import RunTimings.Proofs.WaitRuns
import RunTimings.Report.Cycles
import RunTimings.Report.Document
import RunTimings.Report.Steps
import RunTimings.Report.Table
import RunTimings.Text.Blank
import RunTimings.Text.Column
import RunTimings.Text.Escape
import RunTimings.Text.Inert
import RunTimings.Text.Pieces
import RunTimings.Text.Quoted
import RunTimings.Text.Ranges
import RunTimings.Text.Unprinted
import RunTimings.Text.Utf8
import RunTimings.Text.WordChar
import RunTimings.Proofs.TableLines
