import HostWatch.Main
import HostWatch.Proofs.Comparison
import HostWatch.Proofs.Correlation.Linking
import HostWatch.Proofs.Correlation.Retention
import HostWatch.Proofs.Detection.Active
import HostWatch.Proofs.Detection.Apart
import HostWatch.Proofs.Detection.Arrival
import HostWatch.Proofs.Detection.Duplicates
import HostWatch.Proofs.Detection.Filling
import HostWatch.Proofs.Detection.Findings
import HostWatch.Proofs.Detection.Flags
import HostWatch.Proofs.Detection.Limiting
import HostWatch.Proofs.Detection.Suppression
import HostWatch.Proofs.Detection.Typed
import HostWatch.Proofs.Files.Contents
import HostWatch.Proofs.Files.Finding
import HostWatch.Proofs.Files.Frame
import HostWatch.Proofs.Files.Paths
import HostWatch.Proofs.Files.Tree
import HostWatch.Proofs.Files.Walking
import HostWatch.Proofs.Files.Ways
import HostWatch.Proofs.Journal
import HostWatch.Proofs.Json.Lines
import HostWatch.Proofs.Json.Reading
import HostWatch.Proofs.Json.Refusing
import HostWatch.Proofs.Json.Scanning
import HostWatch.Proofs.OrderedMap
import HostWatch.Proofs.RecordFile.Filing
import HostWatch.Proofs.RecordFile.Lossless
import HostWatch.Proofs.RecordFile.Rotation
import HostWatch.Proofs.RecordFile.Shelf
import HostWatch.Proofs.Response.Fates
import HostWatch.Proofs.Response.Framing
import HostWatch.Proofs.Response.Isolation
import HostWatch.Proofs.Response.Kills
import HostWatch.Proofs.Response.Settlement
import HostWatch.Proofs.Scheduler.HandOff
import HostWatch.Proofs.Scheduler.Order
import HostWatch.Proofs.Settings.Storage
import HostWatch.Proofs.Correlation.Idempotence
import HostWatch.Proofs.Indicator.Keys
import HostWatch.Proofs.Indicator.Literal
import HostWatch.Proofs.Indicator.Matching
import HostWatch.Proofs.Response.Admission
import HostWatch.Proofs.Response.Aim
import HostWatch.Proofs.Scheduler.Wiring
import HostWatch.Proofs.Loading
import HostWatch.Proofs.Response.Unread
import HostWatch.Proofs.Rule.Silence
import HostWatch.Proofs.Scheduler.Alike
import HostWatch.Proofs.Scheduler.Recording
import HostWatch.Proofs.Scheduler.Statistics
import HostWatch.Proofs.Scheduler.Turn
import HostWatch.Proofs.Capture.Autoruns
import HostWatch.Proofs.Capture.Failing
import HostWatch.Proofs.Capture.FileChanges
import HostWatch.Proofs.Capture.FileLimit
import HostWatch.Proofs.Capture.Newcomers
import HostWatch.Proofs.Capture.Persistence
import HostWatch.Proofs.Capture.Series
import HostWatch.Proofs.Capture.Skipping
import HostWatch.Proofs.Capture.Sources
import HostWatch.Proofs.Numeric.Encoding
import HostWatch.Proofs.Numeric.Equality
import HostWatch.Proofs.Numeric.Order
import HostWatch.Proofs.Rule.Agreement
import HostWatch.Proofs.Precedence
import HostWatch.Proofs.Scheduler.Provenance
import HostWatch.Proofs.Scheduler.Spreading
import HostWatch.Proofs.Scheduler.Closing
import HostWatch.Proofs.Detection.Numbering
import HostWatch.Proofs.Detection.DefaultKeys
import HostWatch.Proofs.Indicator.Normal
