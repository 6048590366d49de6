import CloudTrailFilter.Filter.Literals
import CloudTrailFilter.Filter.Legacy
import CloudTrailFilter.Process.Progress
import CloudTrailFilter.Process.Survivors
import CloudTrailFilter.Process.Chunked
import CloudTrailFilter.Process.Readers
import CloudTrailFilter.Config.Store
import CloudTrailFilter.Decode.Topology
import CloudTrailFilter.Decode.FormKey
import CloudTrailFilter.Aws.PutStream
import CloudTrailFilter.Pipeline.Acknowledge
import CloudTrailFilter.Pipeline.Billing
import CloudTrailFilter.Pipeline.Cap
import CloudTrailFilter.Pipeline.Preview
import CloudTrailFilter.Pipeline.Redelivery
import CloudTrailFilter.Cli.Filterer
import CloudTrailFilter.Cli.Overwrite
import CloudTrailFilter.Pipeline.Serving
import CloudTrailFilter.Pipeline.Queue
import CloudTrailFilter.Cli.Rules
import CloudTrailFilter.Cli.LocalStore
import CloudTrailFilter.Cli.Sample
import CloudTrailFilter.Decode.EventBridge
import CloudTrailFilter.Config.Interleaved
import CloudTrailFilter.Settings.Wiring
import CloudTrailFilter.Filter.Explain
import CloudTrailFilter.Config.Uri
import CloudTrailFilter.Process.Bounded
import CloudTrailFilter.Process.Stages
import CloudTrailFilter.Cli.Report
