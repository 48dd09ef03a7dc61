import Mocop.Persistence.RollupRun
import Mocop.Inventory.Commit
import Mocop.Processes.Restart
import Mocop.Processes.Chronicle
import Mocop.Reports.Conservation
import Mocop.Service.Recurrence
import Mocop.Incidents.Coverage
import Mocop.Scheduler.CleanStart
import Mocop.Scheduler.Backoff
import Mocop.Scheduler.ManualRequests
import Mocop.Persistence.NoSilentLoss
import Mocop.Dashboard.KeyedLoader
import Mocop.Dashboard.WatchEvaluation
import Mocop.Service.FeedRevision
import Mocop.Processes.Identities
import Mocop.Persistence.Restorable
import Mocop.Service.Reconfigure
import Mocop.Probe.ActivityHints
import Mocop.Reports.Attention
import Mocop.Dashboard.AttentionPartition
import Mocop.Dashboard.ProcessSearch
import Mocop.Topology.Expansion
import Mocop.Reports.DiagnosticBundle
import Mocop.Reports.OpenMetricsSeries
import Mocop.Dashboard.CsvExport
import Mocop.Service.UpdateRuns
import Mocop.Inventory.MigrationOutcome
import Mocop.Topology.Planner
import Mocop.Dashboard.ContractAcceptance
import Mocop.Dashboard.StreamReader
import Mocop.Dashboard.IncidentDelivery
import Mocop.Web.Pipeline
import Mocop.Web.PayloadCache
import Mocop.Probe.ProcessCancellation
