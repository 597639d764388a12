import CadPlot.Gateway.MemoryRuns
import CadPlot.Gateway.Agreement
import CadPlot.Gateway.ReplaySqlRuns
import CadPlot.Gateway.TransactionRuns
import CadPlot.Gateway.IngressRuns
import CadPlot.Worker.OutboxRuns
import CadPlot.Translation.StoreLaws
import CadPlot.Gateway.ApplySuccess
import CadPlot.Publish.ReceiptBinding
import CadPlot.Gateway.Isolation
import CadPlot.Gateway.DispatchLaws
import CadPlot.Gateway.ResultAdaptation
import CadPlot.Worker.DispatchRuns
import CadPlot.Gateway.QuotaRuns
import CadPlot.Publish.Jobs
import CadPlot.Gateway.MigrateRuns
import CadPlot.Publish.OutputTransactionLaws
import CadPlot.Gateway.CatalogRuns
import CadPlot.Audit.MarkingPrefix
import CadPlot.Publish.QueueAgreement
import CadPlot.Publish.PlotGeometry
import CadPlot.Gateway.WorkerAuthRuns
import CadPlot.Lib.JsonCodec
import CadPlot.Worker.ResultOutbox
import CadPlot.Worker.Display
import CadPlot.Worker.DispatchWindow
import CadPlot.Worker.PlanResult
import CadPlot.Lib.Paging
import CadPlot.Publish.OutputAudit
import CadPlot.Publish.Operations
import CadPlot.Publish.OperationsReport
import CadPlot.Gateway.Events
import CadPlot.Gateway.EventRuns
import CadPlot.TextPlan.Pieces
import CadPlot.TextPlan.Review
import CadPlot.TextPlan.ReviewLaws
import CadPlot.Drawing.BlockTexts
import CadPlot.Drawing.BlockTextLaws
import CadPlot.Drawing.Frames
import CadPlot.Drawing.FrameLaws
import CadPlot.Publish.QueueRecords
import CadPlot.Lib.Readers
import CadPlot.Drawing.LabelSources
import CadPlot.TextPlan.PieceLaws
import CadPlot.TextPlan.Tokens
import CadPlot.TextPlan.Relexing
import CadPlot.TextPlan.Rebuilding
import CadPlot.Lib.Base64
import CadPlot.Publish.QueueAuthentication
import CadPlot.Worker.ProjectRefs
import CadPlot.Worker.ProjectRefRuns
import CadPlot.Publish.StagedJobs
import CadPlot.Publish.StagedReaders
import CadPlot.Publish.StagedAgreement
import CadPlot.TextPlan.ApplyingLaws
import CadPlot.TextPlan.ServiceLaws
import CadPlot.Publish.QueueKeyStore
import CadPlot.Worker.DrawingRefRuns
import CadPlot.Publish.BatchRuns
import CadPlot.Publish.BatchQueueRuns
import CadPlot.Worker.RequestProofs
import CadPlot.Publish.Fingerprints
