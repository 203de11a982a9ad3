import Vigile.SingleFlight
import Vigile.TransactionAtomic
import Vigile.AuditChain
import Vigile.IntentExchange
import Vigile.NodeDeletion
import Vigile.ReplayGuard
import Vigile.ConnectionConservation
import Vigile.PluginLifecycle
import Vigile.OutboxOrder
import Vigile.AlertAgreement
import Vigile.AlertRecovery
import Vigile.CopilotAgreement
import Vigile.PluginKillSwitch
import Vigile.PluginLoad
import Vigile.RefreshRotation
import Vigile.NodeEvents
import Vigile.WorkerBinary
import Vigile.IntentDispatch
import Vigile.MetricsBuffer
import Vigile.WorkerCredentials
import Vigile.BudgetCaps
import Vigile.DiskScan
import Vigile.DirectoryUsage
import Vigile.PolicyCompilation
import Vigile.CronExpression
import Vigile.PathValidation
import Vigile.PathWhitelists
import Vigile.JournalHistogram
import Vigile.LogTail
import Vigile.DiskIO
import Vigile.ProcStat
import Vigile.ReleasePromotion
import Vigile.UpdateIntent
import Vigile.NodeFlag
import Vigile.AutoProfiling
import Vigile.Investigations
import Vigile.PolicyFile
import Vigile.ProtectedServices
import Vigile.DiskScanCache
import Vigile.RouteTable
import Vigile.StructuredLLM
import Vigile.ContainerMatch
import Vigile.AuthUrlGuard
import Vigile.PluginRegistry
import Vigile.NodeResolution
import Vigile.BatchDispatch
import Vigile.MarkdownBlocks
import Vigile.DiskSaturation
import Vigile.NodeStore
import Vigile.ApiClient
import Vigile.HookDrain
import Vigile.PluginProcess
import Vigile.ChatHistory
import Vigile.Inventory
import Vigile.ChatStore
import Vigile.Schedules
import Vigile.VersionOrder
import Vigile.ChatContext
import Vigile.SqlAgreement
import Vigile.BlockServing
import Vigile.WebSocketMessages
import Vigile.ConnectBackoff
