import MapProtocol.Adapters.InternalHosts
import MapProtocol.Adapters.RowLimits
import MapProtocol.Adapters.SingleStatement
import MapProtocol.ControlPlane.ContextIds
import MapProtocol.ControlPlane.Effects
import MapProtocol.ControlPlane.FailedDispatch
import MapProtocol.ControlPlane.Idempotency
import MapProtocol.ControlPlane.Negotiation
import MapProtocol.ControlPlane.Payloads
import MapProtocol.ControlPlane.QueueFairness
import MapProtocol.ControlPlane.QueueFates
import MapProtocol.ControlPlane.QueueWakeups
import MapProtocol.ControlPlane.QueuedPolicy
import MapProtocol.ControlPlane.ReceiptIntegrity
import MapProtocol.ControlPlane.ReceiptRuns
import MapProtocol.ControlPlane.Settlements
import MapProtocol.ControlPlane.SignedReceipts
import MapProtocol.ControlPlane.StoreAtomicity
import MapProtocol.ControlPlane.StoresAgree
import MapProtocol.ControlPlane.TaskLife
import MapProtocol.ControlPlane.TaskPhases
import MapProtocol.ControlPlane.TaskRestart
import MapProtocol.ControlPlane.TenantReads
import MapProtocol.Core.CapabilityGlobs
import MapProtocol.Core.Engines
import MapProtocol.Integration.BuiltQueries
import MapProtocol.Integration.EcpBridge
import MapProtocol.Js.Json
import MapProtocol.Map
import MapProtocol.MapApprovals
import MapProtocol.MapPolicies
import MapProtocol.Protocol.Validation
import MapProtocol.Protocol.Versions
import MapProtocol.Runtime.Delegation
import MapProtocol.Runtime.MicroAgent
import MapProtocol.Sdk.Agreement
import MapProtocol.Sdk.Batches
import MapProtocol.Sdk.Cancellation
import MapProtocol.Sdk.EventStreams
import MapProtocol.Sdk.GoReads
import MapProtocol.Sdk.GoTransport
import MapProtocol.Sdk.MemoryStores
import MapProtocol.Sdk.MetricExports
import MapProtocol.Sdk.PolicyAgreement
import MapProtocol.Sdk.ReceiptEvictions
import MapProtocol.Sdk.Retries
import MapProtocol.Sdk.Schemas
import MapProtocol.Sdk.StorageAgreement
import MapProtocol.Sdk.TenantPolicies
import MapProtocol.Sdk.WebSocketAnswers
import MapProtocol.Sdk.WebhookRetries
import MapProtocol.Security.Canonicalization
import MapProtocol.Security.KeyCompromise
import MapProtocol.Security.KeySelection
import MapProtocol.Security.NonceRuns
import MapProtocol.Security.Wire
import MapProtocol.Server.AgentControls
import MapProtocol.Server.AlertScopes
import MapProtocol.Server.ApprovalSignatures
import MapProtocol.Server.AuditTampering
import MapProtocol.Server.Handler
import MapProtocol.Server.OAuth
import MapProtocol.Server.PolicyValidator
import MapProtocol.Server.ReadRoutes
import MapProtocol.Server.Replay
import MapProtocol.Server.SigningAnomalies
import MapProtocol.Server.SloMonitor
import MapProtocol.Server.StateRestart
import MapProtocol.SimpleRules
