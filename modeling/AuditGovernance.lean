import AuditGovernance.Framework.FiniteMap
import AuditGovernance.Framework.Framing
import AuditGovernance.Framework.ThreeWayMerge
import AuditGovernance.Framework.Transition
import AuditGovernance.Framework.LineLog
import AuditGovernance.Framework.Segments
import AuditGovernance.Framework.HashChain
import AuditGovernance.Framework.Sha256
import AuditGovernance.Framework.Grouping
import AuditGovernance.Framework.PathClean
import AuditGovernance.Framework.PercentCode
import AuditGovernance.Framework.Decimal
import AuditGovernance.Framework.Binary64
import AuditGovernance.Framework.Base64
import AuditGovernance.Framework.Paging
import AuditGovernance.Framework.Ranging
import AuditGovernance.Framework.Narrowing
import AuditGovernance.Framework.Interleaving
import AuditGovernance.Framework.SelfDelimiting
import AuditGovernance.Framework.FixedWindow
import AuditGovernance.Framework.Evolution
import AuditGovernance.Domain.Types
import AuditGovernance.Domain.JsonText
import AuditGovernance.Domain.Timestamp
import AuditGovernance.Domain.CanonicalJson
import AuditGovernance.Domain.Numbers
import AuditGovernance.Domain.NumberGrammar
import AuditGovernance.Domain.EventJson
import AuditGovernance.Domain.CanonicalValue
import AuditGovernance.Domain.Cursors
import AuditGovernance.Domain.JsonLines
import AuditGovernance.Domain.ZonedTime
import AuditGovernance.Domain.EventNumbers
import AuditGovernance.Domain.InMemory
import AuditGovernance.Store.Keys
import AuditGovernance.Domain.Identifiers
import AuditGovernance.Store.FileNames
import AuditGovernance.Store.Ledger
import AuditGovernance.Store.LedgerInvariant
import AuditGovernance.Store.LedgerView
import AuditGovernance.Store.LedgerIndexes
import AuditGovernance.Store.Snapshot
import AuditGovernance.Store.Split
import AuditGovernance.Store.Rebuild
import AuditGovernance.Store.FileStore
import AuditGovernance.Store.FileCommit
import AuditGovernance.Store.AwaitingRecovery
import AuditGovernance.Store.Coherence
import AuditGovernance.Store.AppendOnly
import AuditGovernance.Store.LedgerFile
import AuditGovernance.Store.ControlMerge
import AuditGovernance.Store.Postgres
import AuditGovernance.Store.PostgresCommit
import AuditGovernance.Store.LedgerPages
import AuditGovernance.Store.TenantStore
import AuditGovernance.Store.ControlReplicas
import AuditGovernance.Store.LegacyReplicas
import AuditGovernance.Store.AdminTrail
import AuditGovernance.Store.TrailModes
import AuditGovernance.Service.Digest
import AuditGovernance.Service.Environment
import AuditGovernance.Service.Ingest
import AuditGovernance.Service.Workers
import AuditGovernance.Service.Evidence
import AuditGovernance.Service.Transactions
import AuditGovernance.Service.Recovery
import AuditGovernance.Service.Admission
import AuditGovernance.Service.Quota
import AuditGovernance.Service.ArchiveKeys
import AuditGovernance.Service.Schemas
import AuditGovernance.Service.Decisions
import AuditGovernance.Service.SchemaEvolution
import AuditGovernance.Service.StreamNames
import AuditGovernance.Service.FieldProtection
import AuditGovernance.Service.TamperEvidence
import AuditGovernance.Service.Persistence
import AuditGovernance.Archive.KeyBytes
import AuditGovernance.Service.Operations
import AuditGovernance.Service.LedgerRuns
import AuditGovernance.Kafka.Replay
import AuditGovernance.Kafka.Consumer
import AuditGovernance.Kafka.ReplayBarrier
import AuditGovernance.Kafka.TenantReplay
import AuditGovernance.Kafka.TenantLosses
import AuditGovernance.Service.QueryMatch
import AuditGovernance.Service.Retention
import AuditGovernance.Service.AggregateCheckpoints
import AuditGovernance.Service.EvidenceReads
import AuditGovernance.Service.ConsolePages
import AuditGovernance.Service.TimelinePages
import AuditGovernance.Service.AdminListing
import AuditGovernance.Service.LedgeredGate
import AuditGovernance.Service.Framings
import AuditGovernance.Projection.Confirmed
import AuditGovernance.Projection.Query
import AuditGovernance.Projection.Watermark
import AuditGovernance.Export.Scheduling
import AuditGovernance.Export.HoldGate
import AuditGovernance.Grpc.Limits
import AuditGovernance.Outbox.Relay
import AuditGovernance.Outbox.Deliveries
import AuditGovernance.Outbox.Insert
