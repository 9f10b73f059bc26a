import Strimz.Tx
import Strimz.Runs
import Strimz.Evm
import Strimz.Registry
import Strimz.RegistrySteps
import Strimz.RegistryFees
import Strimz.Interfaces
import Strimz.PayerSignature
import Strimz.FeeCollector
import Strimz.Ledger
import Strimz.TokenLaws
import Strimz.Peers
import Strimz.Settlement
import Strimz.ReferenceToken
import Strimz.Subscriptions
import Strimz.SubscriptionSteps
import Strimz.Periods
import Strimz.ChargePeriods
import Strimz.Cancellation
import Strimz.PermitEnrolment
import Strimz.BatchCharge
import Strimz.Payments
import Strimz.PaymentSteps
import Strimz.PaymentAuthorization
import Strimz.System
import Strimz.SystemSteps
import Strimz.Conservation
import Strimz.AgentEscrow
import Strimz.EscrowJobs
import Strimz.EscrowCalls
import Strimz.EscrowSteps
import Strimz.EscrowToken
import Strimz.EscrowSolvency
import Strimz.EscrowExit
import Strimz.EscrowDispute
import Strimz.RegistryTakeover
import Strimz.IndexerEvents
import Strimz.Database
import Strimz.Projections
import Strimz.Projector
import Strimz.DeadLetters
import Strimz.ProjectionSteps
import Strimz.DeadLetterSteps
import Strimz.SessionSettlement
import Strimz.ChargeFailures
import Strimz.ProjectionFaults
import Strimz.Proc
import Strimz.Stream
import Strimz.StreamStalls
import Strimz.ProjectionFrame
import Strimz.StreamSteps
import Strimz.StreamCompleteness
import Strimz.StreamCutover
import Strimz.RefundOrder
import Strimz.OutboxProgress
import Strimz.DeliverySteps
import Strimz.DeliveryFinality
import Strimz.DeliveryRecovery
import Strimz.ChargeAttempts
import Strimz.Billing
import Strimz.BillingSweep
import Strimz.PeriodKeys
import Strimz.BillingRows
import Strimz.BillingPeriods
import Strimz.BillingFreshness
import Strimz.Relay
import Strimz.RelayNonces
import Strimz.RelayEffect
import Strimz.RelayQueue
import Strimz.RelayAttempts
import Strimz.RelayAttemptSteps
import Strimz.RelayOneAttempt
import Strimz.AgentJobs
import Strimz.InFlight
import Strimz.AgentJobSteps
import Strimz.AgentJobEscrow
import Strimz.AgentSpendCap
import Strimz.Idempotency
import Strimz.IdempotencySteps
import Strimz.IdempotencyRuns
import Strimz.IdempotencyExecution
import Strimz.Table
import Strimz.Sessions
import Strimz.SessionSteps
import Strimz.SessionStock
import Strimz.InvoiceFinality
import Strimz.SubscriptionLife
import Strimz.SubscriptionFinality
import Strimz.GasPricing
import Strimz.PlanInterval
import Strimz.AdminUsers
import Strimz.AdminUserSteps
import Strimz.LastSuperAdmin
import Strimz.AdminInvites
import Strimz.MerchantGuard
import Strimz.MerchantStatus
import Strimz.ApiKeys
import Strimz.ApiKeySteps
import Strimz.ApiKeyAuthority
import Strimz.Der
import Strimz.Ecdsa
import Strimz.Primality
import Strimz.Secp256k1
import Strimz.KmsSigner
import Strimz.SigningSecrets
import Strimz.SecretDrift
import Strimz.Replica
import Strimz.RegistryHistory
import Strimz.MerchantMirror
import Strimz.MirrorSteps
import Strimz.MirrorRuns
import Strimz.Binary64
import Strimz.Script
import Strimz.WebhookSignature
import Strimz.SignatureExactness
import Strimz.TxLoops
import Strimz.AccessControl
import Strimz.AdminContracts
import Strimz.AdminCalls
import Strimz.AdminHandoff
import Strimz.HandoffRun
import Strimz.HandoffConfinement
import Strimz.NotificationLanes
import Strimz.Objects
import Strimz.MerchantPrefs
import Strimz.Invoices
import Strimz.InvoiceSequence
import Strimz.PlanEnrolment
import Strimz.TrialEnrolments
import Strimz.Url
import Strimz.AuthRedirect
import Strimz.Base64url
import Strimz.JsonText
import Strimz.Keyset
import Strimz.LifetimeValue
import Strimz.LaneRuns
import Strimz.RetryQueue
import Strimz.RetryRuns
import Strimz.UnpaidDates
import Strimz.Recovery
import Strimz.GraceWindow
import Strimz.SubscriptionLogs
import Strimz.SubscriptionMirror
import Strimz.MirroredRows
import Strimz.MirroredLogs
import Strimz.MirroredCharges
import Strimz.MirroredEnrolments
import Strimz.MirroredRuns
import Strimz.KeptRows
import Strimz.Replay
import Strimz.ReplayRuns
import Strimz.TypedData
import Strimz.TypedIntents
import Strimz.CheckoutEnrolments
import Strimz.FixedWindow
import Strimz.RateLimit
import Strimz.RelayBudget
import Strimz.AgentRegistry
import Strimz.AgentRecords
