import Stargate.Base.Transition
import Stargate.Base.Sessions
import Stargate.Base.Table
import Stargate.Base.SortedSet
import Stargate.Base.PartialUpdate
import Stargate.Base.EcmaScript
import Stargate.Stellar.MuxedAddress
import Stargate.Stellar.PaymentXdr
import Stargate.Schema
import Stargate.Idempotency.Keys
import Stargate.Reconciler.Payment
import Stargate.Reconciler.Matcher
import Stargate.Reconciler.MuxedRoundTrip
import Stargate.Reconciler.Processor
import Stargate.Reconciler.PrintedMuxedIds
import Stargate.Reconciler.Phases
import Stargate.Reconciler.CreditSoundness
import Stargate.Reconciler.CreditCompleteness
import Stargate.Reconciler.System
import Stargate.Reconciler.AtMostOnce
import Stargate.Reconciler.InvoiceRows
import Stargate.Reconciler.InvoiceStates
import Stargate.Reconciler.PaidStatus
import Stargate.Reconciler.Redelivery
import Stargate.Reconciler.Book
import Stargate.Reconciler.Scaling
import Stargate.Invoices.Units
import Stargate.Invoices.Lifecycle
import Stargate.Settlement.DailySettlements
import Stargate.Settlement.Payout
import Stargate.Settlement.ClaimedRows
import Stargate.Settlement.RefundedInvoices
import Stargate.Settlement.AtomicSettlements
import Stargate.Settlement.DeferredSettlements
import Stargate.Settlement.StatusStream
import Stargate.Invoices.Create
import Stargate.Invoices.Bookkeeping
import Stargate.Invoices.Fees
import Stargate.Invoices.CreateBulk
import Stargate.Invoices.AmountSpelling
import Stargate.Invoices.AmountText
import Stargate.Invoices.BulkAtomicity
import Stargate.Invoices.SpendLimits
import Stargate.Invoices.SpendCaps
import Stargate.Invoices.InvoiceSequence
import Stargate.Invoices.CreateCalls
import Stargate.Invoices.MuxedIds
import Stargate.Idempotency.InvoiceKeys
import Stargate.Idempotency.KeyConflicts
import Stargate.Invoices.Refunds
import Stargate.Disputes.Create
import Stargate.Idempotency.Endpoints
import Stargate.Invoices.WholeCalls
import Stargate.Invoices.PartialPayments
import Stargate.Invoices.Pagination
import Stargate.Reconciler.PartialBalance
import Stargate.Reconciler.AmountCheck
import Stargate.Reconciler.SerialBooks
import Stargate.Reconciler.Stream
import Stargate.Reconciler.Cursor
import Stargate.Reconciler.EventRecording
import Stargate.Reconciler.ResponseBody
import Stargate.Reconciler.Platform
import Stargate.Reconciler.Postings
import Stargate.Reconciler.Announcements
import Stargate.Reconciler.AnnouncedOnce
import Stargate.Payments.PrepareTx
import Stargate.Payments.EventStreams
import Stargate.Invoices.RefundPayments
import Stargate.Webhooks.Deliveries
import Stargate.Webhooks.Attempts
import Stargate.Webhooks.OverlappingTicks
import Stargate.Webhooks.Accounting
import Stargate.Webhooks.Secrets
import Stargate.Auth.RefreshTokens
import Stargate.TeamMembers.Invites
import Stargate.TeamMembers.Logins
import Stargate.Base.Json
import Stargate.Base.JsonText
import Stargate.Base.NumberText
import Stargate.Base.Positional
import Stargate.Base.DigitStrings
import Stargate.Base.StringOrder
import Stargate.Base.Calendar
import Stargate.Schedules.NextRun
import Stargate.Database.Migrations
import Stargate.Base.Sql
import Stargate.Base.Statements
import Stargate.Audit.Schema
import Stargate.Audit.CredentialAudits
import Stargate.Tenants.Services
import Stargate.Tenants.Isolation
import Stargate.ApiKeys.IpAllowList
import Stargate.Base.LeadingBits
import Stargate.ApiKeys.Cidr
import Stargate.Compliance.CacheFormat
import Stargate.Compliance.Screening
import Stargate.Compliance.Velocity
import Stargate.Merchants.Update
import Stargate.Merchants.UnpaidInvoices
import Stargate.Disputes.Patch
import Stargate.Invoices.SchemaErrors
import Stargate.Graphql.CreateInvoice
import Stargate.Reconciler.SorobanIndexer
import Stargate.Reconciler.Repolling
import Stargate.Base.OffsetPages
import Stargate.Base.Grouping
import Stargate.Database.OffsetLists
import Stargate.SorobanEvents.List
import Stargate.PaymentLinks.Analytics
import Stargate.ApiKeys.LifeCycle
import Stargate.TeamMembers.Access
import Stargate.Base.DoubleSums
import Stargate.Base.DoubleProducts
import Stargate.Balance.MerchantBalance
import Stargate.Auth.Accounts
import Stargate.Schedules.Updates
import Stargate.Base.JsonLines
import Stargate.Http.Requests
import Stargate.Base.HttpMessage
import Stargate.Reconciler.StatusServer
import Stargate.Reconciler.Recipients
import Stargate.Base.Potential
import Stargate.Webhooks.Waiting
import Stargate.Reconciler.Evidence
import Stargate.Webhooks.Notifications
