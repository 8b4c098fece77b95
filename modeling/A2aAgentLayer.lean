import A2aAgentLayer.Lib.RecordedDigest
import A2aAgentLayer.Lib.Run
import A2aAgentLayer.Lib.Timeline
import A2aAgentLayer.Lib.Instances
import A2aAgentLayer.Lib.Linearize
import A2aAgentLayer.Lib.Delimiter
import A2aAgentLayer.Lib.Glob
import A2aAgentLayer.Lib.KeyedStore
import A2aAgentLayer.Lib.KeyedFold
import A2aAgentLayer.Lib.Histogram
import A2aAgentLayer.Lib.Utf16
import A2aAgentLayer.Lib.JsText
import A2aAgentLayer.Lib.HexText
import A2aAgentLayer.Lib.TextReplace
import A2aAgentLayer.Lib.TextPieces
import A2aAgentLayer.Lib.PercentDecoding
import A2aAgentLayer.Lib.NumberText
import A2aAgentLayer.Lib.DecimalValue
import A2aAgentLayer.Lib.WholeDouble
import A2aAgentLayer.Lib.JsonTree
import A2aAgentLayer.Lib.JsonText
import A2aAgentLayer.Lib.JsObject
import A2aAgentLayer.Lib.JsonRewrite
import A2aAgentLayer.Lib.JsonMask
import A2aAgentLayer.Lib.Jsonb
import A2aAgentLayer.Lib.EntityTable
import A2aAgentLayer.Lib.LikePattern
import A2aAgentLayer.Lib.OrderedRows
import A2aAgentLayer.Lib.Ddl
import A2aAgentLayer.Lib.Migrations
import A2aAgentLayer.Common.FieldValidators
import A2aAgentLayer.Common.SanitizePipe
import A2aAgentLayer.Common.HtmlEntities
import A2aAgentLayer.Common.SanitizedText
import A2aAgentLayer.Common.SanitizedBody
import A2aAgentLayer.Common.RequestHeaders
import A2aAgentLayer.Crypto.RequestCanonicalization
import A2aAgentLayer.Common.CookieHeader
import A2aAgentLayer.Common.CsrfMiddleware
import A2aAgentLayer.Common.CsrfRejections
import A2aAgentLayer.Common.PinoLogger
import A2aAgentLayer.Common.RequestPipeline
import A2aAgentLayer.Common.ServedRequests
import A2aAgentLayer.Common.HiddenAnswers
import A2aAgentLayer.Metering.MeteringService
import A2aAgentLayer.Metering.ReceiptRows
import A2aAgentLayer.Metering.Ledger
import A2aAgentLayer.Metering.RollupJob
import A2aAgentLayer.Metering.RollupBounds
import A2aAgentLayer.Metering.RollupTimer
import A2aAgentLayer.Metering.RollupHistory
import A2aAgentLayer.Metering.OverlappingRollups
import A2aAgentLayer.Observability.DomainGauges
import A2aAgentLayer.Observability.RollupMetrics
import A2aAgentLayer.Observability.HttpMetrics
import A2aAgentLayer.Policies.Evaluator
import A2aAgentLayer.Policies.Wildcards
import A2aAgentLayer.Policies.DefaultDeny
import A2aAgentLayer.Policies.StoredRules
import A2aAgentLayer.Policies.PolicyHistory
import A2aAgentLayer.Observability.DecisionMetrics
import A2aAgentLayer.Protocol.NonceStore
import A2aAgentLayer.Protocol.NonceHistory
import A2aAgentLayer.Protocol.Processing
import A2aAgentLayer.Protocol.RequestHash
import A2aAgentLayer.Protocol.HandleRequest
import A2aAgentLayer.Protocol.HandleRuns
import A2aAgentLayer.Protocol.ReplayProtection
import A2aAgentLayer.Protocol.PolicyDecisions
import A2aAgentLayer.Protocol.MeteredCalls
import A2aAgentLayer.Protocol.BudgetLimit
import A2aAgentLayer.Metering.StoredReceipts
import A2aAgentLayer.Metering.SignedReceipts
import A2aAgentLayer.Auth.RefreshToken
import A2aAgentLayer.Auth.RefreshRuns
import A2aAgentLayer.Auth.SingleUse
import A2aAgentLayer.Auth.TokenLines
import A2aAgentLayer.Auth.Guards
import A2aAgentLayer.Auth.ApiKeyService
import A2aAgentLayer.Auth.TokenDurations
import A2aAgentLayer.Auth.RevokedLifetimes
import A2aAgentLayer.Auth.PasswordService
import A2aAgentLayer.Identity.DidController
import A2aAgentLayer.Observability.ControllerMetrics
import A2aAgentLayer.Identity.AgentRows
import A2aAgentLayer.Observability.GaugeRefresh
import A2aAgentLayer.Observability.RefreshInvariant
import A2aAgentLayer.Observability.FairRefresh
import A2aAgentLayer.Observability.Scrapes
import A2aAgentLayer.Identity.ConcurrentEdits
import A2aAgentLayer.Contracts.AgentRegistry
import A2aAgentLayer.Contracts.AgentLifecycle
import A2aAgentLayer.Contracts.AgentEvents
import A2aAgentLayer.Contracts.ServiceCatalog
import A2aAgentLayer.Contracts.CatalogLifecycle
import A2aAgentLayer.Contracts.TariffRegistry
import A2aAgentLayer.Identity.IdentityService
import A2aAgentLayer.Identity.RegistryMirror
import A2aAgentLayer.Identity.ConcurrentRegistrations
import A2aAgentLayer.Identity.OneRegistration
import A2aAgentLayer.Identity.SignedRows
import A2aAgentLayer.Blockchain.NonceManager
import A2aAgentLayer.Blockchain.NonceAllocation
import A2aAgentLayer.Blockchain.ConfirmationPolicy
import A2aAgentLayer.Blockchain.FinalityWait
import A2aAgentLayer.Blockchain.ReceiptPoller
import A2aAgentLayer.Blockchain.RetryUtil
import A2aAgentLayer.Blockchain.RetryRuns
import A2aAgentLayer.Blockchain.RetryWaits
import A2aAgentLayer.Identity.OnChainRegistration
import A2aAgentLayer.Pricing.PricingService
import A2aAgentLayer.Catalog.CatalogService
import A2aAgentLayer.Catalog.CatalogPages
import A2aAgentLayer.Health.HealthService
import A2aAgentLayer.Migrations.SchemaHistory
