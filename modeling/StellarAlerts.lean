import StellarAlerts.RegistryAuthority
import StellarAlerts.RegistryQuorum
import StellarAlerts.RegistrySubscriptions
import StellarAlerts.WalletLeases
import StellarAlerts.StreamOrder
import StellarAlerts.OutboxRelay
import StellarAlerts.DeliveryLifecycle
import StellarAlerts.DeliveryGate
import StellarAlerts.WebhookDispatch
import StellarAlerts.StreamReplicas
import StellarAlerts.DailyRoots
import StellarAlerts.WebhookSignedData
import StellarAlerts.WebhookReplay
import StellarAlerts.SessionRotation
import StellarAlerts.CircuitOpening
import StellarAlerts.CircuitAdmission
import StellarAlerts.BatchDispatcher
import StellarAlerts.DeadLetterPages
import StellarAlerts.PaymentPages
import StellarAlerts.WebhookLogPages
import StellarAlerts.RiskStability
import StellarAlerts.AssetThresholds
import StellarAlerts.FirstSync
import StellarAlerts.HorizonContinuity
import StellarAlerts.RuleVersions
import StellarAlerts.RuleCandidates
import StellarAlerts.SdkReplays
import StellarAlerts.SdkAgreement
import StellarAlerts.ContractRouter
import StellarAlerts.SorobanTopicIndexer
import StellarAlerts.SorobanBackfill
import StellarAlerts.PaymentArchival
import StellarAlerts.PayloadPrivacy
import StellarAlerts.WebhookSecrets
import StellarAlerts.ReplayWindow
import StellarAlerts.TokenBlocklist
import StellarAlerts.DidChallenges
import StellarAlerts.RecoveryLimits
import StellarAlerts.Sep10Sessions
import StellarAlerts.AlertAudit
import StellarAlerts.ExportLifecycle
import StellarAlerts.MultiRegionSync
import StellarAlerts.ReadRouting
import StellarAlerts.ClientRegistry
import StellarAlerts.ProfileSecrets
import StellarAlerts.MultisigBuilder
import StellarAlerts.MuxedAddresses
import StellarAlerts.StrKeyTypos
import StellarAlerts.FilterBuilders
import StellarAlerts.RuleOperators
import StellarAlerts.DeliveryFailures
import StellarAlerts.DlqReplay
import StellarAlerts.ChecksumPayloads
import StellarAlerts.SsrfFetch
import StellarAlerts.RuleSignatures
import StellarAlerts.StreamResumption
import StellarAlerts.AuthCoverage
import StellarAlerts.RiskAssessment
import StellarAlerts.DrainBlocking
import StellarAlerts.WhaleDetector
import StellarAlerts.TaxReports
import StellarAlerts.StatePatches
import StellarAlerts.LiquidDocuments
import StellarAlerts.SignatureTracking
import StellarAlerts.AccountErasure
import StellarAlerts.SacTransfers
import StellarAlerts.TokenBucket
import StellarAlerts.SignerInactivity
import StellarAlerts.GraphSpellings
import StellarAlerts.GrowthScan
import StellarAlerts.PaymentExport
