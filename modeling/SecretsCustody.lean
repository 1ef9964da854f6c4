import SecretsCustody.JsonText
import SecretsCustody.JsonRoundTrip
import SecretsCustody.Effect
import SecretsCustody.Models
import SecretsCustody.AssociatedData
import SecretsCustody.Crypto
import SecretsCustody.KeyedRows
import SecretsCustody.Tables
import SecretsCustody.Transaction
import SecretsCustody.Audit
import SecretsCustody.DelegationSigning
import SecretsCustody.Rows
import SecretsCustody.Store
import SecretsCustody.History
import SecretsCustody.StoreCases
import SecretsCustody.StoreExits
import SecretsCustody.StoreEffects
import SecretsCustody.Consistency
import SecretsCustody.Executions
import SecretsCustody.VersionHistory
import SecretsCustody.Provenance
import SecretsCustody.Generations
import SecretsCustody.Fidelity
import SecretsCustody.Revocation
import SecretsCustody.ExactRevocation
import SecretsCustody.Coherence
import SecretsCustody.Selections
import SecretsCustody.Evidence
import SecretsCustody.TamperEvidence
import SecretsCustody.CustodySchema
import SecretsCustody.Custody
import SecretsCustody.CustodyRuns
import SecretsCustody.Auth
import SecretsCustody.Interleaving
import SecretsCustody.Api
import SecretsCustody.Coupling
import SecretsCustody.Denial
import SecretsCustody.LowEquality
import SecretsCustody.StoreCoupling
import SecretsCustody.Secrecy
import SecretsCustody.Isolation
import SecretsCustody.Server
import SecretsCustody.Accounted
import SecretsCustody.Intent
import SecretsCustody.Guarded
import SecretsCustody.Bootstrap
import SecretsCustody.Bearer
import SecretsCustody.References
import SecretsCustody.JsonReading
import SecretsCustody.Tampering
import SecretsCustody.Loads
import SecretsCustody.FailsClosed
import SecretsCustody.AnsweredOnce
import SecretsCustody.BootstrapRead
import SecretsCustody.KeyCodec
import SecretsCustody.WholeRevocation
import SecretsCustody.PackageIntegrity
import SecretsCustody.GateRules
import SecretsCustody.SkipApprovals
import SecretsCustody.AccountedSkips
import SecretsCustody.HiddenSkips
import SecretsCustody.Tabulation
import SecretsCustody.Vault
import SecretsCustody.VaultRefinement
import SecretsCustody.Served
import SecretsCustody.Delivery
import SecretsCustody.Trail
import SecretsCustody.Nonces
import SecretsCustody.Erasure
import SecretsCustody.Tenants
import SecretsCustody.Control
import SecretsCustody.Startup
import SecretsCustody.Deployments
import SecretsCustody.Regexes
import SecretsCustody.Patterns
import SecretsCustody.Durability
import SecretsCustody.Linearization
import SecretsCustody.Service
