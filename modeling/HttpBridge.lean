import HttpBridge.Revocation
import HttpBridge.SingleUse
import HttpBridge.TenantGate
import HttpBridge.DeploymentRoles
import HttpBridge.RoleScope
import HttpBridge.SecondFactor
import HttpBridge.SignOut
import HttpBridge.TenantBoundary
import HttpBridge.GateStaleness
import HttpBridge.ServiceKeys
import HttpBridge.CredentialKinds
import HttpBridge.FactorKept
import HttpBridge.GraceEnrollment
import HttpBridge.Records
import HttpBridge.UsableSessions
import HttpBridge.ReservedHeader
import HttpBridge.ClientAddress
import HttpBridge.Failover
import HttpBridge.MandateStaleness
import HttpBridge.Ranges
import HttpBridge.Uploads
import HttpBridge.ReturnUrls
import HttpBridge.EmailAttestation
import HttpBridge.OAuthFlows
import HttpBridge.CoreCalls
import HttpBridge.JsonBodies
import HttpBridge.ResponseText
import HttpBridge.RangeArithmetic
import HttpBridge.AddressBinding
import HttpBridge.BodyCap
import HttpBridge.BodyFields
import HttpBridge.DirectoryFilters
import HttpBridge.FaithfulBodies
import HttpBridge.GroupTenants
import HttpBridge.PartialAnswers
import HttpBridge.TenantScope
import HttpBridge.TenantLabels
import HttpBridge.CidrBlocks
import HttpBridge.Base64Url
import HttpBridge.OAuthRequests
import HttpBridge.Listings
import HttpBridge.KeyRotation
import HttpBridge.ProviderConfigs
import HttpBridge.AssertionTokens
import HttpBridge.EffectiveRoles
import HttpBridge.CacheBound
import HttpBridge.TenantTemplates
import HttpBridge.Interact.Commit
import HttpBridge.CoreChanges
import HttpBridge.Redis
import HttpBridge.RedisClients
import HttpBridge.RevocationStore
import HttpBridge.SessionTokens
import HttpBridge.LdapReleases
import HttpBridge.RecentRefusals
import HttpBridge.Startup
