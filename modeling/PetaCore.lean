import PetaCore.Spec.ApprovalRequirement
import PetaCore.Spec.Settlement
import PetaCore.Spec.PolicyFreshness
import PetaCore.Spec.ResultCacheStore
import PetaCore.Spec.CachePurge
import PetaCore.Spec.ClientMetadata
import PetaCore.Spec.ClientRequests
import PetaCore.Spec.ModernMcpController
import PetaCore.Spec.GatewayNames
import PetaCore.Spec.ProxySession
import PetaCore.Spec.CatalogPaging
import PetaCore.Spec.Discovery
import PetaCore.Spec.DiscoveryIndex
import PetaCore.Spec.ServerStarts
import PetaCore.Spec.TransportClose
import PetaCore.Spec.IdleCheck
import PetaCore.Spec.TemporaryServers
import PetaCore.Spec.SessionReconnect
import PetaCore.Spec.DisabledUser
import PetaCore.Spec.SessionPermissions
import PetaCore.Spec.OwnerAccount
import PetaCore.Spec.UserSettings
import PetaCore.Spec.Subscribers
import PetaCore.Spec.LogService
import PetaCore.Spec.LogSyncService
import PetaCore.Spec.IpWhitelist
import PetaCore.Spec.ClaimedCall
import PetaCore.Spec.DeskAuthorization
import PetaCore.Spec.SubscriptionListen
import PetaCore.Spec.MirroredHeaders
import PetaCore.Spec.PolicyDsl
import PetaCore.Spec.MemoryCache
import PetaCore.Spec.ExecutionResult
import PetaCore.Spec.CacheSerializer
import PetaCore.Spec.ApprovalLimits
import PetaCore.Spec.PolicyGlob
import PetaCore.Spec.PolicyVariables
import PetaCore.Spec.OAuthClientService
import PetaCore.Spec.AccessTokens
import PetaCore.Spec.AppHtml
import PetaCore.Spec.ServerConnection
import PetaCore.Spec.LaunchConfig
import PetaCore.Spec.ConfigureServer
import PetaCore.Spec.SubscribeCall
import PetaCore.Spec.PersistentEventStore
import PetaCore.Spec.RateLimitService
import PetaCore.Spec.IpAllowed
import PetaCore.Spec.ClientMetadataNetwork
import PetaCore.Spec.SubscriptionStream
import PetaCore.Spec.ConsentPage
import PetaCore.Spec.CryptoService
import PetaCore.Spec.SkillsService
import PetaCore.Spec.LogLines
import PetaCore.Spec.SkillList
import PetaCore.Spec.ZipExtraction
