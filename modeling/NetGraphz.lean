import NetGraphz.Base.Heap
import NetGraphz.Base.History
import NetGraphz.Base.GoTime
import NetGraphz.Base.Intervals
import NetGraphz.Base.Batches
import NetGraphz.StateCacheProofs
import NetGraphz.MemoryStorageProofs
import NetGraphz.Base.NodeText
import NetGraphz.Authenticator
import NetGraphz.EventHandler
import NetGraphz.RateLimitProofs
import NetGraphz.AggregationProofs
import NetGraphz.StatusService
import NetGraphz.SourcePasses
import NetGraphz.StatusServiceProofs
import NetGraphz.CacheTransparency
import NetGraphz.Base.JsValue
import NetGraphz.ClientStore
import NetGraphz.NodeUpdateProofs
import NetGraphz.Base.GoFloat
import NetGraphz.GraphStorage
import NetGraphz.RpcFormater
import NetGraphz.RpcServer
import NetGraphz.NodeEndpointProofs
import NetGraphz.Base.Paging
import NetGraphz.NodeParts
import NetGraphz.InitialLoad
import NetGraphz.ClientUpdater
import NetGraphz.ClientUpdaterProofs
import NetGraphz.UpdateRotation
import NetGraphz.GraphLinks
import NetGraphz.Base.DepthFirst
import NetGraphz.ConfigGenerator
import NetGraphz.ConfigGeneratorProofs
import NetGraphz.RateBoundProofs
import NetGraphz.UserStore
import NetGraphz.Auth
import NetGraphz.AuthProofs
import NetGraphz.Signup
import NetGraphz.Base.JsNumber
import NetGraphz.GraphStore
import NetGraphz.GraphRenderer
import NetGraphz.RendererProofs
import NetGraphz.NodePainting
import NetGraphz.EdgePainting
import NetGraphz.LastValuesProofs
import NetGraphz.TimeRangeProofs
import NetGraphz.HostIndexProofs
import NetGraphz.Base.Separators
import NetGraphz.MetricStringProofs
import NetGraphz.Base.ShuffledPages
import NetGraphz.CollectdSourceProofs
import NetGraphz.MetricPaging
import NetGraphz.ConcurrentAdditions
import NetGraphz.Fetcher
import NetGraphz.BearerProofs
import NetGraphz.CacheRemovalProofs
import NetGraphz.SingleLookup
import NetGraphz.DerivationProofs
import NetGraphz.FetchOrderProofs
import NetGraphz.AllowanceProofs
import NetGraphz.MetricKinds
import NetGraphz.HomogeneityProofs
import NetGraphz.Base.Binary64
import NetGraphz.Base.GoConversions
import NetGraphz.CounterRates
import NetGraphz.Base.IPText
import NetGraphz.Base.Regexp
import NetGraphz.Base.Livestatus
import NetGraphz.IcingaSource
import NetGraphz.EffectiveStates
import NetGraphz.HostsTable
import NetGraphz.AddressFilters
import NetGraphz.AddressForms
import NetGraphz.TemporaryBlock
import NetGraphz.Base.RWMutex
import NetGraphz.CacheLocks
import NetGraphz.Base.Tally
import NetGraphz.SourceLock
import NetGraphz.AddressLookup
import NetGraphz.Base.Multimap
import NetGraphz.AddressLookupProofs
import NetGraphz.LoginRelations
import NetGraphz.Logout
import NetGraphz.Base.Fallible
import NetGraphz.Base.Replacing
import NetGraphz.DependencyBlocks
import NetGraphz.LookupById
import NetGraphz.LinkPaging
import NetGraphz.Base.Rounds
import NetGraphz.TabStop
import NetGraphz.TabQueue
import NetGraphz.TabPresses
import NetGraphz.Base.Timeouts
import NetGraphz.Panel
import NetGraphz.NodePanel
import NetGraphz.PanelUpdates
import NetGraphz.LinkPanel
import NetGraphz.PanelTimers
import NetGraphz.Base.PairText
import NetGraphz.EdgeDrawing
import NetGraphz.Base.Renaming
import NetGraphz.GraphRecords
import NetGraphz.GraphRecordProofs
import NetGraphz.Base.GoIntegers
import NetGraphz.LinkExchange
import NetGraphz.RowNumbers
import NetGraphz.Base.PropertyGraph
import NetGraphz.NodeDeletion
import NetGraphz.HsvColors
import NetGraphz.Base.Pattern
import NetGraphz.CliOptions
import NetGraphz.Base.JsText
import NetGraphz.SettingsTrees
import NetGraphz.Base.Loops
import NetGraphz.PropertyTags
import NetGraphz.TagFilling
import NetGraphz.TagLoops
import NetGraphz.QueueLatency
import NetGraphz.Base.InFlight
import NetGraphz.NotificationDelivery
import NetGraphz.DeliveryProofs
import NetGraphz.Base.ParseInt
import NetGraphz.Communication
import NetGraphz.CollectedUpdates
import NetGraphz.EventBus
import NetGraphz.EventBusProofs
import NetGraphz.EventBusRuns
import NetGraphz.Base.Documents
import NetGraphz.UserPositions
import NetGraphz.PositionProofs
import NetGraphz.SavedLayouts
import NetGraphz.AccountVisits
import NetGraphz.SessionOrigins
import NetGraphz.SessionRuns
import NetGraphz.Base.InetNtop
import NetGraphz.RpcAdapter
import NetGraphz.ConcurrentLookups
import NetGraphz.LoneLookups
import NetGraphz.LookupOrigins
import NetGraphz.KeptAnswers
import NetGraphz.Base.GoText
import NetGraphz.Shell
import NetGraphz.ShellSessions
import NetGraphz.TypedRequests
import NetGraphz.PageStart
import NetGraphz.StartCounts
import NetGraphz.SingleStart
import NetGraphz.ShownMetrics
import NetGraphz.FreshMetrics
