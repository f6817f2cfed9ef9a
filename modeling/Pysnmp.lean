import Pysnmp.CacheDictionaries
import Pysnmp.Carrier.StreamFraming
import Pysnmp.Carrier.StreamTransport
import Pysnmp.Carrier.TimerTicks
import Pysnmp.Entity.EngineBoots
import Pysnmp.Entity.Rfc3413.BoundedRetries
import Pysnmp.Entity.Rfc3413.Completion
import Pysnmp.Entity.Rfc3413.ConfigHistory
import Pysnmp.Entity.Rfc3413.FamilyMatching
import Pysnmp.Entity.Rfc3413.InformCompletion
import Pysnmp.Entity.Rfc3413.NotificationOrder
import Pysnmp.Entity.Rfc3413.WalkEnd
import Pysnmp.Entity.SharedDispatcher
import Pysnmp.Hlapi.KeyRow
import Pysnmp.Hlapi.WalksAgree
import Pysnmp.NextId
import Pysnmp.Proto.AppRegistration
import Pysnmp.Proto.LinkedCaches
import Pysnmp.Proto.Mpmod.CacheHistory
import Pysnmp.Proto.Proxy.CleanFailure
import Pysnmp.Proto.Secmod.CommunityHistory
import Pysnmp.Proto.Secmod.CommunitySelection
import Pysnmp.Proto.Secmod.DhCodecs
import Pysnmp.Proto.Secmod.DhSearch
import Pysnmp.Proto.Secmod.InitializationVectors
import Pysnmp.Proto.Secmod.KeyExtension
import Pysnmp.Proto.Secmod.LocalKey
import Pysnmp.Proto.Secmod.StateReferences
import Pysnmp.Proto.Secmod.TimeWindow
import Pysnmp.Proto.Secmod.TimelineRetention
import Pysnmp.Smi.AdvisoryLock
import Pysnmp.Smi.AtomicSet
import Pysnmp.Smi.BitNames
import Pysnmp.Smi.BuilderBooks
import Pysnmp.Smi.CorpusModules
import Pysnmp.Smi.CorpusWalk
import Pysnmp.Smi.DisplayHintEnds
import Pysnmp.Smi.DisplayHintRoundTrip
import Pysnmp.Smi.InetAddressIndices
import Pysnmp.Smi.NotificationExpansion
import Pysnmp.Smi.OidText
import Pysnmp.Smi.OrderedDict
import Pysnmp.Smi.ResponseNames
import Pysnmp.Smi.SnmpTags
import Pysnmp.Smi.ViewLabels
import Pysnmp.Smi.ViewWalk
import Pysnmp.Smi.RowLifecycle
