import Phantom.Utility.IntervalMapSpec
import Phantom.Utility.IntervalMapMutations
import Phantom.Utility.PcapWriter
import Phantom.Host.MemoryMapperRun
import Phantom.Host.MemoryMapperCalls
import Phantom.Host.MemoryMapperLength
import Phantom.Host.MemoryCursor
import Phantom.Host.Affinity
import Phantom.Host.PortExclusivity
import Phantom.Host.AssociationLifetime
import Phantom.Host.TransmitRate
import Phantom.Host.TransmitMembership
import Phantom.Host.TransmitInterfaces
import Phantom.Host.FifoOldest
import Phantom.Shmem.PoolReuse
import Phantom.Shmem.Serializer
import Phantom.Core.Causality
import Phantom.Core.NextEventTime
import Phantom.Core.Controller
import Phantom.Core.HostDefaultOptions
import Phantom.Core.ShadowLoggerRun
import Phantom.Core.WorkerPoolRun
import Phantom.Core.ThreadPolicyRun
import Phantom.Tcp.SenderRun
import Phantom.Tcp.AcceptQueue
import Phantom.Tcp.ReadinessRun
import Phantom.Tcp.TrafficRun
import Phantom.Tcp.SackList
import Phantom.Descriptor.PipeFlow
import Phantom.Descriptor.Channel
import Phantom.Descriptor.BlockedWriter
import Phantom.Descriptor.EpollRun
import Phantom.Descriptor.EpollHistory
import Phantom.Syscall.FutexIntegrity
import Phantom.Routing.PathLookup
import Phantom.Shim.ShadowSem
import Phantom.Shim.Ipc
import Phantom.Shim.Time
import Phantom.Syscall.FilePosition
import Phantom.Syscall.PointerDiscipline
import Phantom.Syscall.PollRun
import Phantom.Utility.ChildPidWatcherRun
import Phantom.Tcp.TallyRun
import Phantom.Tcp.RenoRun
import Phantom.Tcp.Estimator
import Phantom.Tcp.Segmentation
import Phantom.Tcp.Timeout
import Phantom.Tcp.Closing
import Phantom.Routing.DropSpacing
import Phantom.Descriptor.UdpReadiness
import Phantom.Descriptor.TimerSchedule
import Phantom.Descriptor.TimerSafety
import Phantom.Host.EphemeralPort
import Phantom.Routing.LongestPrefix
import Phantom.Routing.DnsRun
import Phantom.Utility.ByteQueueFailure
import Phantom.Descriptor.DescriptorTable
import Phantom.Utility.EventSource
import Phantom.Utility.PriorityQueueRun
import Phantom.Descriptor.EpollFairness
import Phantom.Descriptor.FaultingCalls
import Phantom.Core.UnitsExact
import Phantom.Utility.ProcMapsLines
import Phantom.Tcp.SackedMarks
import Phantom.Tcp.Stream
import Phantom.Utility.Counter
import Phantom.Host.Cpu
import Phantom.Shmem.Cleanup
