import RsModbus.Application.Ascii
import RsModbus.Application.CloseTasks
import RsModbus.Application.Rtu
import RsModbus.Application.RtuChecked
import RsModbus.Application.Tasks
import RsModbus.Application.Tcp
import RsModbus.CustomExchange
import RsModbus.Exchange
import RsModbus.Laws.AddressLocks
import RsModbus.Laws.Answers
import RsModbus.Laws.AsciiFraming
import RsModbus.Laws.Attempts
import RsModbus.Laws.BitErrors
import RsModbus.Laws.Broadcast
import RsModbus.Laws.Cancellation
import RsModbus.Laws.Checksum
import RsModbus.Laws.Client
import RsModbus.Laws.CloseTasks
import RsModbus.Laws.Codec
import RsModbus.Laws.CustomCodes
import RsModbus.Laws.CustomExchange
import RsModbus.Laws.CustomFraming
import RsModbus.Laws.Decisions
import RsModbus.Laws.Decoders
import RsModbus.Laws.Delivery
import RsModbus.Laws.Exceptions
import RsModbus.Laws.Exchange
import RsModbus.Laws.FailedOpen
import RsModbus.Laws.Framing
import RsModbus.Laws.Guards
import RsModbus.Laws.Handlers
import RsModbus.Laws.Identification
import RsModbus.Laws.IndividualAccess
import RsModbus.Laws.Lifecycle
import RsModbus.Laws.LostUpdates
import RsModbus.Laws.LrcErrors
import RsModbus.Laws.MasterCalls
import RsModbus.Laws.MasterLifecycle
import RsModbus.Laws.MasterPanics
import RsModbus.Laws.MasterStream
import RsModbus.Laws.Memory
import RsModbus.Laws.Objects
import RsModbus.Laws.Outcomes
import RsModbus.Laws.Packing
import RsModbus.Laws.Panics
import RsModbus.Laws.Pipeline
import RsModbus.Laws.Queues
import RsModbus.Laws.ReadReplies
import RsModbus.Laws.ReadWriteWindows
import RsModbus.Laws.Receivable
import RsModbus.Laws.Registration
import RsModbus.Laws.Replies
import RsModbus.Laws.ReplyFrames
import RsModbus.Laws.RoundTrip
import RsModbus.Laws.RtuBurst
import RsModbus.Laws.RtuFraming
import RsModbus.Laws.RtuPool
import RsModbus.Laws.RtuPoolSafety
import RsModbus.Laws.RtuRecovery
import RsModbus.Laws.RtuStream
import RsModbus.Laws.RtuTimers
import RsModbus.Laws.SerialCalls
import RsModbus.Laws.ServerIds
import RsModbus.Laws.SharedMemory
import RsModbus.Laws.Streams
import RsModbus.Laws.TcpFraming
import RsModbus.Laws.TcpServer
import RsModbus.Laws.UdpServer
import RsModbus.Laws.Windows
import RsModbus.Laws.WriteRequests
import RsModbus.Library.Broadcast
import RsModbus.Library.Cells
import RsModbus.Library.Channels
import RsModbus.Library.Crc
import RsModbus.Library.Delimited
import RsModbus.Library.FairMutex
import RsModbus.Library.Leases
import RsModbus.Library.Linearizability
import RsModbus.Library.Loops
import RsModbus.Library.Paging
import RsModbus.Library.Runs
import RsModbus.Library.Segments
import RsModbus.Library.Updates
import RsModbus.Master.Indexed
import RsModbus.Master.Lifecycle
import RsModbus.Master.Machine
import RsModbus.Master.Methods
import RsModbus.Master.Session
import RsModbus.Master.Stream
import RsModbus.Physical.Client
import RsModbus.Physical.Guards
import RsModbus.Physical.TcpServer
import RsModbus.Physical.UdpServer
import RsModbus.Pipeline
import RsModbus.Registration
import RsModbus.Slave.AddressLocks
import RsModbus.Slave.CustomCodes
import RsModbus.Slave.Handlers
import RsModbus.Slave.Lifecycle
import RsModbus.Slave.Model
import RsModbus.Slave.Queues
import RsModbus.Slave.RegisterWrites
import RsModbus.Slave.SimpleModel
import RsModbus.Types
import RsModbus.Utils
