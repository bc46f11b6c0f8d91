import Ditg.Library.Transition
import Ditg.Library.Forever
import Ditg.Library.Bytes
import Ditg.Library.Keyed
import Ditg.Library.Memory
import Ditg.Library.Socket
import Ditg.Library.SlotTable
import Ditg.Library.Handles
import Ditg.Library.OnesComplement
import Ditg.Library.Tokens
import Ditg.Common.Info
import Ditg.Common.Packet
import Ditg.Common.Checksum
import Ditg.Common.Strtok
import Ditg.Dec.Record
import Ditg.Dec.FlowTable
import Ditg.Log.Channel
import Ditg.Log.Protocol
import Ditg.Recv.Thread
import Ditg.Recv.Logging
import Ditg.Signaling.Message
import Ditg.Signaling.FlowLog
import Ditg.Signaling.Session
import Ditg.Signaling.Slots
import Ditg.Recv.PassivePort
import Ditg.Manager.Notify
import Ditg.Sender.Channels
import Ditg.Sender.Destination
import Ditg.Sender.Manager
import Ditg.Signaling.FlowLife
import Ditg.Signaling.Link
import Ditg.Signaling.Lives
import Ditg.Signaling.Steps
import Ditg.Signaling.Release
import Ditg.Recv.SharedSocket
import Ditg.Recv.SharedSteps
import Ditg.Recv.SharedCount
import Ditg.Recv.SharedLock
import Ditg.Library.Arrivals
import Ditg.Dec.LossCount
import Ditg.Dec.LossBurst
import Ditg.Dec.Elabsplit
import Ditg.Dec.Split
import Ditg.Dec.Merge
import Ditg.Dec.TextLog
import Ditg.Sender.Pacing
import Ditg.Sender.PayloadSize
import Ditg.Sender.WaitLoop
import Ditg.Sender.Limits
import Ditg.Library.Batch
import Ditg.Library.Binning
import Ditg.Library.Statistics
import Ditg.Sender.LogBuffer
import Ditg.Recv.FinalFlush
import Ditg.Sender.Echo
import Ditg.Sender.Delay
import Ditg.Sender.FileTraffic
import Ditg.Sender.CommandLine
import Ditg.Sender.PayloadFile
import Ditg.Library.Ownership
import Ditg.Recv.Descriptors
import Ditg.Dec.Intervals
import Ditg.Dec.Summary
import Ditg.Dec.MergeRows
import Ditg.Dec.Combined
import Ditg.Recv.Batches
import Ditg.Log.LogFiles
import Ditg.Log.Pass
import Ditg.Log.Port
import Ditg.Common.AnyStream
import Ditg.Common.SctpPacket
import Ditg.Recv.TcpSock
import Ditg.Sender.PayloadBuffers
import Ditg.Library.Loop
import Ditg.Library.Stdlib
import Ditg.Sender.Distributions
import Ditg.Sender.Options
import Ditg.Sender.OptionLoop
import Ditg.Sender.OptionArguments
import Ditg.Sender.ParsedOptions
import Ditg.Library.Alias
import Ditg.Library.Densities
import Ditg.Library.Rejection
import Ditg.Library.Sampler
import Ditg.Library.Staircase
import Ditg.Newran.Densities
import Ditg.Newran.DiscreteGen
import Ditg.Newran.Draws
import Ditg.Newran.Mother
import Ditg.Newran.Strips
import Ditg.Sender.OptionLaws
import Ditg.Log.Sessions
import Ditg.Dec.Pipeline
