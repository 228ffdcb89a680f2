import Teensquitto.Data.Bytes
import Teensquitto.Data.Memory
import Teensquitto.Data.Deque
import Teensquitto.Data.History
import Teensquitto.CircularBuffer.Multi
import Teensquitto.CircularBuffer.Refinement
import Teensquitto.Program.Following
import Teensquitto.Program.Hoare
import Teensquitto.Wire.Command
import Teensquitto.Method.Basic
import Teensquitto.Method.Objects
import Teensquitto.Method.Call
import Teensquitto.Device.Receiver
import Teensquitto.Device.Events
import Teensquitto.Device.Request
import Teensquitto.Receiver.Schedule
import Teensquitto.Receiver.Packets
import Teensquitto.Receiver.StreamParsing
import Teensquitto.Receiver.Calm
import Teensquitto.Wire.Encoding
import Teensquitto.Wire.Frames
import Teensquitto.Method.Frames
import Teensquitto.Device.Sending
import Teensquitto.Waiting.Replies
import Teensquitto.Protocol.Steps
import Teensquitto.Protocol.Simulation
import Teensquitto.Protocol.Shape
import Teensquitto.Protocol.Reentrancy
import Teensquitto.Protocol.Delivery
import Teensquitto.Protocol.Ordering
import Teensquitto.Protocol.Evidence
import Teensquitto.Protocol.Agreement
import Teensquitto.Reply.Storing
import Teensquitto.CircularBuffer.Slots
import Teensquitto.Reply.Values
import Teensquitto.Reply.Bulk
import Teensquitto.Waiting.Timeouts
import Teensquitto.Receiver.Readings
import Teensquitto.Receiver.Corruption
import Teensquitto.Receiver.Truncation
import Teensquitto.Program.Tracked
import Teensquitto.Dispatch.Fields
import Teensquitto.Dispatch.Bounds
import Teensquitto.Program.Checking
import Teensquitto.Receiver.Lengths
import Teensquitto.Receiver.Settling
import Teensquitto.Receiver.Checked
import Teensquitto.Program.Mirroring
import Teensquitto.Device.Library
import Teensquitto.Clock.Translation
import Teensquitto.Dispatch.Datagram
import Teensquitto.Wire.Wrapping
import Teensquitto.Method.Carried
import Teensquitto.Device.Blocks
import Teensquitto.Method.Overload
import Teensquitto.Device.Overloads
import Teensquitto.Device.Offline
import Teensquitto.CircularBuffer.Scalar
import Teensquitto.CircularBuffer.ScalarRefinement
import Teensquitto.CircularBuffer.Indices
import Teensquitto.CircularBuffer.BlockReads
import Teensquitto.CircularBuffer.BlockWrites
import Teensquitto.CircularBuffer.Laps
import Teensquitto.CircularBuffer.EmptyPops
import Teensquitto.CircularBuffer.Removal
import Teensquitto.CircularBuffer.Replacement
import Teensquitto.Device.Passing
import Teensquitto.Data.OrderStatistic
import Teensquitto.Data.IntegerType
import Teensquitto.CircularBuffer.Median
import Teensquitto.Object.Message
import Teensquitto.Data.Characters
import Teensquitto.Object.Broker
import Teensquitto.Waiting.Acknowledgements
import Teensquitto.Device.Running
import Teensquitto.Protocol.Latency
import Teensquitto.Program.Evolving
import Teensquitto.Device.Effects
import Teensquitto.Method.Decoding
import Teensquitto.Device.Registration
import Teensquitto.Protocol.Loopback
import Teensquitto.Protocol.Probing
import Teensquitto.CircularBuffer.Statistics
import Teensquitto.Data.ModularType
import Teensquitto.CircularBuffer.Interface
import Teensquitto.Object.Roles
import Teensquitto.Program.Spending
import Teensquitto.Waiting.Deadlines
import Teensquitto.Waiting.Durations
import Teensquitto.Waiting.Recovery
import Teensquitto.Device.Outgoing
import Teensquitto.Waiting.Answers
import Teensquitto.Data.Timer
import Teensquitto.Waiting.Silence
import Teensquitto.Receiver.Arrival
import Teensquitto.Protocol.Overrun
