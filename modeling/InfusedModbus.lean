import InfusedModbus.Foundation.BigEndian
import InfusedModbus.Foundation.BitPack
import InfusedModbus.Foundation.ChangeFeed
import InfusedModbus.Foundation.Chunks
import InfusedModbus.Foundation.Cursor
import InfusedModbus.Foundation.Execution
import InfusedModbus.Foundation.FieldFold
import InfusedModbus.Foundation.FlatBuffer
import InfusedModbus.Foundation.FrameStream
import InfusedModbus.Foundation.Jobs
import InfusedModbus.Foundation.LastWrite
import InfusedModbus.Foundation.Loop
import InfusedModbus.Foundation.LossyText
import InfusedModbus.Foundation.Numbering
import InfusedModbus.Foundation.Outcome
import InfusedModbus.Foundation.Purge
import InfusedModbus.Foundation.Pushes
import InfusedModbus.Foundation.Runs
import InfusedModbus.Foundation.SharedService
import InfusedModbus.Foundation.ShiftRegister
import InfusedModbus.Foundation.Store
import InfusedModbus.Foundation.Tiling
import InfusedModbus.Foundation.Transducer
import InfusedModbus.Foundation.Usize
import InfusedModbus.Protocol.Adu
import InfusedModbus.Protocol.DeviceDescription
import InfusedModbus.Protocol.DeviceDescriptionManifest
import InfusedModbus.Protocol.DeviceDescriptionParse
import InfusedModbus.Protocol.Fingerprint
import InfusedModbus.Protocol.Pdu.Basic
import InfusedModbus.Protocol.Pdu.Bits
import InfusedModbus.Protocol.Pdu.Consistency
import InfusedModbus.Protocol.Pdu.Device
import InfusedModbus.Protocol.Pdu.Fields
import InfusedModbus.Protocol.Pdu.FileRecord
import InfusedModbus.Protocol.Pdu.FileRecordFraming
import InfusedModbus.Protocol.Pdu.Message
import InfusedModbus.Protocol.Pdu.Progress
import InfusedModbus.Protocol.Pdu.Registers
import InfusedModbus.Protocol.Pdu.Words
import InfusedModbus.Protocol.RtuChecksum
import InfusedModbus.Protocol.Transport
import InfusedModbus.ProtocolCore.Adu
import InfusedModbus.ProtocolCore.BitHistory
import InfusedModbus.ProtocolCore.BitValues
import InfusedModbus.ProtocolCore.BitWords
import InfusedModbus.ProtocolCore.DecoderSafety
import InfusedModbus.ProtocolCore.FlatArrays
import InfusedModbus.ProtocolCore.FlatList
import InfusedModbus.ProtocolCore.Interop
import InfusedModbus.ProtocolCore.Pdu.Bits
import InfusedModbus.ProtocolCore.Pdu.Device
import InfusedModbus.ProtocolCore.Pdu.Fields
import InfusedModbus.ProtocolCore.Pdu.FileRecord
import InfusedModbus.ProtocolCore.Pdu.Message
import InfusedModbus.ProtocolCore.Pdu.NoPanic
import InfusedModbus.ProtocolCore.Pdu.Progress
import InfusedModbus.ProtocolCore.Pdu.Registers
import InfusedModbus.ProtocolCore.Pdu.Words
import InfusedModbus.ProtocolCore.PduBytes
import InfusedModbus.ProtocolCore.RtuChecksum
import InfusedModbus.Datafs.Display
import InfusedModbus.Datafs.Parse
import InfusedModbus.Datafs.RegisterEncoding
import InfusedModbus.Datafs.RegisterValue
import InfusedModbus.Datafs.Staging
import InfusedModbus.Sparkplug.DataSet
import InfusedModbus.Sparkplug.Metric
import InfusedModbus.Sparkplug.MetricCodec
import InfusedModbus.Sparkplug.PayloadCodec
import InfusedModbus.Sparkplug.Property
import InfusedModbus.Sparkplug.Scalar
import InfusedModbus.Sparkplug.Session
import InfusedModbus.Sparkplug.Topic
import InfusedModbus.Sparkplug.Varint
import InfusedModbus.Sparkplug.Wire
import InfusedModbus.Server.Addressability
import InfusedModbus.Server.Admin
import InfusedModbus.Server.Atomicity
import InfusedModbus.Server.BitMemory
import InfusedModbus.Server.BitRefinement
import InfusedModbus.Server.ClientTrust
import InfusedModbus.Server.Coils
import InfusedModbus.Server.DataPoint
import InfusedModbus.Server.DataSocket
import InfusedModbus.Server.DeviceIdentification
import InfusedModbus.Server.Fc43BulkTransfer
import InfusedModbus.Server.FileRecordShape
import InfusedModbus.Server.FileRecords
import InfusedModbus.Server.FlatDescription
import InfusedModbus.Server.Handler
import InfusedModbus.Server.HexDump
import InfusedModbus.Server.Isolation
import InfusedModbus.Server.LocalInputs
import InfusedModbus.Server.MachineState
import InfusedModbus.Server.NonInterference
import InfusedModbus.Server.PointReach
import InfusedModbus.Server.PointRead
import InfusedModbus.Server.Process
import InfusedModbus.Server.RangeInvariant
import InfusedModbus.Server.RegisterWalk
import InfusedModbus.Server.Registers
import InfusedModbus.Server.ResponseSize
import InfusedModbus.Server.Revocation
import InfusedModbus.Server.Roster
import InfusedModbus.Server.RtuService
import InfusedModbus.Server.ServerHandle
import InfusedModbus.Server.SharedBus
import InfusedModbus.Server.StatedQuantity
import InfusedModbus.Server.TcpService
import InfusedModbus.Server.TwoViews
import InfusedModbus.Server.WordMemory
import InfusedModbus.Server.WordRefinement
import InfusedModbus.Client.AliasIdentity
import InfusedModbus.Client.BatchRange
import InfusedModbus.Client.Batching
import InfusedModbus.Client.BdSeqPersistence
import InfusedModbus.Client.BulkTransfer
import InfusedModbus.Client.CommandEntries
import InfusedModbus.Client.CommandPermission
import InfusedModbus.Client.CommandPipeline
import InfusedModbus.Client.CommandReadBack
import InfusedModbus.Client.CommandedDevices
import InfusedModbus.Client.DescriptionDiscovery
import InfusedModbus.Client.DescriptionFetch
import InfusedModbus.Client.DeviceIdentification
import InfusedModbus.Client.DeviceLifecycle
import InfusedModbus.Client.EdgeNode
import InfusedModbus.Client.EdgeNodeSessions
import InfusedModbus.Client.FewestBatches
import InfusedModbus.Client.HostMirror
import InfusedModbus.Client.Mirror
import InfusedModbus.Client.NodeRun
import InfusedModbus.Client.Peer
import InfusedModbus.Client.PollAnswers
import InfusedModbus.Client.PollReading
import InfusedModbus.Client.Polling
import InfusedModbus.Client.PublishedValues
import InfusedModbus.Client.Reconnect
import InfusedModbus.Client.RtuConnection
import InfusedModbus.Client.ServerConnection
import InfusedModbus.Client.ServerExchange
import InfusedModbus.Client.SetpointValues
import InfusedModbus.Client.SparkplugAlias
import InfusedModbus.Client.SparkplugChangeTracker
import InfusedModbus.Client.SparkplugCommand
import InfusedModbus.Client.SparkplugSession
import InfusedModbus.Client.SparkplugTranslator
import InfusedModbus.Client.SubscriptionState
import InfusedModbus.Client.Subscriptions
import InfusedModbus.Client.TcpConnection
import InfusedModbus.Client.Transaction
import InfusedModbus.Client.TransactionReport
import InfusedModbus.Client.TransactionWrites
import InfusedModbus.Client.WriteConfirmation
import InfusedModbus.Client.WriteTargets
import InfusedModbus.RollingDoor.Controller
import InfusedModbus.RollingDoor.Interlock
import InfusedModbus.RollingDoor.Safety
