import SierraSdk.Library.Machine
import SierraSdk.Library.Monitor
import SierraSdk.Library.Framing
import SierraSdk.Library.TickTimer
import SierraSdk.Library.Memory
import SierraSdk.Library.Tlv
import SierraSdk.Mm.Pool
import SierraSdk.Hd.Tx
import SierraSdk.Hd.Rx
import SierraSdk.Hd.RoundTrip
import SierraSdk.Hd.Resync
import SierraSdk.Hd.Chunks
import SierraSdk.Hd.Bounds
import SierraSdk.Qm.ResponseLength
import SierraSdk.Im.Crc16
import SierraSdk.Sl.Numbers
import SierraSdk.Sl.Memcpy
import SierraSdk.Sl.Utf8Length
import SierraSdk.Sl.Ucs2
import SierraSdk.Ci.Channels
import SierraSdk.Am.Packet
import SierraSdk.Am.Task
import SierraSdk.Am.StopAndWait
import SierraSdk.Am.Busy
import SierraSdk.Am.Api
import SierraSdk.Qm.Clients
import SierraSdk.Qm.ControlBlock
import SierraSdk.Qm.Parser
import SierraSdk.Qm.Registration
import SierraSdk.Qm.LocalServices
import SierraSdk.Qm.Request
import SierraSdk.Qm.Response
import SierraSdk.Qm.Device
import SierraSdk.Qm.Task
import SierraSdk.Qm.Driver
import SierraSdk.Qm.ClientAgreement
import SierraSdk.Qm.Channels
import SierraSdk.Qm.Answer
import SierraSdk.Qm.ExactlyOnce
import SierraSdk.Am.Timeout
import SierraSdk.Qm.TlvBuffer
import SierraSdk.Qm.TlvBuild
import SierraSdk.Qm.TlvUnpack
import SierraSdk.Qm.TlvRoundTrip
import SierraSdk.Library.Tiles
import SierraSdk.Library.Crc
import SierraSdk.Im.ImageWrite
import SierraSdk.Im.Common
import SierraSdk.Im.SsdpWrapper
import SierraSdk.Library.Bits
import SierraSdk.Library.Walk
import SierraSdk.Sms.CdmaWalk
import SierraSdk.Sms.PackBits
import SierraSdk.Sms.CdmaAddress
import SierraSdk.Sms.CdmaMessage
import SierraSdk.Sms.RilCdma
import SierraSdk.Sms.CdmaSubmit
import SierraSdk.Sms.CdmaRetrieve
import SierraSdk.Sms.GsmTables
import SierraSdk.Sms.GsmText
import SierraSdk.Library.Ring
import SierraSdk.Library.CircularList
import SierraSdk.Ic.Smt
import SierraSdk.Mm.FreeList
import SierraSdk.Qm.BufferCursor
import SierraSdk.Library.DeepCopy
import SierraSdk.Ril.RequestCopies
import SierraSdk.Ril.FcpParser
import SierraSdk.Ril.AtChannel
import SierraSdk.Ril.HeldSms
import SierraSdk.Ril.HeldSmsAck
import SierraSdk.Ril.HeldSmsQueue
import SierraSdk.Ril.SimIo
import SierraSdk.Library.BlockHeap
import SierraSdk.Ril.Cache
import SierraSdk.Ril.CacheMap
import SierraSdk.Library.Fields
import SierraSdk.Sms.CdmaBounds
import SierraSdk.Library.Access
import SierraSdk.Sms.GsmPdu
import SierraSdk.Sms.GsmBounds
import SierraSdk.Sms.GsmReceived
import SierraSdk.Sms.GsmSender
import SierraSdk.Sms.GsmRoundTrip
import SierraSdk.Library.DoublyLinked
import SierraSdk.Ql.Link
import SierraSdk.Am.EventQueue
import SierraSdk.Am.EventLinks
import SierraSdk.Am.RequestQueue
import SierraSdk.Am.Buffers
import SierraSdk.Am.BufferOwner
import SierraSdk.Library.NullTerminated
import SierraSdk.Ril.EventQueue
import SierraSdk.Ril.EventQueueOrder
import SierraSdk.Library.Unpack
import SierraSdk.Library.Chunked
import SierraSdk.Gps.Message
import SierraSdk.Gps.Receive
import SierraSdk.Gps.LibrarySide
import SierraSdk.Gps.RilSide
import SierraSdk.Gps.Channel
import SierraSdk.Gps.Nmea
import SierraSdk.Gps.NmeaBounds
import SierraSdk.Gps.NmeaLines
import SierraSdk.Sm.Run
import SierraSdk.Im.Ssdp
import SierraSdk.Im.Gobi
import SierraSdk.Im.GobiRouting
import SierraSdk.Im.Cwe
import SierraSdk.Im.CweEvents
import SierraSdk.Im.DownloadOrder
import SierraSdk.Im.CweOrder
import SierraSdk.Im.GobiOrder
import SierraSdk.Qm.FirmwareDownload
import SierraSdk.Sms.CdmaBuffer
import SierraSdk.Sms.CdmaDecode
import SierraSdk.Qm.DcsContent
import SierraSdk.Qm.DcsService
import SierraSdk.Qm.RequestState
import SierraSdk.Sdk.CnsTask
import SierraSdk.Sdk.Notifications
import SierraSdk.Sdk.FirmwareImage
import SierraSdk.Sdk.FirmwareControl
import SierraSdk.Ril.RequestQueueRuns
import SierraSdk.Sdk.HipBounds
import SierraSdk.Library.Calendar
import SierraSdk.Gps.TimeGiven
import SierraSdk.Gps.A2ip
import SierraSdk.Ril.CallStates
import SierraSdk.Library.Pieces
import SierraSdk.Ril.EmergencyList
import SierraSdk.Ic.Tick
import SierraSdk.Am.Codec
import SierraSdk.Im.Firehose
import SierraSdk.Ril.AtTok
import SierraSdk.Ril.AtReader
import SierraSdk.Sdk.CnsBuffer
import SierraSdk.Sdk.CnsTimeout
import SierraSdk.Sdk.HpphRuns
import SierraSdk.Qm.Applications
import SierraSdk.Qm.NetChange
import SierraSdk.Qa.ListUnpackers
import SierraSdk.Qm.ExtractString
import SierraSdk.Sl.SprintfMisread
import SierraSdk.Ril.DataCallRuns
import SierraSdk.Sdk.AmTaskRuns
import SierraSdk.Im.FirehoseTask
import SierraSdk.Ql.Deques
import SierraSdk.Sl.Strtok
import SierraSdk.Sdk.UiCommand
import SierraSdk.Sdk.ModemState
import SierraSdk.Qm.PackageString
