import TauTerm.Lib.Bytes
import TauTerm.Modbus.Pdu
import TauTerm.Modbus.PackedBits
import TauTerm.Modbus.RoundTrip
import TauTerm.Modbus.Acceptance
import TauTerm.Lib.Framing
import TauTerm.Modbus.Tcp
import TauTerm.Lib.Exec
import TauTerm.Modbus.Ascii
import TauTerm.Modbus.DataModel
import TauTerm.Modbus.DataModelSpec
import TauTerm.Modbus.Atomicity
import TauTerm.Modbus.Rtu
import TauTerm.Modbus.Exchange
import TauTerm.Modbus.Response
import TauTerm.Lib.Run
import TauTerm.Transport.Runtime
import TauTerm.Transport.Ownership
import TauTerm.Transport.Refinement
import TauTerm.Transport.ClientSteps
import TauTerm.Transport.ActorSteps
import TauTerm.Transport.Handover
import TauTerm.Lib.Blocks
import TauTerm.Tftp.Session
import TauTerm.Tftp.Transfer
import TauTerm.Lib.GoBackN
import TauTerm.Tftp.Sides
import TauTerm.Tftp.Flow
import TauTerm.Tftp.EndToEnd
import TauTerm.Transport.DriverOwner
import TauTerm.Tftp.Lossy
import TauTerm.Lib.Decoder
import TauTerm.Lib.Pump
import TauTerm.Lib.Replay
import TauTerm.Lib.Utf8
import TauTerm.Lib.RustText
import TauTerm.Rtt.Decoder
import TauTerm.Rtt.TraceState
import TauTerm.Rtt.Replay
import TauTerm.Rtt.Chunking
import TauTerm.Rtt.Cutting
import TauTerm.Lib.FileSystem
import TauTerm.Lib.Path
import TauTerm.Tftp.ServerPaths
import TauTerm.Lib.Transducer
import TauTerm.Transfer.Crc
import TauTerm.Transfer.Io
import TauTerm.Transfer.XModem
import TauTerm.Transfer.XModemLink
import TauTerm.Transfer.XModemDelivery
import TauTerm.Transfer.YModem
import TauTerm.Transfer.YModemIntegrity
import TauTerm.Transfer.YModemDelivery
import TauTerm.Lib.JsObject
import TauTerm.Workspace.SplitLayout
import TauTerm.Workspace.LayoutSteps
import TauTerm.Workspace.Persistence
import TauTerm.Workspace.RoundTrip
import TauTerm.Workspace.LayoutRuns
import TauTerm.Tabs.SessionState
import TauTerm.Tabs.TabInvariant
import TauTerm.Tabs.TabRuns
import TauTerm.Tasks.TransferState
import TauTerm.Tasks.TaskTable
import TauTerm.Tasks.TaskSteps
import TauTerm.Tasks.TaskRuns
import TauTerm.Ssh.KnownHosts
import TauTerm.Ssh.TrustDisk
import TauTerm.Ssh.TrustOperations
import TauTerm.Ssh.TrustedKeys
import TauTerm.Ssh.TrustRuns
import TauTerm.Lib.LinearRegister
import TauTerm.Transfer.CrcBits
import TauTerm.Transfer.ZModem
import TauTerm.Transfer.ZModemFrames
import TauTerm.Transfer.YModemMetadata
import TauTerm.Lib.Words
import TauTerm.Trdp.PcapNg
import TauTerm.Trdp.PcapNgRoundTrip
import TauTerm.Transport.WriteFlight
import TauTerm.VirtualPort.Bridge
import TauTerm.VirtualPort.Ingress
import TauTerm.Lib.Visit
import TauTerm.Trdp.Dataset
import TauTerm.Modbus.RtuBursts
import TauTerm.Transfer.Scheduler
import TauTerm.Tftp.Negotiation
import TauTerm.Tftp.SendAccounting
import TauTerm.Tftp.SendRuns
import TauTerm.Tftp.BlockNumbers
import TauTerm.Modbus.Client
import TauTerm.Modbus.WriteOutcome
import TauTerm.Lib.Prog
import TauTerm.Modbus.ServerHistory
import TauTerm.Transfer.PortIo
import TauTerm.Transfer.XModemPort
import TauTerm.Transfer.YModemPort
import TauTerm.Transfer.ZModemPort
import TauTerm.Transfer.DeadPort
import TauTerm.Transfer.BatchSend
import TauTerm.Transfer.BatchOutcomes
import TauTerm.Lib.Charges
import TauTerm.Rtt.TaskRuntime
import TauTerm.Rtt.Boundaries
import TauTerm.Kernel.Base64
import TauTerm.Kernel.DataBatcher
import TauTerm.Kernel.LogStorage
import TauTerm.Telnet.Negotiation
import TauTerm.Lib.CrcRegister
import TauTerm.Lib.LuaString
import TauTerm.Script.Checksum
import TauTerm.Script.LuaEscape
import TauTerm.Kernel.LogEngine
import TauTerm.Kernel.LogUpdates
import TauTerm.Lib.Rect
import TauTerm.Workspace.PaneGeometry
import TauTerm.Workspace.PaneRects
import TauTerm.Iperf.LossAccounting
import TauTerm.Iperf.UdpClient
import TauTerm.Lib.Checked
import TauTerm.Lib.Lines
import TauTerm.Lib.ShellWords
import TauTerm.Ssh.JournalCommand
import TauTerm.Ssh.JournalPages
import TauTerm.Ssh.JournalStream
import TauTerm.Trdp.CaptureReaders
import TauTerm.Trdp.CaptureSafety
import TauTerm.Trdp.DecodeSafety
import TauTerm.Trdp.MissedCount
import TauTerm.Trdp.StreamDecoder
import TauTerm.Iperf.UdpServer
import TauTerm.Iperf.UdpServerRuns
import TauTerm.Lib.Window
import TauTerm.Rtt.HistoryRuns
import TauTerm.Rtt.RuntimeStore
import TauTerm.Rtt.SystemViewRuns
import TauTerm.Display.FramingRuns
import TauTerm.Display.StreamFramer
import TauTerm.Lib.CrcRemainder
import TauTerm.Lib.Doubles
import TauTerm.Lib.JsBits
import TauTerm.Lib.JsString
import TauTerm.Lib.Lexemes
import TauTerm.Lib.Numerals
import TauTerm.Lib.Paging
import TauTerm.Lib.Tally
import TauTerm.Lib.Tokens
import TauTerm.Lib.Utf16
import TauTerm.Lib.Base64
import TauTerm.Lib.WebBase64
import TauTerm.Lib.WebText
import TauTerm.Modbus.Polling
import TauTerm.Modbus.PollingRuns
import TauTerm.Rtt.ChannelClaims
import TauTerm.Rtt.ClaimRuns
import TauTerm.Rtt.HistoryAccounts
import TauTerm.Rtt.HistoryPages
import TauTerm.Rtt.HistoryStore
import TauTerm.Rtt.Worker
import TauTerm.Rtt.WriteRuns
import TauTerm.Security.CredentialRuns
import TauTerm.Security.CredentialStore
import TauTerm.Tools.ByteInput
import TauTerm.Tools.ByteNotations
import TauTerm.Tools.Checksum
import TauTerm.Tools.Encoding
import TauTerm.Tools.RoundTrips
import TauTerm.Tools.StructGrammar
import TauTerm.Tools.StructLayout
import TauTerm.Tools.StructText
import TauTerm.Lib.LineEndings
import TauTerm.Lib.TextCodec
import TauTerm.Sftp.DocumentCodec
import TauTerm.Sftp.DocumentRoundTrip
import TauTerm.Tftp.Retransmission
import TauTerm.Lib.Disk
import TauTerm.Lib.World
import TauTerm.Sftp.CommitRuns
import TauTerm.Sftp.DocumentSave
import TauTerm.Sftp.DocumentWorld
import TauTerm.Sftp.FileTransfer
import TauTerm.Sftp.SaveRuns
import TauTerm.Sftp.TransferGuard
import TauTerm.Sftp.CommitSafety
import TauTerm.Sftp.FileCalls
import TauTerm.Sftp.FileCommit
import TauTerm.Sftp.SaveSteps
