import ConcurrentTcp.Base.Interaction
import ConcurrentTcp.Base.Traces
import ConcurrentTcp.Base.Transition
import ConcurrentTcp.Base.Progress
import ConcurrentTcp.Base.TwoRuns
import ConcurrentTcp.Base.Unread
import ConcurrentTcp.Base.LexicalPath
import ConcurrentTcp.Base.CheckedWalk
import ConcurrentTcp.Base.Framing
import ConcurrentTcp.Base.Service
import ConcurrentTcp.Base.Files
import ConcurrentTcp.Base.Environment
import ConcurrentTcp.Base.Stateful
import ConcurrentTcp.Base.Descriptors
import ConcurrentTcp.Base.Monitor
import ConcurrentTcp.Base.Accesses
import ConcurrentTcp.Base.Literals
import ConcurrentTcp.Base.Chunks
import ConcurrentTcp.Common.Bytes
import ConcurrentTcp.Common.FsPath
import ConcurrentTcp.Common.PathPrefix
import ConcurrentTcp.Common.Protocol
import ConcurrentTcp.Common.Packets
import ConcurrentTcp.Db.Handler
import ConcurrentTcp.Db.Maintenance
import ConcurrentTcp.Db.Accounts
import ConcurrentTcp.Server.State
import ConcurrentTcp.Server.Io
import ConcurrentTcp.Server.PacketsUtils
import ConcurrentTcp.Server.SendLoop
import ConcurrentTcp.Server.Compression
import ConcurrentTcp.Server.ClientController
import ConcurrentTcp.Server.BackEndCalls
import ConcurrentTcp.Server.Sessions
import ConcurrentTcp.Server.AdminPrivilege
import ConcurrentTcp.Server.AdminRace
import ConcurrentTcp.Server.FieldReads
import ConcurrentTcp.Server.Receive
import ConcurrentTcp.Server.ReceiveBounds
import ConcurrentTcp.Server.Upload
import ConcurrentTcp.Server.Threads
import ConcurrentTcp.Server.ReceivePass
import ConcurrentTcp.Server.Turns
import ConcurrentTcp.Server.ThreadPool
import ConcurrentTcp.Server.ReadWriteLock
import ConcurrentTcp.Server.HandlePackets
import ConcurrentTcp.Server.PacketIdentity
import ConcurrentTcp.Server.PacketOrder
import ConcurrentTcp.Server.WorkingDirectory
import ConcurrentTcp.Server.ChangeDirectory
import ConcurrentTcp.Server.SessionStrings
import ConcurrentTcp.Server.SingleName
import ConcurrentTcp.Server.MoveCopy
import ConcurrentTcp.Server.CompressInside
import ConcurrentTcp.Server.Requests
import ConcurrentTcp.Server.LoginHistory
import ConcurrentTcp.Server.Isolation
import ConcurrentTcp.Server.Authentication
import ConcurrentTcp.Server.PacketOwner
import ConcurrentTcp.Server.TransferCalls
import ConcurrentTcp.Server.PathLengths
import ConcurrentTcp.Server.DescriptorCalls
import ConcurrentTcp.Server.Descriptors
import ConcurrentTcp.Server.DescriptorLeak
import ConcurrentTcp.Server.Outcomes
import ConcurrentTcp.Server.Returns
import ConcurrentTcp.Client.Utils
import ConcurrentTcp.Client.BreakVector
import ConcurrentTcp.Client.Receive
import ConcurrentTcp.Client.ConnectionClosed
import ConcurrentTcp.Server.Lockstep
import ConcurrentTcp.Server.Responses
import ConcurrentTcp.Server.ArchiveEffects
import ConcurrentTcp.Server.ArchiveOutcome
import ConcurrentTcp.Server.ArchiveContent
import ConcurrentTcp.Server.ResponseBuffer
import ConcurrentTcp.Server.ResponseGaps
import ConcurrentTcp.Server.Workers
import ConcurrentTcp.Server.Storage
import ConcurrentTcp.Client.PacketController
import ConcurrentTcp.Client.Commands
import ConcurrentTcp.Client.TypedRequests
import ConcurrentTcp.Client.CompressLine
import ConcurrentTcp.Client.SetCommand
import ConcurrentTcp.Client.CommandWords
import ConcurrentTcp.Client.MainLoop
import ConcurrentTcp.Client.SamePackets
import ConcurrentTcp.Client.StaleInput
import ConcurrentTcp.Client.Menu
import ConcurrentTcp.Client.Reports
import ConcurrentTcp.Transfer.Acknowledged
import ConcurrentTcp.Transfer.UploadFile
import ConcurrentTcp.Transfer.DownloadFile
import ConcurrentTcp.Transfer.ChunkSlice
import ConcurrentTcp.Transfer.Replace
import ConcurrentTcp.Transfer.UploadCommand
import ConcurrentTcp.Transfer.DownloadCommand
import ConcurrentTcp.Transfer.CopySession
import ConcurrentTcp.Protocol.ResponseFormats
import ConcurrentTcp.Protocol.Answers
import ConcurrentTcp.Protocol.ClientPackets
import ConcurrentTcp.Protocol.Clients
import ConcurrentTcp.Protocol.CompressCommand
import ConcurrentTcp.Protocol.LockstepClients
import ConcurrentTcp.Protocol.SerialServer
import ConcurrentTcp.Protocol.ThreadedAnswers
import ConcurrentTcp.Protocol.ClientPrograms
import ConcurrentTcp.Server.Answerable
import ConcurrentTcp.Protocol.WaitingClients
