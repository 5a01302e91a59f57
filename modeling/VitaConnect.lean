import VitaConnect.Ftp.CurPath
import VitaConnect.Ftp.TransferRun
import VitaConnect.Ftp.SendFile
import VitaConnect.Ftp.ReceiveFile
import VitaConnect.Ftp.Frame
import VitaConnect.Ftp.Dispatch
import VitaConnect.Ftp.Emits
import VitaConnect.Ftp.RestorePoint
import VitaConnect.Ftp.CommandLine
import VitaConnect.Ftp.Invariant
import VitaConnect.CString.Separators
import VitaConnect.Ftp.Resolve
import VitaConnect.Ftp.Bounds
import VitaConnect.CString.Reply
import VitaConnect.Ftp.Replies
import VitaConnect.Program.History
import VitaConnect.Refresh.Pass
import VitaConnect.Refresh.Places
import VitaConnect.Refresh.Transaction
import VitaConnect.Storage.DoublyLinked
import VitaConnect.Ftp.ClientList
import VitaConnect.Program.Ledger
import VitaConnect.Ftp.Server
import VitaConnect.Ftp.Shutdown
import VitaConnect.Modes.Usb
import VitaConnect.Modes.Handlers
import VitaConnect.Modes.Running
import VitaConnect.Modes.Exclusion
import VitaConnect.Modes.RefreshThreads
import VitaConnect.Refresh.Dlc
import VitaConnect.Refresh.DlcPlaces
import VitaConnect.Refresh.DlcTransaction
import VitaConnect.Ftp.Events
import VitaConnect.Ftp.Rename
import VitaConnect.Program.Frames
import VitaConnect.Ftp.Segments
import VitaConnect.Program.Triple
import VitaConnect.Ftp.Sockets
import VitaConnect.Ftp.SocketTriples
import VitaConnect.Ftp.SocketSession
import VitaConnect.CString.Words
import VitaConnect.Pbp.Reads
import VitaConnect.Pbp.Kind
import VitaConnect.Pbp.ContentId
import VitaConnect.Pbp.Delivered
import VitaConnect.Pbp.DeliveredId
import VitaConnect.Pbp.HashLoop
import VitaConnect.Pbp.ReadFailures
import VitaConnect.CString.Memory
import VitaConnect.Sfo.Buffer
import VitaConnect.Sfo.Search
import VitaConnect.Sfo.InBounds
import VitaConnect.Sfo.Layout
import VitaConnect.CString.SqlLiteral
import VitaConnect.Rif.Database
import VitaConnect.Rif.Statements
import VitaConnect.CString.Conversion
import VitaConnect.Ftp.Notification
import VitaConnect.CString.Decimal
import VitaConnect.Ftp.Endpoint
import VitaConnect.UsbDevice.Hooks
import VitaConnect.UsbDevice.Transparency
import VitaConnect.Program.EarlyReturn
import VitaConnect.Promoter.Installer
import VitaConnect.CString.CaseFold
import VitaConnect.Files.Location
import VitaConnect.Pbp.HashWhole
import VitaConnect.Files.Guard
import VitaConnect.Files.Split
import VitaConnect.Files.Calls
import VitaConnect.Files.Process
import VitaConnect.Files.Outcomes
import VitaConnect.Files.Remove
import VitaConnect.Files.CopyFile
import VitaConnect.Files.Copy
import VitaConnect.Files.Move
import VitaConnect.Storage.Shift
import VitaConnect.Files.Conserve
import VitaConnect.Files.Symlink
import VitaConnect.Files.Progress
import VitaConnect.Files.Maximum
import VitaConnect.Ftp.FullPath
import VitaConnect.Ftp.Parent
import VitaConnect.Ftp.PortArgument
import VitaConnect.CString.Fields
import VitaConnect.Ftp.ListLine
import VitaConnect.Ftp.Tables
import VitaConnect.Modes.Devices
import VitaConnect.Ftp.Utf8
import VitaConnect.Pfs.Mount
import VitaConnect.Refresh.Needed
import VitaConnect.Refresh.Mounts
import VitaConnect.Refresh.Metadata
import VitaConnect.CString.Store
import VitaConnect.Sfo.Update
import VitaConnect.Licenses.Walk
import VitaConnect.Pbp.ParamSfo
import VitaConnect.Licenses.Import
import VitaConnect.Rif.Handles
import VitaConnect.Refresh.Psp
import VitaConnect.Refresh.PspCalls
import VitaConnect.Refresh.PspMove
import VitaConnect.Refresh.PspTransaction
import VitaConnect.Program.Blocks
import VitaConnect.Hash.Words
import VitaConnect.Hash.Context
import VitaConnect.Hash.Sha256
import VitaConnect.Hash.Sha1
import VitaConnect.Files.Digest
import VitaConnect.Pbp.Signature
import VitaConnect.Refresh.PspSignature
import VitaConnect.Storage.FirstWins
import VitaConnect.Licenses.Store
import VitaConnect.Storage.AppendStore
import VitaConnect.Ftp.FileStore
import VitaConnect.Ftp.ClientMemory
import VitaConnect.Modes.Redirect
import VitaConnect.Modes.UsbResources
import VitaConnect.Refresh.Published
import VitaConnect.Storage.Overlay
import VitaConnect.Rif.Vfs
import VitaConnect.Modules.Loads
import VitaConnect.Ftp.Truthful
import VitaConnect.Program.Mailbox
import VitaConnect.Modes.Notices
import VitaConnect.Modes.ActivateButton
