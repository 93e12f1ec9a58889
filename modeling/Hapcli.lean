import Hapcli.Modem.ZmodemSession
import Hapcli.Modem.ZmodemIntegrity
import Hapcli.Modem.XymodemSession
import Hapcli.Trzsz.BufferChunks
import Hapcli.Trzsz.Escape
import Hapcli.Trzsz.Session
import Hapcli.Trzsz.Filter
import Hapcli.Trzsz.HandleOwners
import Hapcli.Terminal.Drain
import Hapcli.Terminal.FilterChunks
import Hapcli.Graphics.ImageShape
import Hapcli.Editor.Search
import Hapcli.Editor.Positions
import Hapcli.Ssh.HostKey
import Hapcli.Ssh.SftpGeneration
import Hapcli.Ssh.TreeRuns
import Hapcli.Ssh.TreeExports
import Hapcli.Ssh.ConnectionIndex
import Hapcli.Ssh.ConnectPlan
import Hapcli.Ssh.Reconnect
import Hapcli.Ssh.RegistryStates
import Hapcli.Ssh.RegistryDescendants
import Hapcli.Connections.HostPatterns
import Hapcli.Connections.ImportAtomicity
import Hapcli.Connections.OxideFile
import Hapcli.Forwarding.Rebind
import Hapcli.Forwarding.Remote
import Hapcli.Sftp.Permits
import Hapcli.Sftp.ProgressStore
import Hapcli.Sftp.Shutdown
import Hapcli.Sftp.UploadExact
import Hapcli.Terminal.Recording
import Hapcli.Vnc.Mirror
import Hapcli.X11.Gate
import Hapcli.CloudSync.Merge
import Hapcli.Sftp.TextDiff
import Hapcli.Sftp.ScpUpload
import Hapcli.Sftp.ScpDownload
import Hapcli.Ai.ToolRecords
import Hapcli.QuickCommands.Import
import Hapcli.Ide.WorkspaceRuns
import Hapcli.Terminal.TelnetEscaping
import Hapcli.Modem.Stream
import Hapcli.Modem.Masking
import Hapcli.Modem.ZmodemResync
import Hapcli.Modem.XymodemCodec
import Hapcli.Graphics.ImageStore
import Hapcli.Graphics.EntryPoints
import Hapcli.Graphics.PixelBudget
import Hapcli.Graphics.Animation
import Hapcli.Terminal.ChunkScanners
import Hapcli.Forwarding.Drain
