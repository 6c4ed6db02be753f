import Tavernmx.Lib.BoundedLog
import Tavernmx.Lib.Fallible
import Tavernmx.Lib.Mailbox
import Tavernmx.Lib.Runs
import Tavernmx.Shared.Framing
import Tavernmx.Shared.Messaging
import Tavernmx.Shared.RingBuffer
import Tavernmx.Server.Broadcast
import Tavernmx.Server.ClientWorker
import Tavernmx.Server.Worker
import Tavernmx.Client.ChatWindow
import Tavernmx.Client.MessageWorker
import Tavernmx.Session.Delivery
import Tavernmx.Session.Agreement
import Tavernmx.Session.Closing
import Tavernmx.Client.Screens
import Tavernmx.Client.Selection
import Tavernmx.Client.Signals
import Tavernmx.Lib.ThreadPool
import Tavernmx.Lib.Traversal
import Tavernmx.Server.AcceptLoop
import Tavernmx.Server.WorkerExit
import Tavernmx.Shared.Reception
import Tavernmx.Shared.RingTraversal
import Tavernmx.Shared.RoomRuns
import Tavernmx.Client.ChatHistory
import Tavernmx.Client.Heartbeat
import Tavernmx.Server.HistoryReply
import Tavernmx.Server.Notifications
import Tavernmx.Session.RoundTrips
import Tavernmx.Shared.Packers
import Tavernmx.Shared.Reassembly
import Tavernmx.Shared.Configuration
import Tavernmx.Shared.RingSize
import Tavernmx.Shared.Util
import Tavernmx.Client.ChatEntry
import Tavernmx.Client.NameColor
import Tavernmx.Client.RoomBuffers
import Tavernmx.Client.Scrolling
import Tavernmx.Client.WaitingFlag
import Tavernmx.Session.Spoken
import Tavernmx.Session.Honest
import Tavernmx.Session.Records
import Tavernmx.Session.Settling
import Tavernmx.Shared.ThreadSafeQueue
import Tavernmx.Server.LifeCycle
import Tavernmx.Server.PoolAdmission
import Tavernmx.Server.PoolDestructor
import Tavernmx.Client.Dialogue
import Tavernmx.Client.Attempts
import Tavernmx.Client.ConnectForm
