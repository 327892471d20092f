import CppFragments.Program.Outcome
import CppFragments.Program.Calls
import CppFragments.Program.Handles
import CppFragments.Transition.Run
import CppFragments.Transition.Climb
import CppFragments.Transition.Fifo
import CppFragments.Transition.Settle
import CppFragments.Transition.Total
import CppFragments.Transition.ForkJoin
import CppFragments.Transition.Mutex
import CppFragments.Bytes.BigEndian
import CppFragments.Bytes.Keystream
import CppFragments.Bytes.Framing
import CppFragments.Bytes.Base64
import CppFragments.Bytes.Base64Decode
import CppFragments.Text.Split
import CppFragments.Numeric.Scaling
import CppFragments.Util.Machine
import CppFragments.Util.StringHelper
import CppFragments.Util.SplitEnds
import CppFragments.Util.Trim
import CppFragments.Util.Params
import CppFragments.Util.ByteBuffer
import CppFragments.Util.BufferRuns
import CppFragments.Util.BufferQueue
import CppFragments.Util.WebSocketPacket
import CppFragments.WebSocket.Frame
import CppFragments.WebSocket.Message
import CppFragments.WebSocket.Decode
import CppFragments.WebSocket.Written
import CppFragments.WebSocket.Pack
import CppFragments.WebSocket.Decoded
import CppFragments.WebSocket.Repack
import CppFragments.WebSocket.SeenHeader
import CppFragments.WebSocket.HeaderSize
import CppFragments.WebSocket.Acceptance
import CppFragments.WebSocket.Bounds
import CppFragments.WebSocket.History
import CppFragments.WebSocket.Piece
import CppFragments.WebSocket.Unambiguous
import CppFragments.Encrypt.Base64
import CppFragments.Net.FrameEncoder
import CppFragments.Net.Handshake
import CppFragments.Net.HttpHeaders
import CppFragments.Net.ReceiveLoop
import CppFragments.Net.TextMessage
import CppFragments.Net.ReceivePass
import CppFragments.Net.ReceiveRun
import CppFragments.Net.Answers
import CppFragments.Net.Waiting
import CppFragments.Net.ParseProgress
import CppFragments.Net.Reassembly
import CppFragments.Net.AnyBytes
import CppFragments.Net.EndToEnd
import CppFragments.Net.TcpServer
import CppFragments.Net.Client
import CppFragments.Net.ClientHandles
import CppFragments.Net.ClientOrder
import CppFragments.Net.Session
import CppFragments.Event.WorkQueue
import CppFragments.Event.EventBase
import CppFragments.Event.EventLoop
import CppFragments.Event.Order
import CppFragments.Event.LeftAlone
import CppFragments.Event.Stopped
import CppFragments.Config.LoadConfig
import CppFragments.Concurrent.Lock
import CppFragments.Concurrent.Completion
import CppFragments.Lock.LockBase
import CppFragments.Sync.SyncBase
import CppFragments.Main.Decimal
