import CppFragments.Config.LoadConfig
import CppFragments.Net.FrameEncoder
import CppFragments.Net.Handshake
import CppFragments.Net.ReceiveRun
import CppFragments.Program.Handles

/-! # The clients as programs

`create_tls_connection` and `main` of `net/wss_client.cpp` and
`net/wss_client_okx.cpp`, and `main` of `net/ws_client.cpp`, as programs that call
OpenSSL and the socket interface. Any call may answer anything.
-/

namespace CppFragments.Client

open Calls LoopState Transition

inductive Handle
  | context
  | socket
  | ssl
  deriving DecidableEq

inductive ServerAddress
  /-- What `gethostbyname` has found. -/
  | resolved (bytes : List UInt8)
  /-- What `inet_addr` makes of a text. -/
  | inetAddr (text : List UInt8)

inductive NetCall
  | sslCtxNew
  | sslCtxSetCipherList
  | sslCtxFree
  | gethostbyname (host : List UInt8)
  | socket
  | bind (localIp : List UInt8)
  | connect (address : ServerAddress) (port : Nat)
  | send (bytes : List UInt8)
  | recv (size : Nat)
  | close
  | sslNew
  | sslSetFd
  | sslSetTlsextHostName (host : List UInt8)
  | sslConnect
  | sslWrite (bytes : List UInt8)
  | sslRead (size : Nat)
  | sslPending
  | sslGetError
  | sslFree

structure Answer where
  /-- Of a call that returns a pointer, 0 if it is null. -/
  result : Int
  /-- What the call has stored. -/
  bytes : List UInt8

abbrev NetProg := Prog NetCall Answer

/-- Reading and writing on the TLS connection uses the socket below it. -/
def handles : Interface NetCall Answer Handle where
  uses
    | .sslCtxSetCipherList | .sslCtxFree | .sslNew => [.context]
    | .bind _ | .connect _ _ | .send _ | .recv _ | .close => [.socket]
    | .sslSetFd | .sslConnect | .sslWrite _ | .sslRead _ => [.ssl, .socket]
    | .sslSetTlsextHostName _ | .sslPending | .sslGetError | .sslFree => [.ssl]
    | .sslCtxNew | .gethostbyname _ | .socket => []
  opens
    | .sslCtxNew => some .context
    | .socket => some .socket
    | .sslNew => some .ssl
    | _ => none
  succeeds
    | .socket, answer => 0 ≤ answer.result
    | _, answer => answer.result ≠ 0
  closes
    | .sslCtxFree => some .context
    | .close => some .socket
    | .sslFree => some .ssl
    | _ => none

/-! ## The connection -/

/-- Step 4 of `create_tls_connection`. -/
def bindLocal (localIp : List UInt8) : NetProg Bool := do
  if localIp = [] then return true
  let bound ← Prog.ask (.bind localIp)
  if bound.result = -1 then
    let _ ← Prog.ask .close
    return false
  return true

/-- Step 5. -/
def connectServer (address : ServerAddress) (port : Nat) : NetProg Bool := do
  let connected ← Prog.ask (.connect address port)
  if connected.result < 0 then
    let _ ← Prog.ask .close
    return false
  return true

/-- Steps 2 to 5. -/
def connectSocket (host : List UInt8) (port : Nat) (remoteIp localIp : List UInt8) :
    NetProg Bool := do
  let server ← Prog.ask (.gethostbyname host)
  if server.result = 0 then return false
  let address := if remoteIp ≠ [] then .inetAddr remoteIp else .resolved server.bytes
  let socketFd ← Prog.ask .socket
  if socketFd.result < 0 then return false
  if !(← bindLocal localIp) then return false
  connectServer address port

/-- `create_tls_connection` of `wss_client.cpp`. -/
def createTlsConnection (host : List UInt8) (port : Nat) (remoteIp localIp : List UInt8) :
    NetProg Bool := do
  let ctx ← Prog.ask .sslCtxNew
  if ctx.result = 0 then return false
  if !(← connectSocket host port remoteIp localIp) then return false
  -- Whether this is a null pointer is not looked at before it is used.
  let ssl ← Prog.ask .sslNew
  let _ ← Prog.ask .sslSetFd
  let connected ← Prog.ask .sslConnect
  if connected.result ≤ 0 then
    let _ ← Prog.ask .sslFree
    let _ ← Prog.ask .close
    return false
  return ssl.result ≠ 0

/-- `create_tls_connection` of `wss_client_okx.cpp`. -/
def createTlsConnectionOkx (host : List UInt8) (port : Nat) (remoteIp localIp : List UInt8) :
    NetProg Bool := do
  let ctx ← Prog.ask .sslCtxNew
  if ctx.result = 0 then return false
  let _ ← Prog.ask .sslCtxSetCipherList
  if !(← connectSocket host port remoteIp localIp) then return false
  let ssl ← Prog.ask .sslNew
  let _ ← Prog.ask .sslSetFd
  let named ← Prog.ask (.sslSetTlsextHostName host)
  if named.result ≠ 1 then
    let _ ← Prog.ask .sslFree
    let _ ← Prog.ask .close
    let _ ← Prog.ask .sslCtxFree
    return false
  let connected ← Prog.ask .sslConnect
  if connected.result ≤ 0 then
    let _ ← Prog.ask .sslFree
    let _ ← Prog.ask .close
    return false
  let _ ← Prog.ask .sslCtxFree
  return ssl.result ≠ 0

/-! ## The exchange before the receive loop -/

def performWebsocketHandshake (host path : List UInt8) : NetProg Bool := do
  let written ← Prog.ask (.sslWrite (handshakeRequest host path))
  if written.result ≤ 0 then return false
  let response ← Prog.ask (.sslRead 4095)
  if response.result ≤ 0 then return false
  return switchingProtocols <:+: response.bytes.takeWhile (· ≠ 0)

def subscribeTickerBook : NetProg Bool := do
  let written ← Prog.ask (.sslWrite subscribeFrame)
  if written.result ≤ 0 then return false
  let response ← Prog.ask (.sslRead 1023)
  if response.result < 0 then return false
  return true

/-- The TLS library on an established connection. -/
def answerTls (sslWrite : List UInt8 → Int) (ssl : SslConnection) :
    NetCall → Answer × SslConnection
  | .sslWrite bytes => (⟨sslWrite bytes, []⟩, ssl)
  | .sslRead size =>
      let (count, bytes, ssl) := sslRead ssl size
      (⟨count, bytes⟩, ssl)
  | _ => (⟨0, []⟩, ssl)

section Answers

variable {sslWrite : List UInt8 → Int} {ssl : SslConnection} {host path : List UInt8}

theorem eval_performWebsocketHandshake :
    (performWebsocketHandshake host path).eval (answerTls sslWrite) ssl =
      CppFragments.performWebsocketHandshake sslWrite ssl host path := by
  simp only [performWebsocketHandshake, eval_bind, eval_ite, eval_pure]
  rfl

theorem eval_subscribeTickerBook :
    subscribeTickerBook.eval (answerTls sslWrite) ssl =
      CppFragments.subscribeTickerBook sslWrite ssl := by
  simp only [subscribeTickerBook, eval_bind, eval_ite, eval_pure]
  rfl

end Answers

/-! ## main -/

/-- The calls in one step of the receive loop. -/
def receiveCalls : LoopEvent → List NetCall
  | .sslRead _ _ => [.sslRead 1023, .sslPending]
  | .wouldBlock | .failed => [.sslRead 1023, .sslGetError]
  | .closed => [.sslRead 1023]
  | .message _ _ writes _ => writes.map .sslWrite
  | .enter | .incomplete | .frame _ | .fault _ => []

/-- What `read_and_process_message` does, so far or until it returns. -/
structure Reception (parse : List UInt8 → Option JsonValue) where
  moves : LoopMoves
  state : LoopState
  run : Run (LoopStep parse) start moves state

/-- `read_and_process_message`, with `none` if it does not return. -/
def readAndProcessMessage {parse : List UInt8 → Option JsonValue} (reception : Reception parse) :
    NetProg (Option Bool) := do
  Prog.askAll ((labels reception.moves).flatMap receiveCalls)
  match reception.state.point with
  | .returned result => return some result
  | _ => return none

/-- The end of `main`. -/
def cleanUp (code : Int) : NetProg (Option Int) := do
  let _ ← Prog.ask .sslFree
  let _ ← Prog.ask .close
  return some code

/-- What `main` does once the connection is there. -/
def communicate {parse : List UInt8 → Option JsonValue} (host path : List UInt8)
    (reception : Reception parse) : NetProg (Option Int) := do
  if !(← performWebsocketHandshake host path) then cleanUp 1
  else if !(← subscribeTickerBook) then cleanUp 1
  else
    match ← readAndProcessMessage reception with
    | none => return none
    | some _ => cleanUp 0

/-- `main`, on what `LoadConfig` has come to, with `none` if it does not return. -/
def mainWith (create : List UInt8 → Nat → List UInt8 → List UInt8 → NetProg Bool)
    (host : List UInt8) (port : Nat) (path : List UInt8)
    {parse : List UInt8 → Option JsonValue} (argc : Int) (config? : Option Config)
    (reception : Reception parse) : NetProg (Option Int) := do
  if argc < 2 then return some 0
  match config? with
  | none => return some 1
  | some config =>
      if !(← create host port (cString (config .binanceTickerWsIp))
          (cString (config .binanceTickerLocalIp))) then return some 1
      communicate host path reception

/-- `main` of `wss_client.cpp`. -/
def main {parse : List UInt8 → Option JsonValue} (argc : Int) (config? : Option Config)
    (reception : Reception parse) : NetProg (Option Int) :=
  mainWith createTlsConnection (literal "stream.binance.com") 9443 (literal "/stream") argc config?
    reception

/-- `main` of `wss_client_okx.cpp`. -/
def mainOkx {parse : List UInt8 → Option JsonValue} (argc : Int) (config? : Option Config)
    (reception : Reception parse) : NetProg (Option Int) :=
  mainWith createTlsConnectionOkx (literal "ws.okx.com") 8443 (literal "/ws/v5/public") argc
    config? reception

/-- One call of `send` or `recv` by `main` of `ws_client.cpp`. -/
def exchange (request : NetCall) : NetProg Bool := do
  let answer ← Prog.ask request
  if answer.result < 0 then
    let _ ← Prog.ask .close
    return false
  return true

/-- `main` of `ws_client.cpp`. -/
def mainWs (maskingKey : MaskingKey) : NetProg Int := do
  let host := literal "echo.websocket.events"
  let server ← Prog.ask (.gethostbyname host)
  if server.result = 0 then return 1
  let sock ← Prog.ask .socket
  if sock.result < 0 then return 1
  if !(← connectServer (.resolved server.bytes) 80) then return 1
  if !(← exchange (.send (handshakeRequest host (literal "/")))) then return 1
  if !(← exchange (.recv 1023)) then return 1
  if !(← exchange (.send (createWebsocketFrame (literal "Hello, WebSocket!") maskingKey))) then
    return 1
  if !(← exchange (.recv 1023)) then return 1
  let _ ← Prog.ask .close
  return 0

end CppFragments.Client
