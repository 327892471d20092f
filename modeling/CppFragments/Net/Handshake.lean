import CppFragments.Bytes.Framing
import CppFragments.WebSocket.Frame

/-! # From the connection to the receive loop

`perform_websocket_handshake`, `subscribe_ticker_book` and the part of `main`
that calls them, of `net/wss_client.cpp`. Each reads the server's stream once,
into a buffer of its own, and keeps nothing of what it read.
-/

namespace CppFragments

open Framing (stream)

/-- The reading side of the TLS connection. -/
structure SslConnection where
  /-- What the server sends and has not been read. -/
  unread : List UInt8
  /-- How many bytes each coming call of `SSL_read` has at hand. -/
  offers : List Nat
  deriving DecidableEq

namespace SslConnection

/-- The number of bytes a call of `SSL_read` with room for `size` returns: at
least one as long as there are any. -/
def delivered (ssl : SslConnection) (size : Nat) : Nat :=
  min (max 1 (ssl.offers.headD 1)) (min size ssl.unread.length)

def afterRead (ssl : SslConnection) (size : Nat) : SslConnection :=
  ⟨ssl.unread.drop (ssl.delivered size), ssl.offers.tail⟩

end SslConnection

def sslRead (ssl : SslConnection) (size : Nat) : Int × List UInt8 × SslConnection :=
  (ssl.delivered size, ssl.unread.take (ssl.delivered size), ssl.afterRead size)

def handshakeRequest (host path : List UInt8) : List UInt8 :=
  literal "GET " ++ path ++ literal " HTTP/1.1\r\n" ++
    literal "Host: " ++ host ++ literal "\r\n" ++
    literal "Upgrade: websocket\r\n" ++
    literal "Connection: Upgrade\r\n" ++
    literal "Sec-WebSocket-Key: " ++ literal "dGhlIHNhbXBsZSBub25jZQ==" ++ literal "\r\n" ++
    literal "Sec-WebSocket-Version: 13\r\n\r\n"

def switchingProtocols : List UInt8 :=
  literal "101 Switching Protocols"

def performWebsocketHandshake (sslWrite : List UInt8 → Int) (ssl : SslConnection)
    (host path : List UInt8) : Bool × SslConnection :=
  if sslWrite (handshakeRequest host path) ≤ 0 then (false, ssl)
  else
    let (bytesRead, response, ssl) := sslRead ssl 4095
    if bytesRead ≤ 0 then (false, ssl)
    -- The response is searched as a C string, up to its first NUL.
    else (switchingProtocols <:+: response.takeWhile (· ≠ 0), ssl)

def subscribeMessage : List UInt8 :=
  literal "\x7b\"method\":\"SUBSCRIBE\", \"id\":1, \"params\": [\"btcusdt@bookTicker\"]\x7d"

def subscribeFrame : List UInt8 :=
  [0x81, UInt8.ofNat subscribeMessage.length] ++ subscribeMessage

def subscribeTickerBook (sslWrite : List UInt8 → Int) (ssl : SslConnection) :
    Bool × SslConnection :=
  if sslWrite subscribeFrame ≤ 0 then (false, ssl)
  else
    let (len, _, ssl) := sslRead ssl 1023
    if len < 0 then (false, ssl) else (true, ssl)

/-- The connection as `main` hands it to `read_and_process_message`. -/
def enterReceiveLoop (sslWrite : List UInt8 → Int) (ssl : SslConnection)
    (host path : List UInt8) : Option SslConnection :=
  let (accepted, ssl) := performWebsocketHandshake sslWrite ssl host path
  if !accepted then none
  else
    let (subscribed, ssl) := subscribeTickerBook sslWrite ssl
    if !subscribed then none else some ssl

/-! ## Where the receive loop starts -/

/-- The header block of the server's response, up to and with the empty line. -/
structure ResponseHeader where
  bytes : List UInt8
  switching : switchingProtocols <:+: bytes
  ended : literal "\r\n\r\n" <:+ bytes

/-- The connection at the beginning of the response. -/
def SslConnection.responding (header : ResponseHeader) (frames : List Frame)
    (offers : List Nat) : SslConnection :=
  ⟨header.bytes ++ stream Frame.encode frames, offers⟩

/-- The next byte is the first one of a frame, or there is none. -/
def AtFrameBoundary (frames : List Frame) (ssl : SslConnection) : Prop :=
  ∃ count ≤ frames.length, ssl.unread = stream Frame.encode (frames.drop count)

/-- Both calls of `SSL_write` succeed and the bytes of the first `SSL_read`
hold the expected status line. -/
structure HandshakeSucceeds (sslWrite : List UInt8 → Int) (ssl : SslConnection)
    (host path : List UInt8) : Prop where
  requested : 0 < sslWrite (handshakeRequest host path)
  switching : switchingProtocols <:+: (ssl.unread.take (ssl.delivered 4095)).takeWhile (· ≠ 0)
  subscribed : 0 < sslWrite subscribeFrame

section Enter

variable {sslWrite : List UInt8 → Int} {ssl ssl' : SslConnection} {host path : List UInt8}

theorem switchingProtocols_ne_nil : switchingProtocols ≠ [] := by
  decide

theorem performWebsocketHandshake_eq_true_iff :
    performWebsocketHandshake sslWrite ssl host path = (true, ssl') ↔
      0 < sslWrite (handshakeRequest host path) ∧
      switchingProtocols <:+: (ssl.unread.take (ssl.delivered 4095)).takeWhile (· ≠ 0) ∧
      ssl' = ssl.afterRead 4095 := by
  unfold performWebsocketHandshake sslRead
  split
  next hfailed =>
    simp only [Prod.mk.injEq, Bool.false_eq_true, false_and, false_iff]
    intro hsucceeds
    have hwritten := hsucceeds.1
    omega
  next hwritten =>
    dsimp only
    split
    next hnone =>
      have hzero : ssl.delivered 4095 = 0 := by omega
      rw [hzero, List.take_zero, List.takeWhile_nil]
      simp [switchingProtocols_ne_nil]
    · rw [Prod.mk.injEq, decide_eq_true_iff, @eq_comm _ ssl']
      exact ⟨fun ⟨hfound, hssl⟩ => ⟨by omega, hfound, hssl⟩,
        fun ⟨_, hfound, hssl⟩ => ⟨hfound, hssl⟩⟩

theorem subscribeTickerBook_eq_true_iff :
    subscribeTickerBook sslWrite ssl = (true, ssl') ↔
      0 < sslWrite subscribeFrame ∧ ssl' = ssl.afterRead 1023 := by
  unfold subscribeTickerBook sslRead
  split
  next hfailed =>
    simp only [Prod.mk.injEq, Bool.false_eq_true, false_and, false_iff]
    intro hsucceeds
    have hwritten := hsucceeds.1
    omega
  next hwritten =>
    dsimp only
    -- A count of bytes is never negative, so the end of the stream passes too.
    rw [if_neg (by omega)]
    have hpos : 0 < sslWrite subscribeFrame := by omega
    simp [eq_comm, hpos]

theorem enterReceiveLoop_eq_some_iff :
    enterReceiveLoop sslWrite ssl host path = some ssl' ↔
      HandshakeSucceeds sslWrite ssl host path ∧ ssl' = (ssl.afterRead 4095).afterRead 1023 := by
  have hstages : enterReceiveLoop sslWrite ssl host path = some ssl' ↔
      ∃ middle, performWebsocketHandshake sslWrite ssl host path = (true, middle) ∧
        subscribeTickerBook sslWrite middle = (true, ssl') := by
    unfold enterReceiveLoop
    rcases performWebsocketHandshake sslWrite ssl host path with ⟨_ | _, middle⟩
    · simp
    · rcases hsubscribe : subscribeTickerBook sslWrite middle with ⟨_ | _, last⟩ <;>
        simp [hsubscribe]
  simp only [hstages, performWebsocketHandshake_eq_true_iff, subscribeTickerBook_eq_true_iff]
  constructor
  · intro hentered
    rcases hentered with ⟨middle, ⟨hrequested, hswitching, rfl⟩, hsubscribed, rfl⟩
    exact ⟨⟨hrequested, hswitching, hsubscribed⟩, rfl⟩
  · intro hsucceeds
    rcases hsucceeds with ⟨⟨hrequested, hswitching, hsubscribed⟩, rfl⟩
    exact ⟨ssl.afterRead 4095, ⟨hrequested, hswitching, rfl⟩, hsubscribed, rfl⟩

/-- The bytes left after both reads. -/
theorem unread_afterReads (ssl : SslConnection) :
    ((ssl.afterRead 4095).afterRead 1023).unread =
      ssl.unread.drop (ssl.delivered 4095 + (ssl.afterRead 4095).delivered 1023) := by
  simp only [SslConnection.afterRead, List.drop_drop]

theorem delivered_le (ssl : SslConnection) (size : Nat) :
    ssl.delivered size ≤ ssl.unread.length := by
  unfold SslConnection.delivered
  omega

theorem delivered_add_le (ssl : SslConnection) :
    ssl.delivered 4095 + (ssl.afterRead 4095).delivered 1023 ≤ ssl.unread.length := by
  have hfirst := delivered_le ssl 4095
  have hsecond := delivered_le (ssl.afterRead 4095) 1023
  have hleft : (ssl.afterRead 4095).unread.length = ssl.unread.length - ssl.delivered 4095 :=
    List.length_drop
  omega

theorem drop_eq_right_iff {α : Type} (first second : List α) {count : Nat}
    (hcount : count ≤ (first ++ second).length) :
    (first ++ second).drop count = second ↔ count = first.length := by
  constructor
  · intro heq
    have hlength := congrArg List.length heq
    rw [List.length_drop, List.length_append] at hlength
    rw [List.length_append] at hcount
    omega
  · intro heq
    rw [heq]
    exact List.drop_left

/-- **The receive loop starts on a frame boundary exactly when the two reads
before it end at one**: together they must have delivered the header block and
a number of whole frames. -/
theorem atFrameBoundary_iff (sslWrite : List UInt8 → Int) (host path : List UInt8)
    (header : ResponseHeader) (frames : List Frame) (offers : List Nat) :
    (∀ ssl, enterReceiveLoop sslWrite (.responding header frames offers) host path = some ssl →
      AtFrameBoundary frames ssl) ↔
    (HandshakeSucceeds sslWrite (.responding header frames offers) host path →
      ∃ count ≤ frames.length,
        (SslConnection.responding header frames offers).delivered 4095 +
          ((SslConnection.responding header frames offers).afterRead 4095).delivered 1023 =
        header.bytes.length + (stream Frame.encode (frames.take count)).length) := by
  generalize hssl : SslConnection.responding header frames offers = ssl
  have hunread : ssl.unread = header.bytes ++ stream Frame.encode frames := by rw [← hssl]; rfl
  have hle := delivered_add_le ssl
  -- What is unread is a suffix of the response, so the counts say where it begins.
  have hboundary : ∀ count ≤ frames.length,
      ((ssl.afterRead 4095).afterRead 1023).unread = stream Frame.encode (frames.drop count) ↔
        ssl.delivered 4095 + (ssl.afterRead 4095).delivered 1023 =
          header.bytes.length + (stream Frame.encode (frames.take count)).length := by
    intro count _
    rw [← Framing.stream_take_append_drop Frame.encode frames count, ← List.append_assoc]
      at hunread
    rw [unread_afterReads, ← List.length_append]
    rw [hunread] at hle ⊢
    exact drop_eq_right_iff _ _ hle
  simp only [enterReceiveLoop_eq_some_iff]
  constructor
  · intro haligned hsucceeds
    obtain ⟨count, hcount, heq⟩ := haligned _ ⟨hsucceeds, rfl⟩
    exact ⟨count, hcount, (hboundary count hcount).mp heq⟩
  · intro hends entered hentered
    rcases hentered with ⟨hsucceeds, rfl⟩
    obtain ⟨count, hcount, heq⟩ := hends hsucceeds
    exact ⟨count, hcount, (hboundary count hcount).mpr heq⟩

/-- A response of 36 bytes. -/
def shortResponse : ResponseHeader :=
  ⟨literal "HTTP/1.1 101 Switching Protocols\r\n\r\n", by decide +kernel, by decide +kernel⟩

/-- An unmasked Text frame of four bytes. -/
def shortFrame : Frame := ⟨true, false, false, false, WSOpcode.Text.number, none, [0x68, 0x69]⟩

/-- The second read delivers one byte of the first frame. The receive loop
starts at its second byte. -/
theorem shortResponse_not_atFrameBoundary :
    ∃ ssl, enterReceiveLoop (fun bytes => bytes.length)
        (.responding shortResponse [shortFrame] [36, 1]) (literal "stream.binance.com")
        (literal "/stream") = some ssl ∧
      ssl.unread = [0x02, 0x68, 0x69] ∧ ¬ AtFrameBoundary [shortFrame] ssl := by
  refine ⟨⟨[0x02, 0x68, 0x69], []⟩, ?_, rfl, ?_⟩
  · exact enterReceiveLoop_eq_some_iff.mpr
      ⟨⟨by decide +kernel, by decide +kernel, by decide +kernel⟩, by decide +kernel⟩
  · intro haligned
    rcases haligned with ⟨count, hcount, heq⟩
    cases count with
    | zero => exact absurd heq (by decide +kernel)
    | succ count =>
        have hnil : [shortFrame].drop (count + 1) = [] := by simp
        rw [hnil] at heq
        cases heq

end Enter

end CppFragments
