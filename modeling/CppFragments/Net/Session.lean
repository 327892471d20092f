import CppFragments.Net.ClientOrder

/-! # A whole session

`main` of `net/wss_client.cpp` from the connection on: the request, the
subscription, and the receive loop. The bytes that are read before the loop are
not seen by it.
-/

namespace CppFragments

open ByteBuffer WebSocketPacket LoopState Transition Calls
open Framing (stream)

/-- What the client hands to `SSL_write` once it is connected, when its receive loop goes
as `reception` says. -/
def sessionWritten {parse : List UInt8 → Option JsonValue} (sslWrite : List UInt8 → Int)
    (ssl : SslConnection) (host path : List UInt8) (reception : Client.Reception parse) :
    List UInt8 :=
  Client.said
    ((Client.communicate host path reception).transcript (Client.answerTls sslWrite) ssl)

/-- How many bytes the handshake and the subscription read. -/
def SslConnection.readBefore (ssl : SslConnection) : Nat :=
  ssl.delivered 4095 + (ssl.afterRead 4095).delivered 1023

/-- The connection at the beginning of the response, before frames that the loop can
decode. -/
def SslConnection.answering (header : ResponseHeader) (frames : List ShortFrame)
    (offers : List Nat) : SslConnection :=
  .responding header (frames.map ShortFrame.toFrame) offers

section Session

variable {parse : List UInt8 → Option JsonValue} {reception : Client.Reception parse}
variable {sslWrite : List UInt8 → Int} {ssl : SslConnection} {host path : List UInt8}
variable {header : ResponseHeader} {frames : List ShortFrame} {offers : List Nat}

/-- The loop starts with the first frame that was not read before. -/
theorem unread_of_entered (hentered : enterReceiveLoop sslWrite (.answering header frames offers)
      host path = some ssl)
    {skipped : Nat}
    (hends : (SslConnection.answering header frames offers).readBefore =
      header.bytes.length + (stream ShortFrame.encode (frames.take skipped)).length) :
    ssl.unread = stream ShortFrame.encode (frames.drop skipped) := by
  obtain ⟨_, rfl⟩ := enterReceiveLoop_eq_some_iff.mp hentered
  have hframes : stream Frame.encode (frames.map ShortFrame.toFrame) =
      stream ShortFrame.encode frames := by
    rw [stream, List.flatMap_map]
    rfl
  rw [SslConnection.readBefore] at hends
  rw [unread_afterReads, hends, SslConnection.answering, SslConnection.responding, hframes,
    ← Framing.stream_take_append_drop ShortFrame.encode frames skipped, ← List.append_assoc,
    ← List.length_append]
  exact List.drop_left

/-- Once it has come to the receive loop, the client does not fail. -/
theorem communicate_ne_failed {initial : SslConnection}
    (hentered : enterReceiveLoop sslWrite initial host path = some ssl) :
    ((Client.communicate host path reception).eval (Client.answerTls sslWrite) initial).1 ≠
      some 1 := by
  obtain ⟨hsucceeds, _⟩ := enterReceiveLoop_eq_some_iff.mp hentered
  have hupgraded : performWebsocketHandshake sslWrite initial host path =
      (true, initial.afterRead 4095) :=
    performWebsocketHandshake_eq_true_iff.mpr ⟨hsucceeds.requested, hsucceeds.switching, rfl⟩
  have hsubscribed : subscribeTickerBook sslWrite (initial.afterRead 4095) =
      (true, (initial.afterRead 4095).afterRead 1023) :=
    subscribeTickerBook_eq_true_iff.mpr ⟨hsucceeds.subscribed, rfl⟩
  rw [Client.communicate, eval_bind, Client.eval_performWebsocketHandshake, hupgraded]
  dsimp only
  rw [eval_ite, if_neg (by decide), eval_bind, Client.eval_subscribeTickerBook, hsubscribed]
  dsimp only
  rw [eval_ite, if_neg (by decide), eval_bind]
  split
  · nofun
  · exact fun hone => absurd (Option.some_injective _ hone) (by decide)

/-- On an established connection the client says its part of the session. -/
theorem sessionWritten_eq {initial : SslConnection}
    (hentered : enterReceiveLoop sslWrite initial host path = some ssl) :
    sessionWritten sslWrite initial host path reception =
      Client.script host path reception.moves := by
  have hgreeted : Client.Greeted [(.sslConnect, ⟨1, []⟩)] :=
    ⟨_, List.mem_cons_self, by decide⟩
  have hseen := seen_transcript (Client.communicate host path reception)
    (Client.answerTls sslWrite) initial
  rcases hseen.during_or_post (Client.keeps_communicate rfl hgreeted) with
    ⟨hnone, _⟩ | ⟨code?, hcode, hspoken⟩
  · cases hnone
  · have hsaid := hspoken.2 (Option.some_injective _ hcode ▸ communicate_ne_failed hentered)
    rwa [foldl_remember, Client.said_append] at hsaid

/-- **A session in which the first two reads end with a frame.** The client hands OpenSSL its
request and its subscription, and then one Pong for each Ping that it decodes. What
came with the first two reads is neither decoded nor answered. The frames after it
are decoded in order, all of them if everything is received and nothing of it is
left in `recv_buf`. -/
theorem session_answers (hentered : enterReceiveLoop sslWrite (.answering header frames offers)
      host path = some ssl)
    {skipped : Nat} (hskipped : skipped ≤ frames.length)
    (hends : (SslConnection.answering header frames offers).readBefore =
      header.bytes.length + (stream ShortFrame.encode (frames.take skipped)).length)
    (hseen : bytesReceived reception.moves <+: ssl.unread)
    (hsmall : ∀ move ∈ reception.moves, move.target.recvBuf.data.length < 2 ^ 31) :
    ∃ count, skipped + count ≤ frames.length ∧
      framesDecoded reception.moves =
        ((frames.drop skipped).take count).map ShortFrame.decoded ∧
      sessionWritten sslWrite (.answering header frames offers) host path reception =
        handshakeRequest host path ++ subscribeFrame ++
          pongs (((frames.drop skipped).take count).map ShortFrame.decoded) ∧
      (bytesReceived reception.moves = ssl.unread →
        (∀ fault, reception.state.point ≠ .faulted fault) →
        reception.state.recvBuf.rest = [] → skipped + count = frames.length) := by
  have hunread := unread_of_entered hentered hends
  rw [hunread] at hseen
  obtain ⟨count, hcount, hdecoded, _, hall⟩ := frames_of_run reception.run hseen hsmall
  rw [List.length_drop] at hcount hall
  refine ⟨count, by omega, hdecoded, ?_, ?_⟩
  · rw [sessionWritten_eq hentered, Client.script, hdecoded]
  · intro hreceived hrunning hnone
    rw [hunread] at hreceived
    have htotal := hall hreceived hrunning hnone
    omega

/-- A Text frame with the confirmation, and then a Ping. -/
def confirmedPing : List ShortFrame :=
  [⟨shortFrame, by decide⟩, pingFrame.toShortFrame]

theorem session_answers_confirmedPing :
    ∃ count, 1 + count ≤ confirmedPing.length ∧
      framesDecoded Client.pingReception.moves =
        ((confirmedPing.drop 1).take count).map ShortFrame.decoded ∧
      sessionWritten (fun bytes => bytes.length)
          (.answering shortResponse confirmedPing [36, 4]) (literal "stream.binance.com")
          (literal "/stream") Client.pingReception =
        handshakeRequest (literal "stream.binance.com") (literal "/stream") ++ subscribeFrame ++
          pongs (((confirmedPing.drop 1).take count).map ShortFrame.decoded) ∧
      (bytesReceived Client.pingReception.moves = pingFrame.encode →
        (∀ fault, Client.pingReception.state.point ≠ .faulted fault) →
        Client.pingReception.state.recvBuf.rest = [] → 1 + count = confirmedPing.length) := by
  have hentered : enterReceiveLoop (fun bytes => bytes.length)
      (.answering shortResponse confirmedPing [36, 4]) (literal "stream.binance.com")
      (literal "/stream") = some ⟨pingFrame.encode, []⟩ :=
    enterReceiveLoop_eq_some_iff.mpr
      ⟨⟨by decide +kernel, by decide +kernel, by decide +kernel⟩, by decide +kernel⟩
  have hseen : bytesReceived Client.pingReception.moves <+: pingFrame.encode := by decide +kernel
  have hskipped : 1 ≤ confirmedPing.length := by decide
  exact session_answers hentered hskipped (by decide +kernel) hseen (by decide +kernel)

end Session

end CppFragments
