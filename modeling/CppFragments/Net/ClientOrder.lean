import CppFragments.Net.Client
import CppFragments.Net.EndToEnd

/-! # What the clients say

Whatever OpenSSL and the socket interface answer, a client hands the bytes of a session
to OpenSSL in their order, and no part of them before the answer that it waits for.
-/

namespace CppFragments.Client

open Calls LoopState Transition

/-- The bytes that a call hands to OpenSSL. -/
def NetCall.said : NetCall → List UInt8
  | .sslWrite bytes => bytes
  | _ => []

/-- A call that says nothing. -/
def NetCall.Silent (request : NetCall) : Prop := request.said = []

theorem NetCall.silent_sslRead (size : Nat) : NetCall.Silent (.sslRead size) := rfl

theorem NetCall.silent_sslFree : NetCall.Silent .sslFree := rfl

theorem NetCall.silent_close : NetCall.Silent .close := rfl

def said (made : List (NetCall × Answer)) : List UInt8 :=
  (made.map Prod.fst).flatMap NetCall.said

/-- What there is to say in a session whose receive loop takes these steps. -/
def script (host path : List UInt8) (moves : LoopMoves) : List UInt8 :=
  handshakeRequest host path ++ subscribeFrame ++ pongs (framesDecoded moves)

/-- The TLS handshake is done. -/
def Greeted (made : List (NetCall × Answer)) : Prop :=
  ∃ answer, (.sslConnect, answer) ∈ made ∧ 0 < answer.result

/-- The server has accepted the upgrade. -/
def Upgraded (made : List (NetCall × Answer)) : Prop :=
  ∃ answer, (.sslRead 4095, answer) ∈ made ∧ 0 < answer.result ∧
    switchingProtocols <:+: answer.bytes.takeWhile (· ≠ 0)

/-- As far as the calls go, they keep to the order of a session. -/
structure InOrder (host path : List UInt8) (moves : LoopMoves)
    (made : List (NetCall × Answer)) : Prop where
  within : said made <+: script host path moves
  greeted : said made ≠ [] → Greeted made
  upgraded : (handshakeRequest host path).length < (said made).length → Upgraded made

/-- At every call the client has kept to the order, and `post` holds of its calls when
it returns. -/
abbrev Keeps {α : Type} (host path : List UInt8) (moves : LoopMoves) (client : NetProg α)
    (post : α → List (NetCall × Answer) → Prop) (made : List (NetCall × Answer)) : Prop :=
  client.wp remember (InOrder host path moves) post made

section Made

variable {made answered : List (NetCall × Answer)} {request : NetCall} {answer : Answer}
variable {host path text : List UInt8} {moves : LoopMoves}

theorem said_append : said (made ++ answered) = said made ++ said answered := by
  rw [said, List.map_append, List.flatMap_append]
  rfl

theorem said_snoc : said (made ++ [(request, answer)]) = said made ++ request.said := by
  rw [said_append]
  exact congrArg (said made ++ ·) (List.append_nil _)

theorem said_silent (hsilent : request.Silent) :
    said (made ++ [(request, answer)]) = said made := by
  rw [said_snoc, hsilent, List.append_nil]

theorem Greeted.append (hgreeted : Greeted made) : Greeted (made ++ answered) := by
  obtain ⟨answer, hmem, hpositive⟩ := hgreeted
  exact ⟨answer, List.mem_append_left answered hmem, hpositive⟩

theorem Upgraded.append (hupgraded : Upgraded made) : Upgraded (made ++ answered) := by
  obtain ⟨answer, hmem, haccepted⟩ := hupgraded
  exact ⟨answer, List.mem_append_left answered hmem, haccepted⟩

theorem inOrder_of_silence (hsaid : said made = []) : InOrder host path moves made where
  within := hsaid ▸ List.nil_prefix
  greeted hne := absurd hsaid hne
  upgraded hlength := by simp [hsaid] at hlength

theorem inOrder_of_request (hsaid : said made = handshakeRequest host path)
    (hgreeted : Greeted made) : InOrder host path moves made where
  within := by
    rw [hsaid, script, List.append_assoc]
    exact List.prefix_append _ _
  greeted _ := hgreeted
  upgraded hlength := by simp [hsaid] at hlength

theorem InOrder.silent (horder : InOrder host path moves made) (hsilent : request.Silent) :
    InOrder host path moves (made ++ [(request, answer)]) where
  within := (said_silent hsilent).symm ▸ horder.within
  greeted hne := (horder.greeted (said_silent hsilent ▸ hne)).append
  upgraded hlength := (horder.upgraded (said_silent hsilent ▸ hlength)).append

/-- The server has accepted both handshakes, and `text` has been said. -/
structure Open (text : List UInt8) (made : List (NetCall × Answer)) : Prop where
  said : said made = text
  greeted : Greeted made
  upgraded : Upgraded made

theorem Open.inOrder (hopen : Open text made) (hwithin : text <+: script host path moves) :
    InOrder host path moves made :=
  ⟨hopen.said.symm ▸ hwithin, fun _ => hopen.greeted, fun _ => hopen.upgraded⟩

theorem Open.append (hopen : Open text made) :
    Open (text ++ Client.said answered) (made ++ answered) :=
  ⟨said_append.trans (congrArg (· ++ _) hopen.said), hopen.greeted.append, hopen.upgraded.append⟩

theorem Open.say {bytes : List UInt8} (hopen : Open text made) :
    Open (text ++ bytes) (made ++ [(.sslWrite bytes, answer)]) :=
  ⟨said_snoc.trans (congrArg (· ++ bytes) hopen.said), hopen.greeted.append,
    hopen.upgraded.append⟩

theorem Open.silent (hopen : Open text made) (hsilent : request.Silent) :
    Open text (made ++ [(request, answer)]) :=
  ⟨(said_silent hsilent).trans hopen.said, hopen.greeted.append, hopen.upgraded.append⟩

end Made

/-! ## Before the handshake -/

section Connect

variable {made : List (NetCall × Answer)} {moves : LoopMoves} {host path : List UInt8}
variable {server remoteIp localIp : List UInt8} {port : Nat}

theorem close_silent :
    (do let _ ← Prog.ask .close; return false : NetProg Bool).Makes NetCall.Silent :=
  makes_ask rfl fun _ => trivial

theorem bindLocal_silent : (bindLocal localIp).Makes NetCall.Silent := by
  unfold bindLocal
  split
  · trivial
  refine makes_ask rfl fun bound => ?_
  split
  · exact close_silent
  · trivial

theorem connectServer_silent {address : ServerAddress} :
    (connectServer address port).Makes NetCall.Silent := by
  refine makes_ask rfl fun connected => ?_
  split
  · exact close_silent
  · trivial

theorem connectSocket_silent :
    (connectSocket server port remoteIp localIp).Makes NetCall.Silent := by
  refine makes_ask rfl fun host => ?_
  by_cases hnull : host.result = 0
  · rw [if_pos hnull]
    trivial
  rw [if_neg hnull]
  refine makes_ask rfl fun socketFd => ?_
  by_cases hnegative : socketFd.result < 0
  · rw [if_pos hnegative]
    trivial
  rw [if_neg hnegative]
  refine makes_bind bindLocal_silent fun bound => ?_
  cases bound with
  | false => trivial
  | true => exact connectServer_silent

/-- The calls of a silent program. -/
theorem keeps_of_silent {α : Type} {client : NetProg α} (hmakes : client.Makes NetCall.Silent)
    (hsaid : said made = []) :
    Keeps host path moves client (fun _ made => said made = []) made := by
  refine wp_of_makes hmakes hsaid ?_ fun _ hsaid => inOrder_of_silence hsaid
  intro request hsilent made answer hsaid
  exact (said_silent hsilent).trans hsaid

/-- One silent call. -/
theorem keeps_ask {α : Type} {request : NetCall} {rest : Answer → NetProg α}
    {post : α → List (NetCall × Answer) → Prop} (hsaid : said made = []) (hsilent : request.Silent)
    (hrest : ∀ answer, said (made ++ [(request, answer)]) = [] →
      Keeps host path moves (rest answer) post (made ++ [(request, answer)])) :
    Keeps host path moves (Prog.ask request >>= rest) post made :=
  ⟨inOrder_of_silence hsaid, fun answer => hrest answer ((said_silent hsilent).trans hsaid)⟩

/-- The outcome of `create_tls_connection`. -/
def Connecting (created : Bool) (made : List (NetCall × Answer)) : Prop :=
  said made = [] ∧ (created = true → Greeted made)

/-- `SSL_free` and `close`, and no connection. -/
theorem keeps_freeClose (hsaid : said made = []) :
    Keeps host path moves
      (do let _ ← Prog.ask .sslFree; let _ ← Prog.ask .close; return false : NetProg Bool)
      Connecting made :=
  keeps_ask hsaid rfl fun _ hsaid => keeps_ask hsaid rfl fun _ hsaid => ⟨hsaid, nofun⟩

theorem greeted_snoc {answer : Answer} (hpositive : ¬ answer.result ≤ 0) :
    Greeted (made ++ [(.sslConnect, answer)]) :=
  ⟨answer, List.mem_append_right _ List.mem_cons_self, Int.not_le.mp hpositive⟩

theorem keeps_createTlsConnection (hsaid : said made = []) :
    Keeps host path moves (createTlsConnection server port remoteIp localIp) Connecting made := by
  refine keeps_ask hsaid rfl fun ctx hsaid => ?_
  split
  · exact ⟨hsaid, nofun⟩
  refine wp_seq (keeps_of_silent connectSocket_silent hsaid) fun reached made hsaid => ?_
  cases reached with
  | false => exact ⟨hsaid, nofun⟩
  | true =>
      refine keeps_ask hsaid rfl fun ssl hsaid => ?_
      refine keeps_ask hsaid rfl fun _ hsaid => ?_
      refine keeps_ask hsaid rfl fun connected hsaid => ?_
      split
      · exact keeps_freeClose hsaid
      next hconnected => exact ⟨hsaid, fun _ => greeted_snoc hconnected⟩

theorem keeps_createTlsConnectionOkx (hsaid : said made = []) :
    Keeps host path moves (createTlsConnectionOkx server port remoteIp localIp) Connecting
      made := by
  refine keeps_ask hsaid rfl fun ctx hsaid => ?_
  split
  · exact ⟨hsaid, nofun⟩
  refine keeps_ask hsaid rfl fun _ hsaid => ?_
  refine wp_seq (keeps_of_silent connectSocket_silent hsaid) fun reached made hsaid => ?_
  cases reached with
  | false => exact ⟨hsaid, nofun⟩
  | true =>
      refine keeps_ask hsaid rfl fun ssl hsaid => ?_
      refine keeps_ask hsaid rfl fun _ hsaid => ?_
      refine keeps_ask hsaid rfl fun named hsaid => ?_
      split
      · refine keeps_ask hsaid rfl fun _ hsaid => keeps_ask hsaid rfl fun _ hsaid => ?_
        exact keeps_ask hsaid rfl fun _ hsaid => ⟨hsaid, nofun⟩
      refine keeps_ask hsaid rfl fun connected hsaid => ?_
      split
      · exact keeps_freeClose hsaid
      next hconnected =>
        exact keeps_ask hsaid rfl fun _ hsaid => ⟨hsaid, fun _ => (greeted_snoc hconnected).append⟩

end Connect

/-! ## From the handshake on -/

section Session

variable {made : List (NetCall × Answer)} {host path text : List UInt8} {moves : LoopMoves}

/-- The outcome of a stage that goes on only after `text` is said. -/
def Stage (host path : List UInt8) (moves : LoopMoves) (text : List UInt8) (passed : Bool)
    (made : List (NetCall × Answer)) : Prop :=
  InOrder host path moves made ∧ (passed = true → Open text made)

theorem keeps_performWebsocketHandshake (hsaid : said made = []) (hgreeted : Greeted made) :
    Keeps host path moves (performWebsocketHandshake host path)
      (Stage host path moves (handshakeRequest host path)) made := by
  refine wp_ask (inOrder_of_silence hsaid) fun written => ?_
  have hrequest : said (made ++ [(.sslWrite (handshakeRequest host path), written)]) =
      handshakeRequest host path := by
    rw [said_snoc, hsaid]
    rfl
  have horder : InOrder host path moves
      (made ++ [(.sslWrite (handshakeRequest host path), written)]) :=
    inOrder_of_request hrequest hgreeted.append
  split
  · exact ⟨horder, nofun⟩
  have hsilent := NetCall.silent_sslRead 4095
  refine wp_ask horder fun response => ?_
  split
  · exact ⟨horder.silent hsilent, nofun⟩
  next hread =>
    refine ⟨horder.silent hsilent, fun haccepted => ?_⟩
    refine ⟨(said_silent hsilent).trans hrequest, hgreeted.append.append, response, ?_⟩
    exact ⟨List.mem_append_right _ List.mem_cons_self, Int.not_le.mp hread,
      of_decide_eq_true haccepted⟩

theorem keeps_subscribeTickerBook (hopen : Open (handshakeRequest host path) made) :
    Keeps host path moves subscribeTickerBook
      (Stage host path moves (handshakeRequest host path ++ subscribeFrame)) made := by
  have hrequest : handshakeRequest host path <+: script host path moves := by
    rw [script, List.append_assoc]
    exact List.prefix_append _ _
  refine wp_ask (hopen.inOrder hrequest) fun written => ?_
  have hsubscribed : Open (handshakeRequest host path ++ subscribeFrame)
      (made ++ [(.sslWrite subscribeFrame, written)]) := hopen.say
  have horder : InOrder host path moves (made ++ [(.sslWrite subscribeFrame, written)]) :=
    hsubscribed.inOrder (List.prefix_append _ _)
  split
  · exact ⟨horder, nofun⟩
  have hsilent := NetCall.silent_sslRead 1023
  refine wp_ask horder fun response => ?_
  split
  · exact ⟨horder.silent hsilent, nofun⟩
  · exact ⟨horder.silent hsilent, fun _ => hsubscribed.silent hsilent⟩

/-- The calls of the receive loop say what it writes. -/
theorem said_receiveCalls (moves : LoopMoves) :
    ((labels moves).flatMap receiveCalls).flatMap NetCall.said = written moves := by
  rw [written, exchanges, List.flatMap_assoc, List.flatMap_assoc]
  refine List.flatMap_congr fun event _ => ?_
  cases event with
  | message packet msgBuf writes texts =>
      simp [receiveCalls, LoopEvent.exchanges, List.flatMap_map, NetCall.said, List.flatMap_id']
  | _ => rfl

variable {parse : List UInt8 → Option JsonValue} {reception : Reception parse}

theorem keeps_readAndProcessMessage
    (hopen : Open (handshakeRequest host path ++ subscribeFrame) made) :
    Keeps host path reception.moves (readAndProcessMessage reception)
      (fun _ => Open (script host path reception.moves)) made := by
  have hsaid := (said_receiveCalls reception.moves).trans (written_eq reception.run)
  have hcalls : Keeps host path reception.moves
      (Prog.askAll ((labels reception.moves).flatMap receiveCalls))
      (fun _ => Open (script host path reception.moves)) made := by
    refine wp_askAll_remember ?_ ?_
    · intro answered hanswered
      refine hopen.append.inOrder ((List.prefix_append_right_inj _).mpr ?_)
      rw [← hsaid]
      exact hanswered.flatMap _
    · intro answered hanswered
      rw [script, ← hsaid, ← hanswered]
      exact hopen.append
  refine wp_seq hcalls fun _ made hopen => ?_
  split
  · exact hopen
  · exact hopen

theorem keeps_cleanUp {code : Int} (horder : InOrder host path moves made) :
    Keeps host path moves (cleanUp code)
      (fun code? later => InOrder host path moves later ∧ code? = some code ∧
        said later = said made) made := by
  have hfree := NetCall.silent_sslFree
  have hclose := NetCall.silent_close
  refine wp_ask horder fun _ => wp_ask (horder.silent hfree) fun _ => ?_
  exact ⟨(horder.silent hfree).silent hclose, rfl, (said_silent hclose).trans (said_silent hfree)⟩

/-- The outcome of a session: unless it fails, everything has been said. -/
def Spoken (host path : List UInt8) (moves : LoopMoves) (code? : Option Int)
    (made : List (NetCall × Answer)) : Prop :=
  InOrder host path moves made ∧ (code? ≠ some 1 → said made = script host path moves)

theorem keeps_failed (horder : InOrder host path moves made) :
    Keeps host path moves (cleanUp 1) (Spoken host path moves) made := by
  refine wp_mono (keeps_cleanUp horder) fun code? made hcleaned => ?_
  exact ⟨hcleaned.1, fun hnot => absurd hcleaned.2.1 hnot⟩

theorem keeps_communicate (hsaid : said made = []) (hgreeted : Greeted made) :
    Keeps host path reception.moves (communicate host path reception)
      (Spoken host path reception.moves) made := by
  refine wp_seq (keeps_performWebsocketHandshake hsaid hgreeted) fun accepted made hstage => ?_
  cases accepted with
  | false => exact keeps_failed hstage.1
  | true =>
      refine wp_seq (keeps_subscribeTickerBook (hstage.2 rfl)) fun subscribed made hstage => ?_
      cases subscribed with
      | false => exact keeps_failed hstage.1
      | true =>
          refine wp_seq (keeps_readAndProcessMessage (hstage.2 rfl)) fun result? made hopen => ?_
          have horder := hopen.inOrder (List.prefix_refl _)
          cases result? with
          | none => exact ⟨horder, fun _ => hopen.said⟩
          | some result =>
              refine wp_mono (keeps_cleanUp horder) fun code? later hcleaned => ?_
              exact ⟨hcleaned.1, fun _ => hcleaned.2.2.trans hopen.said⟩

/-- What `main` says, from what `create_tls_connection` comes to. -/
theorem keeps_mainWith {create : List UInt8 → Nat → List UInt8 → List UInt8 → NetProg Bool}
    {port : Nat} {argc : Int} {config? : Option Config}
    (hcreate : ∀ remoteIp localIp,
      Keeps host path reception.moves (create host port remoteIp localIp) Connecting []) :
    Keeps host path reception.moves (mainWith create host port path argc config? reception)
      (fun code? made => InOrder host path reception.moves made ∧
        (code? ≠ some 1 → 2 ≤ argc → said made = script host path reception.moves)) [] := by
  have hsilence : InOrder host path reception.moves [] := inOrder_of_silence rfl
  unfold mainWith
  split
  next hargc => exact ⟨hsilence, fun _ hmore => absurd hmore (Int.not_le.mpr hargc)⟩
  cases config? with
  | none => exact ⟨hsilence, fun hnot => absurd rfl hnot⟩
  | some config =>
      refine wp_seq (hcreate _ _) fun created made hcreated => ?_
      cases created with
      | false => exact ⟨inOrder_of_silence hcreated.1, fun hnot => absurd rfl hnot⟩
      | true =>
          have hgreeted := hcreated.2 rfl
          refine wp_mono (keeps_communicate hcreated.1 hgreeted) fun code? made hspoken => ?_
          exact ⟨hspoken.1, fun hnot _ => hspoken.2 hnot⟩

/-- In terms of what can be seen. -/
theorem inOrder_of_seen {client : NetProg (Option Int)} {argc : Int}
    {made : List (NetCall × Answer)} {result : Option (Option Int)}
    (hseen : Seen client made result)
    (hkeeps : Keeps host path moves client
      (fun code? made => InOrder host path moves made ∧
        (code? ≠ some 1 → 2 ≤ argc → said made = script host path moves)) []) :
    InOrder host path moves made ∧
      ∀ code?, result = some code? → code? ≠ some 1 → 2 ≤ argc →
        said made = script host path moves := by
  rcases hseen.remembered hkeeps with ⟨rfl, horder⟩ | ⟨code?, rfl, hspoken⟩
  · exact ⟨horder, nofun⟩
  · exact ⟨hspoken.1, fun _ hcode => Option.some_injective _ hcode ▸ hspoken.2⟩

/-- One Ping is received and answered before `SSL_read` fails. -/
def pingReception : Reception fun _ => none where
  moves := (play [.enter, .sslRead pingFrame.encode 0, .parse, .enter, .failed]).1
  state := (play [.enter, .sslRead pingFrame.encode 0, .parse, .enter, .failed]).2
  run := play_run _

/-- The server answers with its status line. -/
def pingSession : List (NetCall × Answer) × Option (Option Int) :=
  (main 2 (some fun _ => []) pingReception).play
    ([1, 1, 3, 0, 1, 1, 1, 1].map (⟨·, []⟩) ++ [⟨36, shortResponse.bytes⟩] ++
      [1, 1, 8, 0, 1, -1, 1, 0, 0].map (⟨·, []⟩))

/-- The server does not accept the upgrade. -/
def refusedSession : List (NetCall × Answer) × Option (Option Int) :=
  (mainOkx 2 (some fun _ => []) pingReception).play
    ([1, 1, 1, 3, 0, 1, 1, 1, 1, 0, 1].map (⟨·, []⟩) ++ [⟨12, literal "HTTP/1.1 403"⟩] ++
      [0, 0].map (⟨·, []⟩))

end Session

end CppFragments.Client
