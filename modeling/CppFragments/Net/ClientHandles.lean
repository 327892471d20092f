import CppFragments.Net.Client

/-! # What the clients do with their handles

Whatever OpenSSL and the socket interface answer, a client uses only handles that are
open, and gives the socket and the `SSL` object back exactly once.
-/

namespace CppFragments.Client

open Calls Transition

/-! ## What becomes of the handles -/

def fates (context socket ssl : Fate) : Handle → Fate
  | .context => context
  | .socket => socket
  | .ssl => ssl

/-- Without the `SSL` object a client goes on with a null pointer. -/
def Needed (handle : Handle) : Prop := handle = .ssl

section Fates

variable {context socket ssl fate : Fate}

theorem update_context :
    Function.update (fates context socket ssl) .context fate = fates fate socket ssl := by
  funext handle
  cases handle <;> rfl

theorem update_socket :
    Function.update (fates context socket ssl) .socket fate = fates context fate ssl := by
  funext handle
  cases handle <;> rfl

theorem update_ssl :
    Function.update (fates context socket ssl) .ssl fate = fates context socket fate := by
  funext handle
  cases handle <;> rfl

end Fates

theorem intact_initial : Intact Needed .none (fates .unopened .unopened .unopened) := by
  have hfates : fates .unopened .unopened .unopened = fun _ => Fate.unopened := by
    funext handle
    cases handle <;> rfl
  rw [hfates]
  exact intact_none

/-- Whatever the calls answer, nothing is misused that is there, and `post` holds of
what the client has come to when it returns. -/
abbrev Yields {α : Type} (client : NetProg α) (post : α → Held Handle → Prop)
    (held : Held Handle) : Prop :=
  client.wp handles.observe (Excused Needed) post held

/-! ## The connection -/

section Connect

variable {held : Held Handle} {context : Fate} {host remoteIp localIp : List UInt8} {port : Nat}

/-- The outcome of `connectSocket`. -/
def SocketHeld (context : Fate) (connected : Bool) (held : Held Handle) : Prop :=
  if connected then Intact Needed held (fates context .live .unopened)
  else ∃ socket ≠ .live, Intact Needed held (fates context socket .unopened)

/-- `close`, and no connection. -/
theorem wp_close (hintact : Intact Needed held (fates context .live .unopened)) :
    Yields (do let _ ← Prog.ask .close; return false : NetProg Bool) (SocketHeld context) held :=
  hintact.close rfl rfl rfl update_socket fun _ _ hintact => ⟨.closed, nofun, hintact⟩

theorem wp_bindLocal (hintact : Intact Needed held (fates context .live .unopened)) :
    Yields (bindLocal localIp) (SocketHeld context) held := by
  unfold bindLocal
  split
  · exact hintact
  refine hintact.call rfl rfl rfl fun bound held hintact => ?_
  split
  · exact wp_close hintact
  · exact hintact

theorem wp_connectServer {address : ServerAddress}
    (hintact : Intact Needed held (fates context .live .unopened)) :
    Yields (connectServer address port) (SocketHeld context) held := by
  refine hintact.call rfl rfl rfl fun connected held hintact => ?_
  split
  · exact wp_close hintact
  · exact hintact

theorem wp_connectSocket (hintact : Intact Needed held (fates context .unopened .unopened)) :
    Yields (connectSocket host port remoteIp localIp) (SocketHeld context) held := by
  refine hintact.call rfl rfl rfl fun server held hintact => ?_
  split
  · exact ⟨.unopened, nofun, hintact⟩
  refine hintact.acquire rfl rfl rfl nofun update_socket ?_ ?_
  · intro socketFd hfails
    have hnegative : socketFd.result < 0 := by simpa [handles] using hfails
    rw [if_pos hnegative]
    exact ⟨.unopened, nofun, hintact.notAcquired nofun⟩
  · intro socketFd held hsucceeds hintact
    have hnonneg : ¬ socketFd.result < 0 := by simpa [handles] using hsucceeds
    rw [if_neg hnonneg]
    refine wp_seq (wp_bindLocal hintact) fun bound held hbound => ?_
    cases bound with
    | false => exact hbound
    | true => exact wp_connectServer hbound

/-- Socket and `SSL` object are given back, if they were ever made. -/
def Released (allowed : Fate → Prop) (held : Held Handle) : Prop :=
  ∃ context socket ssl, Intact Needed held (fates context socket ssl) ∧
    allowed context ∧ socket ≠ .live ∧ ssl ≠ .live

/-- The outcome of `create_tls_connection`, which keeps the context or not. -/
def Created (kept : Fate) (allowed : Fate → Prop) (created : Bool) (held : Held Handle) : Prop :=
  Broken Needed held ∨
    if created then Intact Needed held (fates kept .live .live) else Released allowed held

theorem SocketHeld.released {allowed : Fate → Prop} (hsocket : SocketHeld context false held)
    (hallowed : allowed context) : Released allowed held := by
  obtain ⟨socket, hsocket, hintact⟩ := hsocket
  exact ⟨context, socket, .unopened, hintact, hallowed, hsocket, nofun⟩

/-- `SSL_free` and `close`, and no connection. -/
theorem wp_freeClose {kept : Fate} {allowed : Fate → Prop}
    (hintact : Intact Needed held (fates context .live .live)) (hallowed : allowed context) :
    Yields (do let _ ← Prog.ask .sslFree; let _ ← Prog.ask .close; return false : NetProg Bool)
      (Created kept allowed) held := by
  refine hintact.close rfl rfl rfl update_ssl fun _ held hintact => ?_
  refine hintact.close rfl rfl rfl update_socket fun _ held hintact => ?_
  exact Or.inr ⟨_, _, _, hintact, hallowed, nofun, nofun⟩

theorem wp_createTlsConnection :
    Yields (createTlsConnection host port remoteIp localIp) (Created .live (· ≠ .closed))
      .none := by
  refine intact_initial.acquire rfl rfl rfl nofun update_context ?_ ?_
  · intro ctx hfails
    have hnull : ctx.result = 0 := by simpa [handles] using hfails
    rw [if_pos hnull]
    exact Or.inr ⟨_, _, _, intact_initial.notAcquired nofun, nofun, nofun, nofun⟩
  intro ctx held hsucceeds hintact
  have hctx : ctx.result ≠ 0 := by simpa [handles] using hsucceeds
  rw [if_neg hctx]
  refine wp_seq (wp_connectSocket hintact) fun connected held hconnected => ?_
  cases connected with
  | false => exact Or.inr (hconnected.released nofun)
  | true =>
      refine Intact.acquire hconnected rfl rfl rfl nofun update_ssl ?_ ?_
      · intro ssl _
        exact Intact.broken hconnected rfl nofun List.mem_cons_self fun _ _ => Or.inl
      intro ssl held hsucceeds hintact
      have hssl : ssl.result ≠ 0 := by simpa [handles] using hsucceeds
      refine hintact.call rfl rfl rfl fun _ held hintact => ?_
      refine hintact.call rfl rfl rfl fun greeted held hintact => ?_
      split
      · exact wp_freeClose hintact nofun
      · rw [decide_eq_true hssl]
        exact Or.inr hintact

theorem wp_createTlsConnectionOkx {allowed : Fate → Prop} (hallowed : ∀ context, allowed context) :
    Yields (createTlsConnectionOkx host port remoteIp localIp) (Created .closed allowed) .none := by
  refine intact_initial.acquire rfl rfl rfl nofun update_context ?_ ?_
  · intro ctx hfails
    have hnull : ctx.result = 0 := by simpa [handles] using hfails
    rw [if_pos hnull]
    exact Or.inr ⟨_, _, _, intact_initial.notAcquired nofun, hallowed _, nofun, nofun⟩
  intro ctx held hsucceeds hintact
  have hctx : ctx.result ≠ 0 := by simpa [handles] using hsucceeds
  rw [if_neg hctx]
  refine hintact.call rfl rfl rfl fun _ held hintact => ?_
  refine wp_seq (wp_connectSocket hintact) fun connected held hconnected => ?_
  cases connected with
  | false => exact Or.inr (hconnected.released (hallowed _))
  | true =>
      refine Intact.acquire hconnected rfl rfl rfl nofun update_ssl ?_ ?_
      · intro ssl _
        exact Intact.broken hconnected rfl nofun List.mem_cons_self fun _ _ => Or.inl
      intro ssl held hsucceeds hintact
      have hssl : ssl.result ≠ 0 := by simpa [handles] using hsucceeds
      refine hintact.call rfl rfl rfl fun _ held hintact => ?_
      refine hintact.call rfl rfl rfl fun named held hintact => ?_
      split
      · -- Of all the ways to fail, only this one gives the context back.
        refine hintact.close rfl rfl rfl update_ssl fun _ held hintact => ?_
        refine hintact.close rfl rfl rfl update_socket fun _ held hintact => ?_
        refine hintact.close rfl rfl rfl update_context fun _ held hintact => ?_
        exact Or.inr ⟨_, _, _, hintact, hallowed _, nofun, nofun⟩
      refine hintact.call rfl rfl rfl fun greeted held hintact => ?_
      split
      · exact wp_freeClose hintact (hallowed _)
      · refine hintact.close rfl rfl rfl update_context fun _ held hintact => ?_
        rw [decide_eq_true hssl]
        exact Or.inr hintact

end Connect

/-! ## main -/

section Main

variable {held : Held Handle} {context : Fate} {host path remoteIp localIp : List UInt8}
variable {parse : List UInt8 → Option JsonValue} {reception : Reception parse}
variable {allowed : Int → Fate → Prop}

/-- The connection is there, and nothing has been given back but the context. -/
abbrev Connected (context : Fate) (held : Held Handle) : Prop :=
  Intact Needed held (fates context .live .live)

theorem wp_performWebsocketHandshake (hheld : Connected context held) :
    Yields (performWebsocketHandshake host path) (fun _ => Connected context) held := by
  refine hheld.call rfl rfl rfl fun written held hheld => ?_
  split
  · exact hheld
  refine hheld.call rfl rfl rfl fun response held hheld => ?_
  split
  · exact hheld
  · exact hheld

theorem wp_subscribeTickerBook (hheld : Connected context held) :
    Yields subscribeTickerBook (fun _ => Connected context) held := by
  refine hheld.call rfl rfl rfl fun written held hheld => ?_
  split
  · exact hheld
  refine hheld.call rfl rfl rfl fun response held hheld => ?_
  split
  · exact hheld
  · exact hheld

/-- The receive loop makes no calls but these. -/
theorem mem_receiveCalls {event : LoopEvent} {request : NetCall}
    (hrequest : request ∈ receiveCalls event) :
    request = .sslRead 1023 ∨ request = .sslPending ∨ request = .sslGetError ∨
      ∃ bytes, request = .sslWrite bytes := by
  cases event with
  | message packet msgBuf writes =>
      obtain ⟨bytes, _, rfl⟩ := List.mem_map.mp hrequest
      exact Or.inr (Or.inr (Or.inr ⟨bytes, rfl⟩))
  | _ => simp_all [receiveCalls] <;> tauto

theorem wp_readAndProcessMessage (hheld : Connected context held) :
    Yields (readAndProcessMessage reception) (fun _ => Connected context) held := by
  refine wp_seq (wp_askAll hheld ?_ fun _ hheld => hheld.excused) fun _ held hheld => ?_
  · intro request hrequest held answer hheld
    obtain ⟨event, _, hrequest⟩ := List.mem_flatMap.mp hrequest
    have hplain : handles.Ready (fates context .live .live) request ∧
        handles.opens request = none ∧ handles.closes request = none := by
      rcases mem_receiveCalls hrequest with rfl | rfl | rfl | ⟨bytes, rfl⟩ <;>
        exact ⟨rfl, rfl, rfl⟩
    exact hheld.observe hplain.1 hplain.2.1 hplain.2.2 answer
  · split
    · exact hheld
    · exact hheld

/-- The outcome of `main`, which may leave the context in a state `allowed`. -/
def Ended (allowed : Int → Fate → Prop) (code? : Option Int) (held : Held Handle) : Prop :=
  Broken Needed held ∨
    match code? with
    | none => Excused Needed held
    | some code => Released (allowed code) held

theorem wp_cleanUp {code : Int} (hheld : Connected context held) (hallowed : allowed code context) :
    Yields (cleanUp code) (Ended allowed) held := by
  refine hheld.close rfl rfl rfl update_ssl fun _ held hheld => ?_
  refine hheld.close rfl rfl rfl update_socket fun _ held hheld => ?_
  exact Or.inr ⟨_, _, _, hheld, hallowed, nofun, nofun⟩

theorem wp_communicate (hheld : Connected context held) (hallowed : ∀ code, allowed code context) :
    Yields (communicate host path reception) (Ended allowed) held := by
  refine wp_seq (wp_performWebsocketHandshake hheld) fun accepted held hheld => ?_
  cases accepted with
  | false => exact wp_cleanUp hheld (hallowed 1)
  | true =>
      refine wp_seq (wp_subscribeTickerBook hheld) fun subscribed held hheld => ?_
      cases subscribed with
      | false => exact wp_cleanUp hheld (hallowed 1)
      | true =>
          refine wp_seq (wp_readAndProcessMessage hheld) fun result? held hheld => ?_
          cases result? with
          | none => exact Or.inr hheld.excused
          | some result => exact wp_cleanUp hheld (hallowed 0)

/-- What `main` comes to, from what `create_tls_connection` comes to. -/
theorem wp_mainWith {create : List UInt8 → Nat → List UInt8 → List UInt8 → NetProg Bool}
    {port : Nat} {argc : Int} {config? : Option Config}
    (hcreate : ∀ remoteIp localIp,
      Yields (create host port remoteIp localIp) (Created context (allowed 1)) .none)
    (hkept : ∀ code, allowed code context) (hunopened : ∀ code, allowed code .unopened) :
    Yields (mainWith create host port path argc config? reception) (Ended allowed) .none := by
  unfold mainWith
  split
  · exact Or.inr ⟨_, _, _, intact_initial, hunopened 0, nofun, nofun⟩
  cases config? with
  | none => exact Or.inr ⟨_, _, _, intact_initial, hunopened 1, nofun, nofun⟩
  | some config =>
      refine wp_seq (hcreate _ _) fun created held hcreated => ?_
      rcases hcreated with hbroken | hcreated
      · exact hbroken.wp fun _ _ => Or.inl
      cases created with
      | false => exact Or.inr hcreated
      | true => exact wp_communicate hcreated hkept

theorem handles_regular : handles.Regular where
  uses := by
    intro call handle hcloses
    cases call <;> simp_all [handles]
  either := by
    intro call
    cases call <;> simp [handles]

/-- The handle was closed exactly as often as it was opened. -/
def Balanced (handle : Handle) (made : List (NetCall × Answer)) : Prop :=
  made.countP (handles.Closes handle) = made.countP (handles.Opens handle)

theorem balanced_of_fate {handle : Handle} {made : List (NetCall × Answer)}
    (hused : (handles.held made).misused = false)
    (hfate : (handles.held made).fate handle ≠ .live) :
    Balanced handle made := by
  have hcount := countP_closes_add_count handles_regular handle hused
  rwa [Held.count, if_neg hfate] at hcount

/-- All handles were used in time, and the connection is closed. -/
structure GivenBack (made : List (NetCall × Answer)) : Prop where
  used : (handles.held made).misused = false
  socket : Balanced .socket made
  ssl : Balanced .ssl made

theorem Released.givenBack {allowed : Fate → Prop} {made : List (NetCall × Answer)}
    (hreleased : Released allowed (handles.held made)) :
    GivenBack made ∧ allowed ((handles.held made).fate .context) := by
  obtain ⟨context, socket, ssl, hintact, hallowed, hsocket, hssl⟩ := hreleased
  have hfate := hintact.fate_eq
  refine ⟨⟨hintact.used, balanced_of_fate hintact.used ?_, balanced_of_fate hintact.used ?_⟩, ?_⟩
  · rwa [hfate]
  · rwa [hfate]
  · rwa [hfate]

/-- In terms of what can be seen. -/
theorem ended_of_seen {client : NetProg (Option Int)} {made : List (NetCall × Answer)}
    {result : Option (Option Int)} (hseen : Seen client made result)
    (hwp : Yields client (Ended allowed) .none) :
    Excused Needed (handles.held made) ∧
      ∀ code, result = some (some code) →
        Broken Needed (handles.held made) ∨
          (GivenBack made ∧ allowed code ((handles.held made).fate .context)) := by
  rcases hseen.during_or_post hwp with ⟨rfl, hexcused⟩ | ⟨code?, rfl, hended⟩
  · exact ⟨hexcused, nofun⟩
  rcases hended with hbroken | hended
  · exact ⟨fun _ => hbroken.1, fun _ _ => Or.inl hbroken⟩
  cases code? with
  | none => exact ⟨hended, nofun⟩
  | some code =>
      have hexcused : Excused Needed (handles.held made) := by
        obtain ⟨_, _, _, hintact, _⟩ := hended
        exact hintact.excused
      refine ⟨hexcused, fun code' hcode => Or.inr ?_⟩
      cases hcode
      exact Released.givenBack hended

/-- **The client of `wss_client.cpp` gives back what it has opened.** No handle is used or
given back while it is not open, except for the null pointer of an `SSL_new` that
has failed. Otherwise the socket and the `SSL` object have been closed as often as
they were opened when `main` returns. The context is never given back. -/
theorem main_releases {argc : Int} {config? : Option Config} {made : List (NetCall × Answer)}
    {result : Option (Option Int)} (hseen : Seen (main argc config? reception) made result) :
    Excused Needed (handles.held made) ∧
      ∀ code, result = some (some code) →
        Broken Needed (handles.held made) ∨
          (GivenBack made ∧ (handles.held made).fate .context ≠ .closed) := by
  have hwp : Yields (main argc config? reception) (Ended fun _ context => context ≠ .closed)
      .none :=
    wp_mainWith (fun _ _ => wp_createTlsConnection) (fun _ => nofun) fun _ => nofun
  exact ended_of_seen hseen hwp

/-- A receive loop that has not begun. -/
def idle : Reception fun _ => none := ⟨[], .start, .nil⟩

/-- A client without a local address gets these answers. -/
def answered (client : NetProg (Option Int)) (results : List Int) :
    List (NetCall × Answer) × Option (Option Int) :=
  client.play (results.map fun result => ⟨result, []⟩)

/-- The upgrade request cannot be written. -/
def unwritten : List (NetCall × Answer) × Option (Option Int) :=
  answered (main 2 (some fun _ => []) idle) [1, 1, 3, 0, 1, 1, 1, -1, 0, 0]

theorem main_releases_unwritten :
    unwritten.2 = some (some 1) ∧ Excused Needed (handles.held unwritten.1) ∧
      ∀ code, unwritten.2 = some (some code) →
        Broken Needed (handles.held unwritten.1) ∨
          (GivenBack unwritten.1 ∧ (handles.held unwritten.1).fate .context ≠ .closed) :=
  ⟨by decide +kernel, main_releases (seen_play _ _)⟩

/-- **The client of `wss_client_okx.cpp`** also gives back the context, unless it
fails. -/
theorem mainOkx_releases {argc : Int} {config? : Option Config} {made : List (NetCall × Answer)}
    {result : Option (Option Int)} (hseen : Seen (mainOkx argc config? reception) made result) :
    Excused Needed (handles.held made) ∧
      ∀ code, result = some (some code) →
        Broken Needed (handles.held made) ∨
          (GivenBack made ∧ (code = 0 → Balanced .context made)) := by
  have hwp : Yields (mainOkx argc config? reception)
      (Ended fun code context => code = 0 → context ≠ .live) .none :=
    wp_mainWith (fun _ _ => wp_createTlsConnectionOkx nofun) (fun _ _ => nofun) fun _ _ => nofun
  obtain ⟨hexcused, hended⟩ := ended_of_seen hseen hwp
  refine ⟨hexcused, fun code hcode => (hended code hcode).imp_right fun hgiven => ?_⟩
  exact ⟨hgiven.1, fun hzero => balanced_of_fate hgiven.1.used (hgiven.2 hzero)⟩

/-- The server name cannot be set. -/
def unnamed : List (NetCall × Answer) × Option (Option Int) :=
  answered (mainOkx 2 (some fun _ => []) idle) [1, 1, 1, 3, 0, 1, 1, 0, 0, 0, 0]

theorem mainOkx_releases_unnamed :
    unnamed.2 = some (some 1) ∧ Excused Needed (handles.held unnamed.1) ∧
      ∀ code, unnamed.2 = some (some code) →
        Broken Needed (handles.held unnamed.1) ∨
          (GivenBack unnamed.1 ∧ (code = 0 → Balanced .context unnamed.1)) :=
  ⟨by decide +kernel, mainOkx_releases (seen_play _ _)⟩

end Main

/-! ## The plain client -/

section Plain

variable {held : Held Handle} {request : NetCall}

theorem wp_exchange (hintact : Intact Needed held (fates .unopened .live .unopened))
    (hready : handles.Ready (fates .unopened .live .unopened) request)
    (hopens : handles.opens request = none) (hcloses : handles.closes request = none) :
    Yields (exchange request) (SocketHeld .unopened) held := by
  refine hintact.call hready hopens hcloses fun answer held hintact => ?_
  split
  · exact wp_close hintact
  · exact hintact

/-- A step of `main` that may be the last one. -/
theorem wp_step {step : NetProg Bool} {rest : NetProg Int}
    (hstep : Yields step (SocketHeld .unopened) held)
    (hrest : ∀ held, Intact Needed held (fates .unopened .live .unopened) →
      Yields rest (fun _ => SocketHeld .unopened false) held) :
    Yields (do if !(← step) then return 1 else rest : NetProg Int)
      (fun _ => SocketHeld .unopened false) held := by
  refine wp_seq hstep fun continued held hheld => ?_
  cases continued with
  | false => exact hheld
  | true => exact hrest held hheld

theorem wp_mainWs (maskingKey : MaskingKey) :
    Yields (mainWs maskingKey) (fun _ => SocketHeld .unopened false) .none := by
  refine intact_initial.call rfl rfl rfl fun server held hintact => ?_
  split
  · exact ⟨.unopened, nofun, hintact⟩
  refine hintact.acquire rfl rfl rfl nofun update_socket ?_ ?_
  · intro sock hfails
    have hnegative : sock.result < 0 := by simpa [handles] using hfails
    rw [if_pos hnegative]
    exact ⟨.unopened, nofun, hintact.notAcquired nofun⟩
  intro sock held hsucceeds hintact
  have hnonneg : ¬ sock.result < 0 := by simpa [handles] using hsucceeds
  rw [if_neg hnonneg]
  refine wp_step (wp_connectServer hintact) fun held hintact => ?_
  refine wp_step (wp_exchange hintact rfl rfl rfl) fun held hintact => ?_
  refine wp_step (wp_exchange hintact rfl rfl rfl) fun held hintact => ?_
  refine wp_step (wp_exchange hintact rfl rfl rfl) fun held hintact => ?_
  refine wp_step (wp_exchange hintact rfl rfl rfl) fun held hintact => ?_
  exact hintact.close rfl rfl rfl update_socket fun _ _ hintact => ⟨.closed, nofun, hintact⟩

/-- **The client of `ws_client.cpp` gives back its socket**, and uses it only while it
is open. -/
theorem mainWs_releases {maskingKey : MaskingKey} {made : List (NetCall × Answer)}
    {result : Option Int} (hseen : Seen (mainWs maskingKey) made result) :
    Excused Needed (handles.held made) ∧ (result ≠ none → GivenBack made) := by
  rcases hseen.during_or_post (wp_mainWs maskingKey) with ⟨rfl, hexcused⟩ | ⟨code, rfl, hheld⟩
  · exact ⟨hexcused, fun hnone => absurd rfl hnone⟩
  have hreleased : Released (· = .unopened) (handles.held made) := SocketHeld.released hheld rfl
  obtain ⟨hgiven, _⟩ := hreleased.givenBack
  refine ⟨fun hmisused => ?_, fun _ => hgiven⟩
  rw [hgiven.used] at hmisused
  cases hmisused

end Plain

end CppFragments.Client
