import CppFragments.Transition.Mutex
import CppFragments.Util.Machine

/-! # A thread for each client

The server of `net/tcp_server.cpp`: the accept loop of `main`, and `handle_client`
in a detached thread for each client. What they print under `cout_mutex` is
modelled piece by piece. What is printed without it can come between any two
pieces and is left out.
-/

namespace CppFragments.TcpServer

open Transition

/-- What one critical section hands to `std::cout`, piece by piece. -/
abbrev Line := List (List UInt8)

/-- The main thread, or the thread of the client of this number. -/
abbrev ServerThread := Option Nat

def newline : List UInt8 := literal "\n"

/-- The critical sections of `cout_mutex`. -/
def printing : Sections (List UInt8) Line Line Unit :=
  ⟨id, fun text rest text' rest' => ∃ piece, rest = piece :: rest' ∧ text' = text ++ piece,
    fun rest => if rest = [] then some () else none⟩

abbrev Console := Mutex.State ServerThread (List UInt8) Line Line

/-! ## `handle_client` -/

/-- The array `buffer` after a read, printed as a C string. Without a NUL in it the
output runs past its end. -/
def bufferText (bytes : List UInt8) : Option (List UInt8) :=
  let buffer := bytes ++ List.replicate (1024 - bytes.length) 0
  if 0 ∈ buffer then some (buffer.takeWhile (· != 0)) else none

inductive HandlerPoint
  | connected
  | reading
  | received (bytes : List UInt8)
  | writing
  | disconnected
  /-- In the loop that prints "Keep Connection..." and does not end. -/
  | keeping

structure Handler where
  socket : Int
  point : HandlerPoint

namespace Handler

def connectedLine (socket : Int) : Line :=
  [literal "Client connected. Socket: ", literal (toString socket), newline]

def receivedLine (socket : Int) (text : List UInt8) : Line :=
  [literal "Received from client [", literal (toString socket), literal "]: ", text, newline]

def disconnectedLine (socket : Int) : Line :=
  [literal "Client disconnected. Socket: ", literal (toString socket), newline]

/-- What the thread is about to print under the mutex. -/
def line (handler : Handler) : Option Line :=
  match handler.point with
  | .connected => some (connectedLine handler.socket)
  | .received bytes => (bufferText bytes).map (receivedLine handler.socket)
  | .disconnected => some (disconnectedLine handler.socket)
  | _ => none

/-- Where it goes on when that is printed. -/
def printed (handler : Handler) : Handler :=
  { handler with point := match handler.point with
      | .connected => .reading
      | .received _ => .writing
      | .disconnected => .keeping
      | point => point }

end Handler

/-! ## `main` -/

inductive MainPoint
  | accepting
  /-- With the client's address and port as they are printed. -/
  | accepted (socket : Int) (ip port : List UInt8)
  | starting (socket : Int)

def hello : List UInt8 := literal "Hello, Client!\n"

def newConnectionLine (ip port : List UInt8) : Line :=
  [literal "New connection from ", ip, literal ":", port, newline]

structure ServerState where
  console : Console
  main : MainPoint
  /-- The clients' threads, in the order in which they were started. -/
  handlers : List Handler
  /-- The client sockets that are open. -/
  opened : List Int

inductive ServerEvent
  | acceptFailed
  | accept (socket : Int) (ip port : List UInt8)
  | start
  | print (event : Mutex.Event ServerThread Line Unit)
  | read (client : Nat) (bytes : List UInt8)
  | disconnect (client : Nat)
  | write (client : Nat) (socket : Int) (message : List UInt8)

/-- `accept` gives a descriptor that is not open. `close` stands behind a loop that
does not end, so that no step takes a socket away. -/
inductive ServerStep : ServerState → ServerEvent → ServerState → Prop
  | acceptFailed (console : Console) (handlers : List Handler) (opened : List Int) :
      ServerStep ⟨console, .accepting, handlers, opened⟩ .acceptFailed
        ⟨console, .accepting, handlers, opened⟩
  | accept (console : Console) (handlers : List Handler) {opened : List Int} {socket : Int}
      (ip port : List UInt8) (hfresh : socket ∉ opened) :
      ServerStep ⟨console, .accepting, handlers, opened⟩ (.accept socket ip port)
        ⟨console, .accepted socket ip port, handlers, opened ++ [socket]⟩
  | lockMain {console console' : Console} {socket : Int} {ip port : List UInt8}
      (handlers : List Handler) (opened : List Int)
      (hconsole : Mutex.Step printing console (.lock none (newConnectionLine ip port)) console') :
      ServerStep ⟨console, .accepted socket ip port, handlers, opened⟩
        (.print (.lock none (newConnectionLine ip port)))
        ⟨console', .accepted socket ip port, handlers, opened⟩
  | unlockMain {console console' : Console} {socket : Int} {ip port : List UInt8} {line : Line}
      (handlers : List Handler) (opened : List Int)
      (hconsole : Mutex.Step printing console (.unlock ⟨none, line, ()⟩) console') :
      ServerStep ⟨console, .accepted socket ip port, handlers, opened⟩
        (.print (.unlock ⟨none, line, ()⟩)) ⟨console', .starting socket, handlers, opened⟩
  | start (console : Console) (socket : Int) (handlers : List Handler) (opened : List Int) :
      ServerStep ⟨console, .starting socket, handlers, opened⟩ .start
        ⟨console, .accepting, handlers ++ [⟨socket, .connected⟩], opened⟩
  | lock {console console' : Console} (main : MainPoint) {handlers : List Handler}
      (opened : List Int) {client : Nat} {handler : Handler} {line : Line}
      (hhandler : handlers[client]? = some handler) (hline : handler.line = some line)
      (hconsole : Mutex.Step printing console (.lock (some client) line) console') :
      ServerStep ⟨console, main, handlers, opened⟩ (.print (.lock (some client) line))
        ⟨console', main, handlers, opened⟩
  | work {console console' : Console} (main : MainPoint) (handlers : List Handler)
      (opened : List Int) {thread : ServerThread}
      (hconsole : Mutex.Step printing console (.work thread) console') :
      ServerStep ⟨console, main, handlers, opened⟩ (.print (.work thread))
        ⟨console', main, handlers, opened⟩
  | unlock {console console' : Console} (main : MainPoint) {handlers : List Handler}
      (opened : List Int) {client : Nat} {handler : Handler} {line : Line}
      (hhandler : handlers[client]? = some handler)
      (hconsole : Mutex.Step printing console (.unlock ⟨some client, line, ()⟩) console') :
      ServerStep ⟨console, main, handlers, opened⟩ (.print (.unlock ⟨some client, line, ()⟩))
        ⟨console', main, handlers.set client handler.printed, opened⟩
  | read (console : Console) (main : MainPoint) {handlers : List Handler} (opened : List Int)
      {client : Nat} {socket : Int} {bytes : List UInt8}
      (hhandler : handlers[client]? = some ⟨socket, .reading⟩)
      (hne : bytes ≠ []) (hlength : bytes.length ≤ 1024) :
      ServerStep ⟨console, main, handlers, opened⟩ (.read client bytes)
        ⟨console, main, handlers.set client ⟨socket, .received bytes⟩, opened⟩
  /-- The client has closed the connection, or has sent nothing for 30 seconds. -/
  | disconnect (console : Console) (main : MainPoint) {handlers : List Handler}
      (opened : List Int) {client : Nat} {socket : Int}
      (hhandler : handlers[client]? = some ⟨socket, .reading⟩) :
      ServerStep ⟨console, main, handlers, opened⟩ (.disconnect client)
        ⟨console, main, handlers.set client ⟨socket, .disconnected⟩, opened⟩
  /-- What `write` returns is not looked at. The signal it raises when the connection is
  gone is left out. -/
  | write (console : Console) (main : MainPoint) {handlers : List Handler} (opened : List Int)
      {client : Nat} {socket : Int} (hhandler : handlers[client]? = some ⟨socket, .writing⟩) :
      ServerStep ⟨console, main, handlers, opened⟩ (.write client socket hello)
        ⟨console, main, handlers.set client ⟨socket, .reading⟩, opened⟩

/-- The server listens, and no client has come. -/
def listening : ServerState := ⟨Mutex.free [], .accepting, [], []⟩

/-! ## One client's thread -/

/-- What a client's thread does in the sight of others. -/
inductive Talk
  | shown (line : Line)
  | heard (bytes : List UInt8)
  | hungUp
  | said (socket : Int) (message : List UInt8)

def ServerEvent.talk? (client : Nat) : ServerEvent → Option Talk
  | .print (.unlock ⟨some other, line, _⟩) => if other = client then some (.shown line) else none
  | .read other bytes => if other = client then some (.heard bytes) else none
  | .disconnect other => if other = client then some .hungUp else none
  | .write other socket message => if other = client then some (.said socket message) else none
  | _ => none

/-- `handle_client` on its own. -/
inductive HandlerStep : Handler → Talk → Handler → Prop
  | shown {handler : Handler} {line : Line} (hline : handler.line = some line) :
      HandlerStep handler (.shown line) handler.printed
  | heard (socket : Int) (bytes : List UInt8) (hlength : bytes.length ≤ 1024) :
      HandlerStep ⟨socket, .reading⟩ (.heard bytes) ⟨socket, .received bytes⟩
  | hungUp (socket : Int) : HandlerStep ⟨socket, .reading⟩ .hungUp ⟨socket, .disconnected⟩
  | said (socket : Int) : HandlerStep ⟨socket, .writing⟩ (.said socket hello) ⟨socket, .reading⟩

/-- Whoever is inside prints the line it is at. -/
def Coherent (state : ServerState) : Prop :=
  ∀ client line rest, state.console.inside (some client) = some (line, rest) →
    ∃ handler, state.handlers[client]? = some handler ∧ handler.line = some line

section Clients

variable {source target state : ServerState} {event : ServerEvent}

theorem coherent_set {console : Console} {main : MainPoint} {handlers : List Handler}
    {opened : List Int} {client : Nat} {handler : Handler}
    (hcoherent : Coherent ⟨console, main, handlers, opened⟩)
    (hhandler : handlers[client]? = some handler) (hline : handler.line = none)
    (handler' : Handler) : Coherent ⟨console, main, handlers.set client handler', opened⟩ := by
  intro other line rest hinside
  obtain ⟨found, hfound, hprints⟩ := hcoherent other line rest hinside
  by_cases hother : client = other
  · subst hother
    rw [Option.some.inj (hfound.symm.trans hhandler), hline] at hprints
    cases hprints
  · refine ⟨found, ?_, hprints⟩
    rw [List.getElem?_set_ne hother]
    exact hfound

theorem coherent_console {console console' : Console} {main : MainPoint} (main' : MainPoint)
    {handlers : List Handler} {opened : List Int} {event : Mutex.Event ServerThread Line Unit}
    (hcoherent : Coherent ⟨console, main, handlers, opened⟩)
    (hconsole : Mutex.Step printing console event console')
    (hlock : ∀ client line, event = .lock (some client) line →
      ∃ handler, handlers[client]? = some handler ∧ handler.line = some line) :
    Coherent ⟨console', main', handlers, opened⟩ := by
  intro client line rest hinside
  rcases hconsole.inside_before hinside with hlocked | ⟨rest', hbefore⟩
  · exact hlock client line hlocked
  · exact hcoherent client line rest' hbefore

theorem coherent_step (hcoherent : Coherent source) (hstep : ServerStep source event target) :
    Coherent target := by
  cases hstep with
  | acceptFailed => exact hcoherent
  | accept => exact hcoherent
  | lockMain _ _ hconsole => exact coherent_console _ hcoherent hconsole nofun
  | unlockMain _ _ hconsole => exact coherent_console _ hcoherent hconsole nofun
  | start =>
      intro client line rest hinside
      obtain ⟨handler, hhandler, hline⟩ := hcoherent client line rest hinside
      have hlt := (List.getElem?_eq_some_iff.mp hhandler).1
      refine ⟨handler, ?_, hline⟩
      rw [List.getElem?_append_left hlt]
      exact hhandler
  | lock _ _ hhandler hline hconsole =>
      refine coherent_console _ hcoherent hconsole ?_
      intro client line heq
      cases heq
      exact ⟨_, hhandler, hline⟩
  | work _ _ _ hconsole => exact coherent_console _ hcoherent hconsole nofun
  | @unlock _ _ main handlers opened client handler _ hhandler hconsole =>
      have hprinted := coherent_console main hcoherent hconsole nofun
      intro other line rest hinside
      by_cases hother : client = other
      · subst hother
        rw [hconsole.of_unlock.2] at hinside
        cases hinside
      · dsimp only
        rw [List.getElem?_set_ne hother]
        exact hprinted other line rest hinside
  | read _ _ _ hhandler => exact coherent_set hcoherent hhandler rfl _
  | disconnect _ _ _ hhandler => exact coherent_set hcoherent hhandler rfl _
  | write _ _ _ hhandler => exact coherent_set hcoherent hhandler rfl _

theorem coherent_of_reachable (hreach : Reachable ServerStep listening state) :
    Coherent state :=
  hreach.invariant nofun fun _ _ _ => coherent_step

/-- What a step of the server is for one client's thread. -/
inductive Seen (client : Nat) : Option Handler → Option Talk → Option Handler → Prop
  | apart (handler? : Option Handler) : Seen client handler? none handler?
  | started (socket : Int) : Seen client none none (some ⟨socket, .connected⟩)
  | stepped {handler handler' : Handler} {talk : Talk} (hstep : HandlerStep handler talk handler') :
      Seen client (some handler) (some talk) (some handler')

theorem seen_set {client other : Nat} {handlers : List Handler} {handler handler' : Handler}
    {talk : Talk} {talk? : Option Talk} (hhandler : handlers[other]? = some handler)
    (htalk : talk? = if other = client then some talk else none)
    (hstep : HandlerStep handler talk handler') :
    Seen client handlers[client]? talk? (handlers.set other handler')[client]? := by
  subst htalk
  by_cases hother : other = client
  · subst hother
    have hlt := (List.getElem?_eq_some_iff.mp hhandler).1
    rw [hhandler, if_pos rfl, List.getElem?_set_self hlt]
    exact .stepped hstep
  · rw [if_neg hother, List.getElem?_set_ne hother]
    exact .apart _

theorem seen_step (hcoherent : Coherent source) (hstep : ServerStep source event target)
    (client : Nat) :
    Seen client source.handlers[client]? (event.talk? client) target.handlers[client]? := by
  cases hstep with
  | acceptFailed => exact .apart _
  | accept => exact .apart _
  | lockMain => exact .apart _
  | unlockMain => exact .apart _
  | start console socket handlers opened =>
      dsimp only
      rcases Nat.lt_trichotomy client handlers.length with hlt | rfl | hgt
      · rw [List.getElem?_append_left hlt]
        exact .apart _
      · rw [List.getElem?_concat_length, List.getElem?_eq_none (Nat.le_refl _)]
        exact .started socket
      · rw [List.getElem?_eq_none (Nat.le_of_lt hgt), List.getElem?_eq_none (by simpa using hgt)]
        exact .apart _
  | lock => exact .apart _
  | work => exact .apart _
  | unlock _ _ hhandler hconsole =>
      obtain ⟨rest, hinside⟩ := hconsole.of_unlock.1
      obtain ⟨handler, hfound, hline⟩ := hcoherent _ _ _ hinside
      rw [Option.some.inj (hfound.symm.trans hhandler)] at hline
      exact seen_set hhandler rfl (.shown hline)
  | read _ _ _ hhandler _ hlength => exact seen_set hhandler rfl (.heard _ _ hlength)
  | disconnect _ _ _ hhandler => exact seen_set hhandler rfl (.hungUp _)
  | write _ _ _ hhandler => exact seen_set hhandler rfl (.said _)

variable {moves : List (Move ServerState ServerEvent)}

/-- What a client's thread has done in a run. -/
def talks (client : Nat) (moves : List (Move ServerState ServerEvent)) : List Talk :=
  (labels moves).filterMap (ServerEvent.talk? client)

theorem talks_append (client : Nat) (moves more : List (Move ServerState ServerEvent)) :
    talks client (moves ++ more) = talks client moves ++ talks client more := by
  simp [talks]

inductive ClientRun : Option Handler → List Talk → Prop
  | absent : ClientRun none []
  | present {socket : Int} {handler : Handler} {moves : List (Move Handler Talk)}
      (hrun : Run HandlerStep ⟨socket, .connected⟩ moves handler) :
      ClientRun (some handler) (labels moves)

theorem ClientRun.seen {client : Nat} {handler? handler'? : Option Handler} {talk? : Option Talk}
    {before : List Talk} (hclient : ClientRun handler? before)
    (hseen : Seen client handler? talk? handler'?) :
    ClientRun handler'? (before ++ talk?.toList) := by
  cases hseen with
  | apart => simpa using hclient
  | started socket =>
      cases hclient
      exact .present .nil
  | stepped hstep =>
      cases hclient with
      | @present _ _ moves hrun =>
          have hnext := ClientRun.present (hrun.snoc hstep)
          rwa [labels_append] at hnext

/-- Seen from one client, the server runs `handle_client` for that client. -/
theorem clientRun_of_run (hrun : Run ServerStep listening moves state) (client : Nat) :
    ClientRun state.handlers[client]? (talks client moves) := by
  induction hrun with
  | nil => exact .absent
  | @snoc moves source target event hprior hlast ih =>
      have hseen := seen_step (coherent_of_reachable hprior.reachable) hlast client
      have hnext := ih.seen hseen
      unfold talks at hnext ⊢
      rw [labels_append, labels_singleton, List.filterMap_append]
      cases htalk : event.talk? client with
      | none => simpa [htalk] using hnext
      | some talk => simpa [htalk] using hnext

end Clients

/-! ## The conversation with a client -/

section Conversation

/-- A read that leaves a NUL in the array. -/
def Terminated (bytes : List UInt8) : Prop :=
  bytes.length < 1024 ∨ 0 ∈ bytes

def shownText (bytes : List UInt8) : List UInt8 :=
  bytes.takeWhile (· != 0)

theorem takeWhile_append_zeros (bytes : List UInt8) (count : Nat) :
    (bytes ++ List.replicate count 0).takeWhile (· != 0) = shownText bytes := by
  unfold shownText
  induction bytes with
  | nil => cases count <;> simp [List.replicate_succ]
  | cons byte bytes ih => simp [List.takeWhile_cons, ih]

theorem bufferText_eq_some {bytes text : List UInt8} :
    bufferText bytes = some text ↔ Terminated bytes ∧ text = shownText bytes := by
  have hmem : 0 ∈ bytes ++ List.replicate (1024 - bytes.length) 0 ↔ Terminated bytes := by
    rw [List.mem_append, List.mem_replicate, and_iff_left rfl, or_comm, Terminated]
    refine or_congr_left ?_
    omega
  simp only [bufferText, takeWhile_append_zeros, Option.ite_none_right_eq_some, hmem,
    Option.some.injEq]
  rw [eq_comm]

/-- A message that was answered. -/
def exchange (socket : Int) (bytes : List UInt8) : List Talk :=
  [.heard bytes, .shown (Handler.receivedLine socket (shownText bytes)), .said socket hello]

def answered (socket : Int) (messages : List (List UInt8)) : List Talk :=
  .shown (Handler.connectedLine socket) :: messages.flatMap (exchange socket)

/-- What has passed between the server and a client, where the thread of the client
stands at a point. -/
inductive Talked (socket : Int) (messages : List (List UInt8)) : HandlerPoint → List Talk → Prop
  | connected (hnone : messages = []) : Talked socket messages .connected []
  | reading : Talked socket messages .reading (answered socket messages)
  | received (bytes : List UInt8) :
      Talked socket messages (.received bytes) (answered socket messages ++ [.heard bytes])
  | writing (bytes : List UInt8) (hterminated : Terminated bytes) :
      Talked socket messages .writing (answered socket messages ++
        [.heard bytes, .shown (Handler.receivedLine socket (shownText bytes))])
  | disconnected : Talked socket messages .disconnected (answered socket messages ++ [.hungUp])
  | keeping : Talked socket messages .keeping
      (answered socket messages ++ [.hungUp, .shown (Handler.disconnectedLine socket)])

theorem answered_concat (socket : Int) (messages : List (List UInt8)) (bytes : List UInt8) :
    answered socket (messages ++ [bytes]) = answered socket messages ++ exchange socket bytes := by
  simp [answered]

theorem Talked.shown {socket : Int} {messages : List (List UInt8)} {point : HandlerPoint}
    {talks : List Talk} {line : Line} (htalked : Talked socket messages point talks)
    (hline : Handler.line ⟨socket, point⟩ = some line) :
    Talked socket messages (Handler.printed ⟨socket, point⟩).point (talks ++ [.shown line]) := by
  cases htalked with
  | connected hnone =>
      cases hline
      subst hnone
      exact .reading
  | received bytes =>
      obtain ⟨text, htext, rfl⟩ := Option.map_eq_some_iff.mp hline
      obtain ⟨hterminated, rfl⟩ := bufferText_eq_some.mp htext
      rw [List.append_assoc]
      exact .writing bytes hterminated
  | disconnected =>
      cases hline
      rw [List.append_assoc]
      exact .keeping
  | reading => cases hline
  | writing => cases hline
  | keeping => cases hline

/-- A client's thread shows, reads and answers in turn, until the client is gone. -/
theorem talked_of_run {socket : Int} {handler : Handler} {moves : List (Move Handler Talk)}
    (hrun : Run HandlerStep ⟨socket, .connected⟩ moves handler) :
    handler.socket = socket ∧ ∃ messages, (∀ bytes ∈ messages, Terminated bytes) ∧
      Talked socket messages handler.point (labels moves) := by
  induction hrun with
  | nil => exact ⟨rfl, [], nofun, .connected rfl⟩
  | @snoc moves source target talk _ hlast ih =>
      obtain ⟨hsocket, messages, hterminated, htalked⟩ := ih
      rw [labels_append, labels_singleton]
      generalize labels moves = talks at htalked ⊢
      rcases source with ⟨found, point⟩
      dsimp only at hsocket htalked
      subst hsocket
      cases hlast with
      | shown hline => exact ⟨rfl, messages, hterminated, htalked.shown hline⟩
      | heard socket bytes hlength =>
          cases htalked
          exact ⟨rfl, messages, hterminated, .received bytes⟩
      | hungUp socket =>
          cases htalked
          exact ⟨rfl, messages, hterminated, .disconnected⟩
      | said socket =>
          cases htalked with
          | writing bytes hlast =>
              refine ⟨rfl, messages ++ [bytes], ?_, ?_⟩
              · rw [List.forall_mem_append, List.forall_mem_singleton]
                exact ⟨hterminated, hlast⟩
              · have hanswered := answered_concat found messages bytes
                rw [exchange] at hanswered
                rw [List.append_assoc, List.cons_append, List.cons_append, List.nil_append,
                  ← hanswered]
                exact .reading

end Conversation

/-! ## Sockets -/

section Sockets

/-- The socket that `main` has not given to a thread yet. -/
def MainPoint.hand : MainPoint → List Int
  | .accepting => []
  | .accepted socket _ _ => [socket]
  | .starting socket => [socket]

def ServerEvent.accepted? : ServerEvent → Option Int
  | .accept socket _ _ => some socket
  | _ => none

/-- The sockets that were accepted in a run. -/
def acceptedSockets (moves : List (Move ServerState ServerEvent)) : List Int :=
  (labels moves).filterMap ServerEvent.accepted?

/-- Every socket is open, and in one hand. -/
structure EachHeld (state : ServerState) : Prop where
  nodup : state.opened.Nodup
  held : state.handlers.map Handler.socket ++ state.main.hand = state.opened

theorem map_socket_set {handlers : List Handler} {client : Nat} {handler handler' : Handler}
    (hhandler : handlers[client]? = some handler) (hsocket : handler'.socket = handler.socket) :
    (handlers.set client handler').map Handler.socket = handlers.map Handler.socket := by
  have hlt := (List.getElem?_eq_some_iff.mp hhandler).1
  apply List.ext_getElem?
  intro other
  rw [List.getElem?_map, List.getElem?_map]
  by_cases hother : client = other
  · subst hother
    rw [List.getElem?_set_self hlt, hhandler, Option.map_some, Option.map_some, hsocket]
  · rw [List.getElem?_set_ne hother]

theorem eachHeld_set {console : Console} (console' : Console) {main : MainPoint}
    {handlers : List Handler} {opened : List Int} {client : Nat} {handler handler' : Handler}
    (hheld : EachHeld ⟨console, main, handlers, opened⟩)
    (hhandler : handlers[client]? = some handler) (hsocket : handler'.socket = handler.socket) :
    EachHeld ⟨console', main, handlers.set client handler', opened⟩ where
  nodup := hheld.nodup
  held := by
    dsimp only
    rw [map_socket_set hhandler hsocket]
    exact hheld.held

theorem eachHeld_step {source target : ServerState} {event : ServerEvent}
    (hheld : EachHeld source) (hstep : ServerStep source event target) : EachHeld target := by
  cases hstep with
  | acceptFailed => exact hheld
  | @accept _ _ opened socket _ _ hfresh =>
      obtain ⟨hnodup, hheld⟩ := hheld
      refine ⟨?_, ?_⟩
      · rw [List.nodup_append_comm, List.singleton_append]
        exact List.nodup_cons.mpr ⟨hfresh, hnodup⟩
      · simpa [MainPoint.hand] using hheld
  | lockMain => exact ⟨hheld.nodup, hheld.held⟩
  | unlockMain => exact ⟨hheld.nodup, hheld.held⟩
  | start =>
      obtain ⟨hnodup, hheld⟩ := hheld
      refine ⟨hnodup, ?_⟩
      simpa [MainPoint.hand] using hheld
  | lock => exact ⟨hheld.nodup, hheld.held⟩
  | work => exact ⟨hheld.nodup, hheld.held⟩
  | unlock _ _ hhandler => exact eachHeld_set _ hheld hhandler rfl
  | read _ _ _ hhandler => exact eachHeld_set _ hheld hhandler rfl
  | disconnect _ _ _ hhandler => exact eachHeld_set _ hheld hhandler rfl
  | write _ _ _ hhandler => exact eachHeld_set _ hheld hhandler rfl

theorem opened_eq_accepted {state : ServerState} {moves : List (Move ServerState ServerEvent)}
    (hrun : Run ServerStep listening moves state) : state.opened = acceptedSockets moves := by
  induction hrun with
  | nil => rfl
  | snoc _ hlast ih =>
      unfold acceptedSockets at ih ⊢
      rw [labels_append, List.filterMap_append, ← ih]
      cases hlast with
      | accept => rfl
      | _ => simp [ServerEvent.accepted?]

end Sockets

section Server

variable {state : ServerState} {moves : List (Move ServerState ServerEvent)}

/-- **Every client is served apart from the others.** In any interleaving, a client's
thread announces it, then shows and answers each of its messages, in order and as
long as a message leaves a NUL in the array, on a socket of its own. No socket
that was accepted is closed again. -/
theorem clients_served (hrun : Run ServerStep listening moves state) :
    (∀ client handler, state.handlers[client]? = some handler →
      ∃ messages, (∀ bytes ∈ messages, Terminated bytes) ∧
        Talked handler.socket messages handler.point (talks client moves)) ∧
      (state.handlers.map Handler.socket).Nodup ∧ state.opened = acceptedSockets moves := by
  refine ⟨?_, ?_, opened_eq_accepted hrun⟩
  · intro client handler hhandler
    have hclient := clientRun_of_run hrun client
    rw [hhandler] at hclient
    generalize talks client moves = talked at hclient ⊢
    cases hclient with
    | present hrun =>
        obtain ⟨hsocket, htalked⟩ := talked_of_run hrun
        rw [hsocket]
        exact htalked
  · have hheld : EachHeld state :=
      hrun.reachable.invariant ⟨List.nodup_nil, rfl⟩ fun _ _ _ => eachHeld_step
    have hnodup := hheld.nodup
    rw [← hheld.held] at hnodup
    exact hnodup.of_append_left

end Server

/-! ## The console -/

section Lines

def ServerEvent.print? : ServerEvent → Option (Mutex.Event ServerThread Line Unit)
  | .print event => some event
  | _ => none

/-- The lines that a run has finished, in order. -/
def shownLines (moves : List (Move ServerState ServerEvent)) : List Line :=
  (((labels moves).filterMap ServerEvent.print?).filterMap Mutex.Event.call?).map Call.kind

theorem simulates_console :
    Simulates ServerStep (Mutex.Step printing) ServerState.console ServerEvent.print? where
  visible_step := by
    intro source event target label hstep hvisible
    cases hstep with
    | lockMain _ _ hconsole => exact Option.some.inj hvisible ▸ hconsole
    | unlockMain _ _ hconsole => exact Option.some.inj hvisible ▸ hconsole
    | lock _ _ _ _ hconsole => exact Option.some.inj hvisible ▸ hconsole
    | work _ _ _ hconsole => exact Option.some.inj hvisible ▸ hconsole
    | unlock _ _ _ hconsole => exact Option.some.inj hvisible ▸ hconsole
    | _ => cases hvisible
  silent_step := by
    intro source event target hstep hvisible
    cases hstep with
    | lockMain => cases hvisible
    | unlockMain => cases hvisible
    | lock => cases hvisible
    | work => cases hvisible
    | unlock => cases hvisible
    | _ => rfl

theorem text_of_steps {text : List UInt8} {line : Line} {reached : List UInt8 × Line}
    (hsteps : printing.Steps (text, line) reached) :
    reached.1 ++ reached.2.flatten = text ++ line.flatten := by
  induction hsteps with
  | refl => rfl
  | @tail middle reached _ hlast ih =>
      obtain ⟨piece, hpiece, htext⟩ := hlast
      rw [← ih, hpiece, htext, List.flatten_cons, List.append_assoc]

theorem text_of_atomic {text text' : List UInt8} {call : Call ServerThread Line Unit}
    (hatomic : printing.Atomic text call text') : text' = text ++ call.kind.flatten := by
  obtain ⟨rest, hsteps, hresult⟩ := hatomic
  have htext := text_of_steps hsteps
  have hrest : rest = [] := by
    by_contra hne
    simp [printing, hne] at hresult
  rw [hrest, List.flatten_nil, List.append_nil] at htext
  exact htext

theorem text_of_calls {text : List UInt8}
    {calls : List (Move (List UInt8) (Call ServerThread Line Unit))}
    (hcalls : Run (Sections.Atomic printing) [] calls text) :
    text = ((labels calls).map Call.kind).flatten.flatten := by
  induction hcalls with
  | nil => rfl
  | snoc _ hlast ih =>
      rw [text_of_atomic hlast, ih]
      simp

/-- While `main` is inside, it has accepted a client. -/
def MainCoherent (state : ServerState) : Prop :=
  state.console.inside none ≠ none → ∃ socket ip port, state.main = .accepted socket ip port

theorem mainCoherent_console {console console' : Console} {main : MainPoint}
    {handlers : List Handler} (handlers' : List Handler) {opened : List Int}
    {event : Mutex.Event ServerThread Line Unit}
    (hcoherent : MainCoherent ⟨console, main, handlers, opened⟩)
    (hconsole : Mutex.Step printing console event console')
    (hlock : ∀ line, event ≠ .lock none line) :
    MainCoherent ⟨console', main, handlers', opened⟩ := by
  intro hinside
  obtain ⟨⟨line, rest⟩, hinside⟩ := Option.ne_none_iff_exists'.mp hinside
  rcases hconsole.inside_before hinside with hlocked | ⟨rest', hbefore⟩
  · exact absurd hlocked (hlock line)
  · exact hcoherent (by simp [hbefore])

theorem mainCoherent_step {source target : ServerState} {event : ServerEvent}
    (hcoherent : MainCoherent source) (hstep : ServerStep source event target) :
    MainCoherent target := by
  cases hstep with
  | acceptFailed => exact hcoherent
  | accept _ _ ip port => exact fun _ => ⟨_, ip, port, rfl⟩
  | @lockMain _ _ socket ip port => exact fun _ => ⟨socket, ip, port, rfl⟩
  | unlockMain _ _ hconsole => exact fun hinside => absurd hconsole.of_unlock.2 hinside
  | start =>
      intro hinside
      obtain ⟨_, _, _, hmain⟩ := hcoherent hinside
      cases hmain
  | lock _ _ _ _ hconsole => exact mainCoherent_console _ hcoherent hconsole nofun
  | work _ _ _ hconsole => exact mainCoherent_console _ hcoherent hconsole nofun
  | unlock _ _ _ hconsole => exact mainCoherent_console _ hcoherent hconsole nofun
  | read => exact hcoherent
  | disconnect => exact hcoherent
  | write => exact hcoherent

/-- Whoever is inside can print the rest of its line. -/
theorem exists_printed (main : MainPoint) (handlers : List Handler) (opened : List Int)
    (thread : ServerThread) (line rest : Line) (text : List UInt8) :
    ∃ moves, Run ServerStep
        ⟨⟨text, true, Mutex.only thread line rest⟩, main, handlers, opened⟩ moves
        ⟨⟨text ++ rest.flatten, true, Mutex.only thread line []⟩, main, handlers, opened⟩ ∧
      ∀ client, talks client moves = [] := by
  induction rest generalizing text with
  | nil => exact ⟨[], by simpa using Run.nil, fun _ => rfl⟩
  | cons piece rest ih =>
      have hpiece : Mutex.Step printing ⟨text, true, Mutex.only thread line (piece :: rest)⟩
          (.work thread) ⟨text ++ piece, true, Mutex.only thread line rest⟩ :=
        .work_only printing thread line ⟨piece, rfl, rfl⟩
      obtain ⟨moves, hmoves, hquiet⟩ := ih (text ++ piece)
      rw [List.append_assoc] at hmoves
      refine ⟨_, (Run.nil.snoc (.work main handlers opened hpiece)).append hmoves, fun client => ?_⟩
      rw [talks_append, hquiet client]
      rfl

/-- Whoever is inside can go on until the mutex is free. -/
theorem exists_unlocked {state : ServerState} (hcoherent : Coherent state)
    (hmain : MainCoherent state) {text : List UInt8}
    (halone : Mutex.Alone printing text state.console) :
    ∃ moves final, Run ServerStep state moves final ∧ final.console.locked = false := by
  rcases state with ⟨console, main, handlers, opened⟩
  cases halone with
  | free => exact ⟨[], _, Run.nil, rfl⟩
  | @held thread line shown rest =>
      obtain ⟨moves, hmoves, _⟩ := exists_printed main handlers opened thread line rest shown
      have hunlock := Mutex.Step.unlock_only printing (shown ++ rest.flatten) thread line
        (show printing.result [] = some () from rfl)
      cases thread with
      | none =>
          obtain ⟨socket, ip, port, rfl⟩ := hmain (by simp)
          exact ⟨_, _, hmoves.snoc (.unlockMain handlers opened hunlock), rfl⟩
      | some client =>
          obtain ⟨handler, hhandler, _⟩ := hcoherent client line rest (by simp)
          exact ⟨_, _, hmoves.snoc (.unlock main opened hhandler hunlock), rfl⟩

/-- **The lines printed under `cout_mutex` do not mix.** Without what is printed past
the mutex, the console shows whole lines one after the other, and then as much as
the one thread inside has printed of its line. It can always finish it and unlock
the mutex. -/
theorem lines_whole {state : ServerState} {moves : List (Move ServerState ServerEvent)}
    (hrun : Run ServerStep listening moves state) :
    (state.console.locked = false → state.console.shared = (shownLines moves).flatten.flatten) ∧
      (∀ thread line rest, state.console.inside thread = some (line, rest) →
        state.console.shared ++ rest.flatten =
          (shownLines moves).flatten.flatten ++ line.flatten) ∧
      (∀ thread other, state.console.inside thread ≠ none → state.console.inside other ≠ none →
        thread = other ∧ state.console.locked = true) ∧
      ∃ more final, Run ServerStep listening (moves ++ more) final ∧
        final.console.locked = false := by
  obtain ⟨events, hevents, hlabels⟩ := simulates_console.run hrun
  obtain ⟨calls, base, hcalls, hcallLabels, halone⟩ := Mutex.atomic_of_run hevents
  have hbase := text_of_calls hcalls
  rw [hcallLabels, hlabels] at hbase
  refine ⟨?_, ?_, fun thread other => halone.exclusive, ?_⟩
  · intro hunlocked
    rw [halone.shared_of_unlocked hunlocked]
    exact hbase
  · intro thread line rest hinside
    rw [text_of_steps (halone.steps hinside), hbase]
    rfl
  · have hmain : MainCoherent state :=
      hrun.reachable.invariant (fun hinside => absurd rfl hinside) fun _ _ _ => mainCoherent_step
    obtain ⟨more, final, hmore, hfinal⟩ :=
      exists_unlocked (coherent_of_reachable hrun.reachable) hmain halone
    exact ⟨more, final, hrun.append hmore, hfinal⟩

end Lines

/-! ## Some runs -/

section Clients

/-- A thread can print its line while the mutex is free. -/
theorem exists_shown (main : MainPoint) {handlers : List Handler} (opened : List Int)
    {client : Nat} {handler : Handler} {line : Line} (text : List UInt8)
    (hhandler : handlers[client]? = some handler) (hline : handler.line = some line) :
    ∃ moves, Run ServerStep ⟨Mutex.free text, main, handlers, opened⟩ moves
        ⟨Mutex.free (text ++ line.flatten), main, handlers.set client handler.printed, opened⟩ ∧
      ∀ other, talks other moves = if client = other then [.shown line] else [] := by
  have hlock : Mutex.Step printing (Mutex.free text) (.lock (some client) line)
      ⟨text, true, Mutex.only (some client) line line⟩ := .lock text line rfl
  have hunlock := Mutex.Step.unlock_only printing (text ++ line.flatten) (some client) line
    (show printing.result [] = some () from rfl)
  obtain ⟨moves, hmoves, hquiet⟩ :=
    exists_printed main handlers opened (some client) line line text
  have hrun := ((Run.nil.snoc (.lock main opened hhandler hline hlock)).append hmoves).snoc
    (.unlock main opened hhandler hunlock)
  refine ⟨_, hrun, fun other => ?_⟩
  rw [talks_append, talks_append, hquiet other]
  by_cases hother : client = other <;> simp [talks, ServerEvent.talk?, hother]

def mainThread : ServerThread := none

/-- A client can come while the mutex is free. -/
theorem exists_started (handlers : List Handler) {opened : List Int} {socket : Int}
    (ip port text : List UInt8) (hfresh : socket ∉ opened) :
    ∃ moves, Run ServerStep ⟨Mutex.free text, .accepting, handlers, opened⟩ moves
        ⟨Mutex.free (text ++ (newConnectionLine ip port).flatten), .accepting,
          handlers ++ [⟨socket, .connected⟩], opened ++ [socket]⟩ ∧
      ∀ client, talks client moves = [] := by
  have hlock : Mutex.Step printing (Mutex.free text)
      (.lock mainThread (newConnectionLine ip port))
      ⟨text, true, Mutex.only mainThread (newConnectionLine ip port) (newConnectionLine ip port)⟩ :=
    .lock text _ rfl
  have hunlock := Mutex.Step.unlock_only printing
    (text ++ (newConnectionLine ip port).flatten) mainThread (newConnectionLine ip port)
    (show printing.result [] = some () from rfl)
  obtain ⟨moves, hmoves, hquiet⟩ := exists_printed (.accepted socket ip port) handlers
    (opened ++ [socket]) mainThread (newConnectionLine ip port) (newConnectionLine ip port) text
  have hrun := ((((Run.nil.snoc (.accept _ handlers ip port hfresh)).snoc
    (.lockMain handlers _ hlock)).append hmoves).snoc (.unlockMain handlers _ hunlock)).snoc
    (.start _ socket handlers _)
  refine ⟨_, hrun, fun client => ?_⟩
  rw [talks_append, talks_append, talks_append, hquiet client]
  rfl

def localhost : List UInt8 := literal "127.0.0.1"

def word : List UInt8 := literal "hi"

/-- Two clients have come, and both have sent a message. The first one has its answer,
the message of the second has not been shown yet. -/
theorem exists_twoClients :
    ∃ moves state, Run ServerStep listening moves state ∧
      state.handlers = [⟨4, .reading⟩, ⟨5, .received word⟩] ∧
      talks 0 moves = answered 4 [word] ∧ talks 1 moves = answered 5 [] ++ [.heard word] := by
  have hfresh : (5 : Int) ∉ [4] := by decide
  have htext : bufferText word = some word := bufferText_eq_some.mpr ⟨Or.inl (by decide), by decide⟩
  have hreceived : Handler.line ⟨4, .received word⟩ = some (Handler.receivedLine 4 word) :=
    congrArg (Option.map (Handler.receivedLine 4)) htext
  have hword : word ≠ [] := by decide
  have hshort : word.length ≤ 1024 := by decide
  have hnew : ([⟨4, .connected⟩, ⟨5, .connected⟩] : List Handler)[0]? = some ⟨4, .connected⟩ := rfl
  have hnew' : ([⟨4, .reading⟩, ⟨5, .connected⟩] : List Handler)[1]? = some ⟨5, .connected⟩ := rfl
  have hreads : ([⟨4, .reading⟩, ⟨5, .reading⟩] : List Handler)[0]? = some ⟨4, .reading⟩ := rfl
  have hreads' : ([⟨4, .received word⟩, ⟨5, .reading⟩] : List Handler)[1]? =
      some ⟨5, .reading⟩ := rfl
  have hholds : ([⟨4, .received word⟩, ⟨5, .received word⟩] : List Handler)[0]? =
      some ⟨4, .received word⟩ := rfl
  have hwrites : ([⟨4, .writing⟩, ⟨5, .received word⟩] : List Handler)[0]? =
      some ⟨4, .writing⟩ := rfl
  obtain ⟨first, hfirst, hfirstTalks⟩ := exists_started [] localhost [] [] List.not_mem_nil
  obtain ⟨second, hsecond, hsecondTalks⟩ := exists_started [⟨4, .connected⟩] localhost [] _ hfresh
  obtain ⟨shown, hshown, hshownTalks⟩ := exists_shown .accepting [4, 5] _ hnew rfl
  obtain ⟨shown', hshown', hshownTalks'⟩ := exists_shown .accepting [4, 5] _ hnew' rfl
  obtain ⟨told, htold, htoldTalks⟩ := exists_shown .accepting [4, 5] _ hholds hreceived
  have hmet := ((hfirst.append hsecond).append hshown).append hshown'
  have hheard := (hmet.snoc (.read _ _ _ hreads hword hshort)).snoc
    (.read _ _ _ hreads' hword hshort)
  have hrun := (hheard.append htold).snoc (.write _ _ _ hwrites)
  refine ⟨_, _, hrun, rfl, ?_, ?_⟩
  · simp only [talks_append, hfirstTalks, hsecondTalks, hshownTalks, hshownTalks', htoldTalks]
    rfl
  · simp only [talks_append, hfirstTalks, hsecondTalks, hshownTalks, hshownTalks', htoldTalks]
    rfl

/-- The first client has come, and its thread has locked the mutex. -/
theorem exists_firstClient :
    ∃ moves state, Run ServerStep listening moves state ∧ moves.length = 10 ∧
      state.handlers = [⟨4, .connected⟩] := by
  have hlock : Mutex.Step printing (Mutex.free [] : Console)
      (.lock mainThread (newConnectionLine localhost [])) _ := .lock [] _ rfl
  have hhandler : ([⟨4, .connected⟩] : List Handler)[0]? = some ⟨4, .connected⟩ := rfl
  have hline : Handler.line ⟨4, .connected⟩ = some (Handler.connectedLine 4) := rfl
  refine ⟨_, _, ((((((((((Run.nil.snoc (.accept (Mutex.free []) [] localhost [] (by simp))).snoc
    (.lockMain [] [4] hlock)).snoc
    (.work _ _ _ (.work _ (Function.update_self mainThread _ _) ⟨_, rfl, rfl⟩))).snoc
    (.work _ _ _ (.work _ (Function.update_self mainThread _ _) ⟨_, rfl, rfl⟩))).snoc
    (.work _ _ _ (.work _ (Function.update_self mainThread _ _) ⟨_, rfl, rfl⟩))).snoc
    (.work _ _ _ (.work _ (Function.update_self mainThread _ _) ⟨_, rfl, rfl⟩))).snoc
    (.work _ _ _ (.work _ (Function.update_self mainThread _ _) ⟨_, rfl, rfl⟩))).snoc
    (.unlockMain _ _ (.unlock _ _ (Function.update_self mainThread _ _) rfl))).snoc
    (.start _ _ _ _)).snoc
    (.lock _ _ hhandler hline (.lock _ _ rfl))), rfl, rfl⟩

theorem clients_served_twoClients :
    ∃ (moves : List (Move ServerState ServerEvent)) (state : ServerState),
      state.handlers = [⟨4, .reading⟩, ⟨5, .received word⟩] ∧
      talks 0 moves = answered 4 [word] ∧ talks 1 moves = answered 5 [] ++ [.heard word] ∧
      (∀ client handler, state.handlers[client]? = some handler →
        ∃ messages, (∀ bytes ∈ messages, Terminated bytes) ∧
          Talked handler.socket messages handler.point (talks client moves)) ∧
      (state.handlers.map Handler.socket).Nodup ∧ state.opened = acceptedSockets moves := by
  obtain ⟨moves, state, hrun, hhandlers, hfirst, hsecond⟩ := exists_twoClients
  exact ⟨moves, state, hhandlers, hfirst, hsecond, clients_served hrun⟩

theorem lines_whole_firstClient :
    ∃ (moves : List (Move ServerState ServerEvent)) (state : ServerState),
      moves.length = 10 ∧
      (state.console.locked = false → state.console.shared = (shownLines moves).flatten.flatten) ∧
      (∀ thread line rest, state.console.inside thread = some (line, rest) →
        state.console.shared ++ rest.flatten =
          (shownLines moves).flatten.flatten ++ line.flatten) ∧
      (∀ thread other, state.console.inside thread ≠ none → state.console.inside other ≠ none →
        thread = other ∧ state.console.locked = true) ∧
      ∃ more final, Run ServerStep listening (moves ++ more) final ∧
        final.console.locked = false := by
  obtain ⟨moves, state, hrun, hlength, _⟩ := exists_firstClient
  exact ⟨moves, state, hlength, lines_whole hrun⟩

end Clients

end CppFragments.TcpServer
