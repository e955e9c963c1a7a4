import Sponge.Socket.SocketRules

/-!
# Whole runs of a socket

A session is a socket from `connect` or `listen_and_accept` on.  Whatever the kernel answers, whatever comes
in, and whenever the owner reads, writes and aborts, the socket uses its connection and its adapter as it
should: the run is one long history of a `Station`.  The results of this file are for all adapters.

A callback that throws is not in the record of a session, which is over then.
-/

namespace Sponge.TCPSpongeSocket

open EventLoop Execution FdAdapter Relay TCPConnection

section Iterations

variable {Adapter Incoming Outgoing : Type} (session : Session Adapter Incoming Outgoing)
  (iteration : Iteration Incoming)

def Session.afterWait : Session Adapter Incoming Outgoing :=
  let handled := iteration.turn.waitNextEvent session.handlers session.socket
  { session with handlers := handled.handlers, socket := handled.state }

def Session.waitEnding : Ending := (iteration.turn.waitNextEvent session.handlers session.socket).ending

/-- What an iteration can do: nothing after the end, leave the loop, or call the event loop, and then end
with an exception, leave the loop, let time pass, or do nothing more. -/
inductive Session.Goes : Session Adapter Incoming Outgoing → Prop
  | stays {ending : Ending} (hover : session.phase = .ended ending) : Goes session
  | leaves (hopen : ∀ ending, session.phase ≠ .ended ending) :
      Goes (session.leaveLoop .success iteration.time)
  | stops (hopen : ∀ ending, session.phase ≠ .ended ending) {ending : Ending}
      (hending : session.waitEnding iteration = ending) (hthrew : ∀ result, ending ≠ .returned result) :
      Goes { session.afterWait iteration with phase := .ended ending }
  | exits (hopen : ∀ ending, session.phase ≠ .ended ending) {result : Result}
      (hending : session.waitEnding iteration = .returned result) :
      Goes ((session.afterWait iteration).leaveLoop result iteration.time)
  | ticks (hopen : ∀ ending, session.phase ≠ .ended ending) :
      Goes ((session.afterWait iteration).tick iteration.time)
  | waits (hopen : ∀ ending, session.phase ≠ .ended ending) : Goes (session.afterWait iteration)

theorem Session.goes_iterate (hopen : ∀ ending, session.phase ≠ .ended ending) :
    session.Goes iteration (session.iterate iteration) := by
  unfold Session.iterate
  dsimp only
  cases hending : (iteration.turn.waitNextEvent session.handlers session.socket).ending with
  | returned result =>
    dsimp only
    split_ifs
    · exact .exits hopen hending
    · exact .ticks hopen
    · exact .waits hopen
  | threw exception => exact .stops hopen hending nofun
  | outOfBounds idx => exact .stops hopen hending nofun

/-- The step function does one of the things that an iteration can do. -/
theorem Session.goes_step : session.Goes iteration (session.step iteration) := by
  unfold Session.step
  split
  · rename_i ending hphase
    exact .stays hphase
  · rename_i hopen
    split_ifs
    · exact session.goes_iterate iteration hopen
    · exact .leaves hopen

theorem Session.leaveLoop_eq (result : Result) (time : ℕ) :
    ∃ phase baseTime, session.leaveLoop result time = { session with phase, baseTime } ∧
      (phase = .main ∨ session.phase = .main ∧ phase = .ended (.returned result)) := by
  unfold Session.leaveLoop
  split
  · rename_i hmain
    exact ⟨_, _, rfl, .inr ⟨hmain, rfl⟩⟩
  · exact ⟨_, _, rfl, .inl rfl⟩

/-- The thread has got a signal, which makes it return.  In the loop before the thread, a signal does not. -/
def Session.StoppedBySignal : Prop := session.phase = .main ∧ iteration.turn.Interrupted

instance : Decidable (session.StoppedBySignal iteration) := inferInstanceAs (Decidable (_ ∧ _))

/-- When the loop has returned, the rules that are left have nothing to do. -/
def Session.AtRest : Prop :=
  session.phase = .ended (.returned .exit) → ∀ handler ∈ session.handlers, Idle handler.id session.socket

end Iterations

theorem Session.AtRest.idle {Adapter Incoming Outgoing : Type} {session : Session Adapter Incoming Outgoing}
    {id : ℕ} (h : session.AtRest) (hexit : session.phase = .ended (.returned .exit))
    (hid : id ∈ ids session.handlers) : Idle id session.socket := by
  obtain ⟨handler, hmem, rfl⟩ := List.mem_map.mp hid
  exact h hexit handler hmem

variable {Adapter Incoming Outgoing : Type} [FdAdapter Adapter Incoming Outgoing]
  {datagramFd threadFd : ℤ} {start : Station Adapter Outgoing} {packets : List Incoming}
  {session after : Session Adapter Incoming Outgoing} {iteration : Iteration Incoming}
  {iterations : List (Iteration Incoming)} {setup : Setup Adapter}

/-- What holds in a session.  If it has ended with an exception, it is that of a system call. -/
structure Session.Sound (datagramFd threadFd : ℤ) (start : Station Adapter Outgoing)
    (packets : List Incoming) (session : Session Adapter Incoming Outgoing) : Prop where
  socket : TCPSpongeSocket.Sound datagramFd threadFd start packets session.handlers session.socket
  threw : ∀ exception, session.phase = .ended (.threw exception) →
    exception = errorOnPoll ∨ Fails exception
  inBounds : ∀ idx, session.phase ≠ .ended (.outOfBounds idx)

/-- With rule 3 at rest, all bytes of the inbound stream have been written to the owner. -/
theorem Idle.inbound_eq {socket : TCPSpongeSocket Adapter Outgoing} (h : Idle 3 socket) :
    socket.endpoint.inbound = written socket.ownerCalls := by
  have hcontents : socket.tcp.receiver.streamOut.contents = [] := h.1
  change written socket.ownerCalls ++ socket.tcp.receiver.streamOut.contents = _
  rw [hcontents, List.append_nil]

theorem Session.Sound.mono {all : List Incoming} (h : session.Sound datagramFd threadFd start packets)
    (hsub : packets.Sublist all) : session.Sound datagramFd threadFd start all :=
  { h with socket := h.socket.mono hsub }

/-- The same session, seen from now on. -/
theorem Session.Sound.restart (h : session.Sound datagramFd threadFd start packets) :
    session.Sound datagramFd threadFd session.socket.station [] :=
  { h with socket := { h.socket with served := ⟨[], .refl, .slnil⟩ } }

theorem Session.Sound.leaveLoop (h : session.Sound datagramFd threadFd start packets) (result : Result)
    (time : ℕ) : (session.leaveLoop result time).Sound datagramFd threadFd start packets := by
  obtain ⟨phase, baseTime, heq, rfl | ⟨-, rfl⟩⟩ := session.leaveLoop_eq result time
  · rw [heq]
    exact ⟨h.socket, nofun, nofun⟩
  · rw [heq]
    exact ⟨h.socket, nofun, nofun⟩

theorem Session.Sound.tick (h : session.Sound datagramFd threadFd start packets) (nextTime : ℕ) :
    (session.tick nextTime).Sound datagramFd threadFd start packets := by
  have htick : TCPSpongeSocket.Sound datagramFd threadFd start packets session.handlers
      (session.socket.apply (.tick (Word.sub nextTime session.baseTime))) :=
    h.socket.apply nofun trivial rfl nofun
  rw [apply_tick] at htick
  exact ⟨htick, h.threw, h.inBounds⟩

section Lawful

variable [LawfulFdAdapter Adapter] (h : session.Sound datagramFd threadFd start packets)
  (iteration : Iteration Incoming)
include h

theorem Session.Sound.afterWait : (session.afterWait iteration).Sound datagramFd threadFd start
    (packets ++ [iteration.turn.input.incoming]) :=
  ⟨(h.socket.settled iteration.turn).inv, h.threw, h.inBounds⟩

/-- Every iteration keeps what holds in a session, with one more packet that may have been read. -/
theorem Session.Sound.step : (session.step iteration).Sound datagramFd threadFd start
    (packets ++ [iteration.turn.input.incoming]) := by
  have hwait : (session.afterWait iteration).Sound datagramFd threadFd start
      (packets ++ [iteration.turn.input.incoming]) := h.afterWait iteration
  have hstays : session.Sound datagramFd threadFd start (packets ++ [iteration.turn.input.incoming]) :=
    h.mono (List.sublist_append_left _ _)
  have hsettled := h.socket.settled iteration.turn
  have hgoes := session.goes_step iteration
  generalize session.step iteration = after at hgoes ⊢
  cases hgoes with
  | stays => exact hstays
  | leaves => exact hstays.leaveLoop _ _
  | stops _ hending =>
    refine ⟨hwait.socket, fun exception hthrew ↦ ?_, fun idx hbounds ↦ ?_⟩
    · exact hsettled.threw exception (hending.trans (Phase.ended.inj hthrew))
    · exact hsettled.inBounds idx (hending.trans (Phase.ended.inj hbounds))
  | exits => exact hwait.leaveLoop _ _
  | ticks => exact hwait.tick _
  | waits => exact hwait

/-- Without a signal, the thread returns only when the rules have nothing to do. -/
theorem Session.Sound.atRest_step (hrest : session.AtRest) (hsignal : ¬ session.StoppedBySignal iteration) :
    (session.step iteration).AtRest := by
  have hsettled := h.socket.settled iteration.turn
  have hgoes := session.goes_step iteration
  generalize session.step iteration = after at hgoes ⊢
  intro hexit
  cases hgoes with
  | stays => exact hrest hexit
  | leaves =>
    obtain ⟨phase, baseTime, heq, rfl | ⟨-, rfl⟩⟩ := session.leaveLoop_eq .success iteration.time
    · rw [heq] at hexit
      nomatch hexit
    · rw [heq] at hexit
      nomatch hexit
  | stops _ _ hthrew => exact absurd (Phase.ended.inj hexit) (hthrew .exit)
  | @exits hopen result hending =>
    obtain ⟨phase, baseTime, heq, hphase⟩ :=
      (session.afterWait iteration).leaveLoop_eq result iteration.time
    rw [heq] at hexit ⊢
    obtain ⟨hmain, rfl⟩ : session.phase = .main ∧ result = .exit := by
      rcases hphase with rfl | ⟨hmain, rfl⟩
      · nomatch hexit
      · exact ⟨hmain, Ending.returned.inj (Phase.ended.inj hexit)⟩
    exact (hsettled.exit hending).resolve_left fun hinterrupted ↦ hsignal ⟨hmain, hinterrupted⟩
  | ticks hopen => exact absurd hexit (hopen _)
  | waits hopen => exact absurd hexit (hopen _)

end Lawful

/-! ## From the beginning -/

/-- The session has been opened by `connect` or by `listen_and_accept`. -/
def Opened (setup : Setup Adapter) (session : Session Adapter Incoming Outgoing) : Prop :=
  connect none setup = .ok session ∨ listenAndAccept none setup = .ok session

def Setup.fresh (setup : Setup Adapter) : Endpoint where
  connection := .new setup.config setup.randomIsn

/-- The fresh connection, with the adapter that the session is opened with. -/
def Setup.station (setup : Setup Adapter) (session : Session Adapter Incoming Outgoing) :
    Station Adapter Outgoing where
  endpoint := setup.fresh
  adapter := session.socket.datagramAdapter

def arrivals (iterations : List (Iteration Incoming)) : List Incoming :=
  iterations.map fun iteration ↦ iteration.turn.input.incoming

/-- `connect` finds the connection in the state that it expects. -/
theorem connect_eq (setup : Setup Adapter) :
    connect none setup = .ok (
      let session : Session Adapter Incoming Outgoing := initializeTCP setup
        (FdAdapter.setConfig setup.adapterConfig setup.adapter) .connecting
      { session with socket := { session.socket with tcp := session.socket.tcp.connect } }) := by
  have hstate : (TCPConnection.new setup.config setup.randomIsn).connect.state = .ofState .synSent := rfl
  unfold connect
  rw [if_neg (by simp)]
  exact if_neg (not_not.mpr hstate)

theorem sound_initialize {adapter : Adapter} {phase : Phase} (hphase : ∀ ending, phase ≠ .ended ending) :
    (initializeTCP setup adapter phase : Session Adapter Incoming Outgoing).Sound setup.datagramFd
      setup.threadFd (setup.station (initializeTCP setup adapter phase)) [] where
  socket :=
    { sublist := .refl _
      served := ⟨[], .refl, .slnil⟩
      operational := operational_new _ _
      popped := Nat.zero_le _
      ended := nofun
      shutdown_iff := by simp [initializeTCP]
      finished := nofun }
  threw _ h := absurd h (hphase _)
  inBounds _ h := hphase _ h

/-- A socket that has just been opened is sound, and no packet has been read. -/
theorem Opened.sound (h : Opened setup session) :
    session.Sound setup.datagramFd setup.threadFd (setup.station session) [] := by
  cases h with
  | inl hconnect =>
    rw [connect_eq] at hconnect
    rw [← Except.ok.inj hconnect]
    set opening : Session Adapter Incoming Outgoing :=
      initializeTCP setup (FdAdapter.setConfig setup.adapterConfig setup.adapter) .connecting
    have hfresh : opening.Sound setup.datagramFd setup.threadFd (setup.station opening) [] :=
      sound_initialize nofun
    have hconnected : TCPSpongeSocket.Sound setup.datagramFd setup.threadFd (setup.station opening) []
        opening.handlers (opening.socket.apply .connect) := hfresh.socket.apply nofun trivial rfl nofun
    rw [apply_connect] at hconnected
    exact ⟨hconnected, nofun, nofun⟩
  | inr hlisten =>
    rw [← Except.ok.inj hlisten]
    exact sound_initialize nofun

theorem Opened.atRest (h : Opened setup session) : session.AtRest := by
  intro hover
  cases h with
  | inl hconnect =>
    rw [connect_eq] at hconnect
    rw [← Except.ok.inj hconnect] at hover
    nomatch hover
  | inr hlisten =>
    rw [← Except.ok.inj hlisten] at hover
    nomatch hover

/-- What holds in a session holds after any number of iterations. -/
theorem Session.Sound.run [LawfulFdAdapter Adapter] (h : session.Sound datagramFd threadFd start packets)
    (iterations : List (Iteration Incoming)) :
    (Execution.run Session.step session iterations).Sound datagramFd threadFd start
      (packets ++ arrivals iterations) := by
  induction iterations generalizing session packets with
  | nil =>
    rw [arrivals, List.map_nil, List.append_nil]
    exact h
  | cons iteration rest ih =>
    have hrest := ih (h.step iteration)
    rwa [List.append_assoc] at hrest

theorem sound_run [LawfulFdAdapter Adapter] (h : Opened setup session)
    (iterations : List (Iteration Incoming)) :
    (run Session.step session iterations).Sound setup.datagramFd setup.threadFd (setup.station session)
      (arrivals iterations) :=
  h.sound.run iterations

/-- The accesses to the adapter in a run of the session.  It is the adapter that the session was opened
with, each access is made on what the one before has left, and the packets that were read are those at hand
in some of the iterations, in this order and at most one in each iteration. -/
def Session.Accesses (session : Session Adapter Incoming Outgoing) (iterations : List (Iteration Incoming))
    (accesses : List (Access Incoming Outgoing)) : Prop :=
  (∃ requests, serve requests session.socket.datagramAdapter =
    .ok (accesses, (run Session.step session iterations).socket.datagramAdapter)) ∧
    (accesses.filterMap Access.packet).Sublist (arrivals iterations)

/-- The history of a run. -/
theorem Opened.serves [LawfulFdAdapter Adapter] (h : Opened setup session)
    (iterations : List (Iteration Incoming)) :
    ∃ accesses, session.Accesses iterations accesses ∧
      (setup.station session).Serves accesses (run Session.step session iterations).socket.station := by
  obtain ⟨accesses, hserves, hpackets⟩ := (sound_run h iterations).socket.served
  exact ⟨accesses, ⟨hserves.serve, hpackets⟩, hserves⟩

def clientSetup : Setup TCPOverUDPSocketAdapter where
  config := { fixedIsn := some ⟨0⟩ }
  adapterConfig := {}
  adapter := {}
  randomIsn := ⟨0⟩
  datagramFd := 3
  threadFd := 4
  time := 0

def client : Session TCPOverUDPSocketAdapter Kernel.Receive UDPDatagram :=
  let session : Session TCPOverUDPSocketAdapter Kernel.Receive UDPDatagram :=
    initializeTCP clientSetup clientSetup.adapter .connecting
  { session with socket := { session.socket with tcp := session.socket.tcp.connect } }

theorem opened_client : Opened clientSetup client := .inl (connect_eq clientSetup)

/-- An iteration in which `poll` reports the given events. -/
def polled (revents : List UInt16) (incoming : Kernel.Receive) (ownerData : List UInt8) (time : ℕ) :
    Iteration Kernel.Receive where
  turn :=
    { poll := { returnValue := 1 }
      revents := fun idx ↦ revents.getD idx 0
      input :=
        { incoming
          ownerData := .gives ownerData
          ownerRoom := .takes 100
          ownerShutdown := none
          sends := fun _ ↦ none } }
  time

def arriving (segment : TCPSegment) (hfits : (segment.bytes 0).length < 65536) : Kernel.Receive :=
  .datagram {} (segment.bytes 0) hfits

/-- No datagram is there: `EAGAIN`. -/
def nothing : Kernel.Receive := .fails ⟨11, by decide⟩

/-- The SYN is sent, a reset comes in, the owner is told, and the thread returns. -/
def refused : List (Iteration Kernel.Receive) :=
  [polled [0, 0, 0, Poll.pollOut] nothing [] 1,
    polled [Poll.pollIn] (arriving { header := { rst := true } } (by decide +kernel)) [] 2,
    polled [] nothing [] 3, polled [0, 0, Poll.pollOut] nothing [] 4, polled [] nothing [] 5]

/-- The connection is opened, and the peer sends two bytes and its FIN. -/
def answered : List (Iteration Kernel.Receive) :=
  [polled [0, 0, 0, Poll.pollOut] nothing [] 1,
    polled [Poll.pollIn] (arriving
      { header := { seqno := ⟨100⟩, ackno := ⟨1⟩, syn := true, ack := true, win := 9 } }
      (by decide +kernel)) [] 2,
    polled [] nothing [] 3,
    polled [Poll.pollIn] (arriving
      { header := { seqno := ⟨101⟩, ackno := ⟨1⟩, ack := true, fin := true, win := 9 }
        payload := .ofString [104, 105] } (by decide +kernel)) [] 4,
    polled [0, 0, Poll.pollOut] nothing [] 5]

/-- All that a socket does to its connection is a sequence of calls, from the fresh connection on, in which
nothing is written after the end of the input.  The segments that the connection gets are those that the
adapter of the socket has read, in their order and each of them once.  The bytes that the connection has
accepted are those read from the owner, none left out, and the bytes read from the connection are those
written to the owner. -/
theorem runs_the_connection [LawfulFdAdapter Adapter] (setup : Setup Adapter)
    (session : Session Adapter Incoming Outgoing) (h : Opened setup session)
    (iterations : List (Iteration Incoming)) :
    let start : Endpoint := { connection := .new setup.config setup.randomIsn }
    let socket := (run Session.step session iterations).socket
    ∃ calls accesses,
      Admissible Endpoint.step (fun endpoint call ↦ endpoint.connection.WritesBeforeEnd call) start calls ∧
      run Endpoint.step start calls =
        { connection := socket.tcp
          accepted := socket.fromOwner
          delivered := written socket.ownerCalls } ∧
      session.Accesses iterations accesses ∧
      calls.filterMap Call.segment = accesses.filterMap Access.received := by
  intro start socket
  obtain ⟨accesses, haccesses, hserves⟩ := h.serves iterations
  obtain ⟨calls, hgoes, hreceived⟩ := hserves.calls
  exact ⟨calls, accesses, hgoes.legal, hgoes.run, haccesses, hreceived⟩

theorem runs_the_connection_refused :
    let start : Endpoint := { connection := .new clientSetup.config clientSetup.randomIsn }
    let socket := (run Session.step client refused).socket
    socket.tcp.isUnclearShutdown = true ∧ ∃ calls accesses,
      Admissible Endpoint.step (fun endpoint call ↦ endpoint.connection.WritesBeforeEnd call) start calls ∧
      run Endpoint.step start calls =
        { connection := socket.tcp
          accepted := socket.fromOwner
          delivered := written socket.ownerCalls } ∧
      client.Accesses refused accesses ∧
      calls.filterMap Call.segment = accesses.filterMap Access.received :=
  ⟨by decide +kernel, runs_the_connection clientSetup client opened_client refused⟩

/-- A session never ends with an exception of its own: not because the connection has accepted less than it
had advertised, not because of a callback that leaves its descriptor alone, and not because a segment does
not fit into a datagram.  What it throws is the failure of a system call.  Neither does `connect` find the
connection in a state that it does not expect. -/
theorem fails_with_system_errors_only [LawfulFdAdapter Adapter] (setup : Setup Adapter) :
    (∃ session : Session Adapter Incoming Outgoing, connect none setup = .ok session) ∧
      ∀ session : Session Adapter Incoming Outgoing, Opened setup session →
        ∀ iterations : List (Iteration Incoming),
          let phase := (run Session.step session iterations).phase
          (∀ exception, phase = .ended (.threw exception) → exception = errorOnPoll ∨ Fails exception) ∧
            ∀ idx, phase ≠ .ended (.outOfBounds idx) := by
  refine ⟨⟨_, connect_eq setup⟩, fun session h iterations ↦ ?_⟩
  have hsound := sound_run h iterations
  exact ⟨hsound.threw, hsound.inBounds⟩

theorem fails_with_system_errors_only_client :
    (run Session.step client refused).phase = .ended (.returned .exit) ∧
      ∀ idx, (run Session.step client refused).phase ≠ .ended (.outOfBounds idx) :=
  ⟨by decide +kernel,
    ((fails_with_system_errors_only clientSetup).2 client opened_client refused).2⟩

/-- The segments of the connection are handed to the adapter in their order, each of them once: there is
one entry in the record for each segment that has been taken out of the queue, and it is what the adapter
has answered when it was asked to write that segment. -/
theorem sends_each_segment_once [LawfulFdAdapter Adapter] (setup : Setup Adapter)
    (session : Session Adapter Incoming Outgoing) (h : Opened setup session)
    (iterations : List (Iteration Incoming)) :
    let socket := (run Session.step session iterations).socket
    socket.popped ≤ socket.tcp.segmentsOut.length ∧ socket.datagrams.length = socket.popped ∧
      ∃ accesses, session.Accesses iterations accesses ∧ accesses.filterMap Access.sent =
        ((socket.tcp.segmentsOut.take socket.popped).map Emission.segment).zip socket.datagrams := by
  intro socket
  obtain ⟨accesses, haccesses, hserves⟩ := h.serves iterations
  have hrecords := hserves.records rfl rfl
  exact ⟨hrecords.popped_le, hrecords.length, accesses, haccesses, hrecords.sent⟩

/-- The SYN goes out in a datagram. -/
theorem sends_each_segment_once_refused :
    let socket := (run Session.step client refused).socket
    socket.datagrams = [some
        { destination := {}
          payload := [0, 0, 0, 0, 0, 0, 0, 0, 0, 0, 0, 0, 80, 2, 0, 0, 175, 253, 0, 0] }] ∧
      ∃ accesses, client.Accesses refused accesses ∧ accesses.filterMap Access.sent =
        ((socket.tcp.segmentsOut.take socket.popped).map Emission.segment).zip socket.datagrams :=
  ⟨by decide +kernel, (sends_each_segment_once clientSetup client opened_client refused).2.2⟩

/-- As long as the connection has not been reset, the end of the owner is shut down at most once, as the
last thing that is done to it, and only when the inbound stream has ended and all its bytes have been
written to the owner. -/
theorem shuts_owner_down_last [LawfulFdAdapter Adapter] (setup : Setup Adapter)
    (session : Session Adapter Incoming Outgoing) (h : Opened setup session)
    (iterations : List (Iteration Incoming)) :
    let socket := (run Session.step session iterations).socket
    socket.tcp.isUnclearShutdown = false → .finish ∈ socket.ownerCalls →
      socket.tcp.inboundStream.ended = true ∧ socket.endpoint.inbound = written socket.ownerCalls ∧
        ∃ before, socket.ownerCalls = before ++ [.finish] ∧ .finish ∉ before := by
  intro socket hopen hfinish
  have hsound := (sound_run h iterations).socket
  have herror : ¬ socket.tcp.inboundStream.error = true := by
    have hmarked : socket.tcp.inboundStream.error = socket.tcp.isUnclearShutdown :=
      hsound.operational.regular.marked.2
    rw [hmarked, hopen]
    exact Bool.false_ne_true
  have hfinished := (hsound.finished (hsound.shutdown_iff.mpr hfinish)).resolve_left herror
  refine ⟨hfinished.ended, ?_, hfinished.last⟩
  have hempty : socket.tcp.receiver.streamOut.contents = [] := hfinished.empty
  change written socket.ownerCalls ++ socket.tcp.receiver.streamOut.contents = _
  rw [hempty, List.append_nil]

theorem shuts_owner_down_last_answered :
    let socket := (run Session.step client answered).socket
    socket.tcp.isUnclearShutdown = false ∧ socket.ownerCalls = [.write [104, 105], .finish] ∧
      socket.tcp.inboundStream.ended = true ∧ socket.endpoint.inbound = written socket.ownerCalls := by
  intro socket
  have hopen : socket.tcp.isUnclearShutdown = false := by decide +kernel
  have hcalls : socket.ownerCalls = [.write [104, 105], .finish] := by decide +kernel
  have hfinish : .finish ∈ socket.ownerCalls := by
    rw [hcalls]
    decide
  obtain ⟨hended, hinbound, -⟩ :=
    shuts_owner_down_last clientSetup client opened_client answered hopen hfinish
  exact ⟨hopen, hcalls, hended, hinbound⟩

/-- An iteration after an error leaves it at one more write and the shutdown. -/
theorem cutShort_step [LawfulFdAdapter Adapter] {before : List SinkCall}
    (h : session.Sound datagramFd threadFd start packets) (iteration : Iteration Incoming)
    (hshort : CutShort before session.socket) : CutShort before (session.step iteration).socket := by
  have hwait : CutShort before (session.afterWait iteration).socket :=
    hshort.waitNextEvent h.socket iteration.turn
  have hleave (session : Session Adapter Incoming Outgoing) (result : Result)
      (hbefore : CutShort before session.socket) :
      CutShort before (session.leaveLoop result iteration.time).socket := by
    obtain ⟨_, _, heq, -⟩ := session.leaveLoop_eq result iteration.time
    rw [heq]
    exact hbefore
  have hgoes := session.goes_step iteration
  generalize session.step iteration = after at hgoes ⊢
  cases hgoes with
  | stays => exact hshort
  | leaves => exact hleave _ _ hshort
  | stops => exact hwait
  | exits => exact hleave _ _ hwait
  | ticks =>
    have hsound := (h.afterWait iteration).socket.receiver
    have htick := hwait.next (writesAndFinishes_apply hsound
      (.tick (Word.sub iteration.time (session.afterWait iteration).baseTime)))
    rw [apply_tick] at htick
    exact htick
  | waits => exact hwait

/-- A reset leaves the owner with at most one more chunk: after the connection has been reset, the first
thing that is ever done to the end of the owner is a single write of at most `65536` bytes, and the second
is the shutdown.  More bytes that wait in the inbound stream can only be written to an end that is shut
down. -/
theorem reset_cuts_inbound_short [LawfulFdAdapter Adapter] (setup : Setup Adapter)
    (session : Session Adapter Incoming Outgoing) (h : Opened setup session)
    (iterations more : List (Iteration Incoming)) :
    let socket := (run Session.step session iterations).socket
    let after := (run Session.step session (iterations ++ more)).socket
    socket.tcp.isUnclearShutdown = true →
      after.ownerCalls = socket.ownerCalls ∨ ∃ data later, data.length ≤ 65536 ∧
        after.ownerCalls = socket.ownerCalls ++ .write data :: .finish :: later := by
  intro socket after hreset
  have hsound := sound_run h iterations
  have herror : socket.tcp.inboundStream.error = true :=
    hsound.socket.operational.regular.marked.2.trans hreset
  have hrun : after = (run Session.step (run Session.step session iterations) more).socket :=
    congrArg Session.socket (run_append more)
  have hafter : (∃ packets, (run Session.step (run Session.step session iterations) more).Sound
      setup.datagramFd setup.threadFd (setup.station session) packets) ∧
        CutShort socket.ownerCalls (run Session.step (run Session.step session iterations) more).socket := by
    apply run_invariant (fun later : Session Adapter Incoming Outgoing ↦
      (∃ packets, later.Sound setup.datagramFd setup.threadFd (setup.station session) packets) ∧
        CutShort socket.ownerCalls later.socket) ?_ ⟨⟨_, hsound⟩, herror, .inl rfl⟩
    rintro later iteration ⟨⟨packets, hlater⟩, hshort⟩
    exact ⟨⟨_, hlater.step iteration⟩, cutShort_step hlater iteration hshort⟩
  rw [hrun]
  exact hafter.2.2

theorem reset_cuts_inbound_short_refused :
    let socket := (run Session.step client (refused.take 2)).socket
    let after := (run Session.step client (refused.take 2 ++ refused.drop 2)).socket
    socket.tcp.isUnclearShutdown = true ∧ socket.ownerCalls = [] ∧
      after.ownerCalls = [.write [], .finish] ∧
      (after.ownerCalls = socket.ownerCalls ∨ ∃ data later, data.length ≤ 65536 ∧
        after.ownerCalls = socket.ownerCalls ++ .write data :: .finish :: later) := by
  intro socket after
  have hreset : socket.tcp.isUnclearShutdown = true := by decide +kernel
  exact ⟨hreset, by decide +kernel, by decide +kernel,
    reset_cuts_inbound_short clientSetup client opened_client _ _ hreset⟩

/-- The thread has returned because `wait_next_event` has returned `Exit`, and in this iteration it has got
no signal.  Then, unless a descriptor has hung up, the connection is over, all its segments have been handed
to the adapter, in their order and each of them once, all bytes of the inbound stream have been written to
the owner, and the end of the owner has been shut down. -/
theorem returns_when_settled [LawfulFdAdapter Adapter] (setup : Setup Adapter)
    (session : Session Adapter Incoming Outgoing) (h : Opened setup session)
    (iterations : List (Iteration Incoming)) (last : Iteration Incoming)
    (hrunning : (run Session.step session iterations).phase = .main)
    (hexit : (run Session.step session (iterations ++ [last])).phase = .ended (.returned .exit))
    (hsignal : ¬ last.turn.Interrupted)
    (hrules : ∀ id ∈ [1, 3, 4], id ∈ ids (run Session.step session (iterations ++ [last])).handlers) :
    let socket := (run Session.step session (iterations ++ [last])).socket
    socket.tcp.active = false ∧
      (socket.datagrams.length = socket.tcp.segmentsOut.length ∧
        ∃ accesses, session.Accesses (iterations ++ [last]) accesses ∧
          accesses.filterMap Access.sent =
            (socket.tcp.segmentsOut.map Emission.segment).zip socket.datagrams) ∧
      socket.endpoint.inbound = written socket.ownerCalls ∧ .finish ∈ socket.ownerCalls := by
  intro socket
  have hsound := (sound_run h (iterations ++ [last])).socket
  have hrest : (run Session.step session (iterations ++ [last])).AtRest := by
    have hbefore : (run Session.step session iterations).AtRest := by
      intro hover
      rw [hrunning] at hover
      nomatch hover
    rw [run_append]
    exact (sound_run h iterations).atRest_step last hbefore fun hstopped ↦ hsignal hstopped.2
  have hidle (id : ℕ) (hid : id ∈ [1, 3, 4]) : Idle id socket := hrest.idle hexit (hrules id hid)
  have hover : socket.tcp.active = false := hidle 1 (by decide)
  have hinbound : Idle 3 socket := hidle 3 (by decide)
  have hqueue : socket.segmentsOut = [] := hidle 4 (by decide)
  have hall : socket.tcp.segmentsOut.length ≤ socket.popped := List.drop_eq_nil_iff.mp hqueue
  have hshutdown : socket.inboundShutdown = true := hinbound.2 (hsound.operational.inbound_over hover)
  obtain ⟨accesses, haccesses, hserves⟩ := h.serves (iterations ++ [last])
  have hrecords := hserves.records rfl rfl
  refine ⟨hover, ⟨hrecords.length.trans (le_antisymm hrecords.popped_le hall), accesses, haccesses, ?_⟩,
    hinbound.inbound_eq, hsound.shutdown_iff.mp hshutdown⟩
  have htaken : socket.tcp.segmentsOut.take socket.popped = socket.tcp.segmentsOut :=
    List.take_of_length_le hall
  have hsent : accesses.filterMap Access.sent =
      ((socket.tcp.segmentsOut.take socket.popped).map Emission.segment).zip socket.datagrams :=
    hrecords.sent
  rwa [htaken] at hsent

theorem returns_when_settled_refused :
    let session := run Session.step client (refused.take 4 ++ [polled [] nothing [] 5])
    session.phase = .ended (.returned .exit) ∧ session.socket.tcp.active = false ∧
      session.socket.datagrams.length = session.socket.tcp.segmentsOut.length ∧
      .finish ∈ session.socket.ownerCalls := by
  intro session
  have hrunning : (run Session.step client (refused.take 4)).phase = .main := by decide +kernel
  have hexit : session.phase = .ended (.returned .exit) := by decide +kernel
  have hrules : ∀ id ∈ [1, 3, 4], id ∈ ids session.handlers := by decide +kernel
  have hsignal : ¬ (polled [] nothing [] 5).turn.Interrupted := by decide +kernel
  obtain ⟨hover, ⟨hsent, -⟩, -, hfinish⟩ := returns_when_settled clientSetup client opened_client
    (refused.take 4) (polled [] nothing [] 5) hrunning hexit hsignal hrules
  exact ⟨hexit, hover, hsent, hfinish⟩

end Sponge.TCPSpongeSocket
