import Sponge.Socket.Station
import Sponge.Socket.TCPSpongeSocket

/-!
# The rules of a socket

`Sound` is what the four rules of a socket keep, whatever the kernel answers and in whatever order they are
called.  Its core is `Served`: all that the rules do to the connection, to the bytes of the owner, to the
bytes for the owner and to the adapter is a history of a `Station`.  In a call of the event loop the adapter
is read at most once, since no rule comes before the one that reads it.
-/

namespace Sponge

open EventLoop FdAdapter Relay TCPConnection

namespace TCPSpongeSocket

variable {Adapter Incoming Outgoing : Type} [FdAdapter Adapter Incoming Outgoing]

def station (socket : TCPSpongeSocket Adapter Outgoing) : Station Adapter Outgoing where
  endpoint := socket.endpoint
  adapter := socket.datagramAdapter
  popped := socket.popped
  datagrams := socket.datagrams

/-- There is a history from the start to the socket, in which some of the packets were read, in this
order. -/
def Served (start : Station Adapter Outgoing) (packets : List Incoming)
    (socket : TCPSpongeSocket Adapter Outgoing) : Prop :=
  ∃ accesses : List (Access Incoming Outgoing), start.Serves accesses socket.station ∧
    (accesses.filterMap Access.packet).Sublist packets

/-- The end of the owner has been shut down, once and last of all, after the inbound stream had come to its
end. -/
structure Finished (socket : TCPSpongeSocket Adapter Outgoing) : Prop where
  ended : socket.tcp.inboundStream.ended = true
  empty : socket.tcp.inboundStream.contents = []
  last : ∃ before, socket.ownerCalls = before ++ [.finish] ∧ .finish ∉ before

/-- What the rules that are left keep.  `start` is where the socket was at the beginning. -/
structure Sound (datagramFd threadFd : ℤ) (start : Station Adapter Outgoing) (packets : List Incoming)
    (handlers : List (Handler (TCPSpongeSocket Adapter Outgoing) (Answers Incoming)))
    (socket : TCPSpongeSocket Adapter Outgoing) : Prop where
  sublist : handlers.Sublist (rules datagramFd threadFd)
  served : Served start packets socket
  operational : socket.tcp.Operational
  popped : socket.popped ≤ socket.tcp.segmentsOut.length
  ended : socket.tcp.sender.stream.ended = true → socket.threadData.eof = true ∨ 2 ∉ ids handlers
  shutdown_iff : socket.inboundShutdown = true ↔ .finish ∈ socket.ownerCalls
  finished : socket.inboundShutdown = true → socket.tcp.inboundStream.error = true ∨ socket.Finished

def Fails (exception : SystemException) : Prop :=
  ∃ attempt errno, exception = .unixError attempt errno

/-- What the interest of a rule tells when the poll is set up.  The packet of this call has not been read
before rule 1. -/
def Wants (start : Station Adapter Outgoing) (packets : List Incoming) (id : ℕ)
    (socket : TCPSpongeSocket Adapter Outgoing) : Prop :=
  match id with
  | 1 => Served start packets socket
  | 2 => socket.threadData.eof = false
  | 3 => socket.inboundShutdown = false ∨ socket.tcp.inboundStream.contents ≠ []
  | _ => True

def Idle (id : ℕ) (socket : TCPSpongeSocket Adapter Outgoing) : Prop :=
  match id with
  | 1 => socket.tcp.active = false
  | 3 => socket.tcp.inboundStream.contents = [] ∧
      (socket.tcp.inboundStream.ended = true ∨ socket.tcp.inboundStream.error = true →
        socket.inboundShutdown = true)
  | 4 => socket.segmentsOut = []
  | _ => True

variable {datagramFd threadFd : ℤ} {start : Station Adapter Outgoing} {packets : List Incoming}
  {handlers kept rest : List (Handler (TCPSpongeSocket Adapter Outgoing) (Answers Incoming))}
  {handler : Handler (TCPSpongeSocket Adapter Outgoing) (Answers Incoming)}
  {socket after : TCPSpongeSocket Adapter Outgoing} {answers : Answers Incoming} {id : ℕ}
  {all : List Incoming}
  {call : TCPConnection.Call}

theorem ordered_rules (datagramFd threadFd : ℤ) :
    Ordered (@rules Adapter Incoming Outgoing _ datagramFd threadFd) := by
  simp [Ordered, rules, datagramInRule, ownerInRule, ownerOutRule, datagramOutRule]

theorem mem_rules (h : handler ∈ rules datagramFd threadFd) :
    handler = datagramInRule datagramFd ∨ handler = ownerInRule threadFd ∨
      handler = ownerOutRule threadFd ∨ handler = datagramOutRule datagramFd := by
  simpa [rules] using h

/-! ## Calls that the rules make -/

/-- Make a call of the connection on behalf of the owner or the network. -/
def apply (socket : TCPSpongeSocket Adapter Outgoing) (call : TCPConnection.Call) :
    TCPSpongeSocket Adapter Outgoing :=
  { socket with
    tcp := socket.tcp.step call
    fromOwner := socket.fromOwner ++ socket.tcp.acceptedBy call }

theorem apply_segmentReceived (socket : TCPSpongeSocket Adapter Outgoing) (segment : TCPSegment) :
    socket.apply (.segmentReceived segment) = { socket with tcp := socket.tcp.segmentReceived segment } := by
  unfold apply acceptedBy
  rw [List.append_nil]
  rfl

theorem apply_tick (socket : TCPSpongeSocket Adapter Outgoing) (ms : ℕ) :
    socket.apply (.tick ms) = { socket with tcp := socket.tcp.tick ms } := by
  unfold apply acceptedBy
  rw [List.append_nil]
  rfl

theorem apply_connect (socket : TCPSpongeSocket Adapter Outgoing) :
    socket.apply .connect = { socket with tcp := socket.tcp.connect } := by
  unfold apply acceptedBy
  rw [List.append_nil]
  rfl

theorem apply_endInputStream (socket : TCPSpongeSocket Adapter Outgoing) :
    { socket.apply .endInputStream with outboundShutdown := true } = socket.endOutbound := by
  unfold apply acceptedBy
  rw [List.append_nil]
  rfl

theorem readBy_eq_nil {connection : TCPConnection} (hcall : ∀ len, call ≠ .readInbound len) :
    connection.readBy call = [] := by
  cases call with
  | readInbound len => exact absurd rfl (hcall len)
  | connect | write | endInputStream | segmentReceived | tick => rfl

/-- A call that reads nothing does to the endpoint what it does to the connection. -/
theorem endpoint_apply (hcall : ∀ len, call ≠ .readInbound len) :
    (socket.apply call).endpoint = socket.endpoint.step call := by
  unfold endpoint Endpoint.step
  dsimp only
  rw [readBy_eq_nil hcall, List.append_nil]
  rfl

/-- The state of the descriptor and of the flag may change, as long as the end of the input stays. -/
theorem Sound.frame (h : Sound datagramFd threadFd start packets handlers socket)
    {threadData : FDWrapper} (outboundShutdown : Bool)
    (heof : socket.threadData.eof = true → threadData.eof = true) :
    Sound datagramFd threadFd start packets handlers { socket with threadData, outboundShutdown } :=
  ⟨h.sublist, h.served, h.operational, h.popped, fun hended ↦ (h.ended hended).imp_left heof,
    h.shutdown_iff, fun hshutdown ↦ (h.finished hshutdown).imp_right fun hfinished ↦
      ⟨hfinished.ended, hfinished.empty, hfinished.last⟩⟩

theorem Sound.receiver (h : Sound datagramFd threadFd start packets handlers socket) :
    socket.tcp.receiver.Sound := h.operational.regular.sound

theorem Sound.valid_inbound (h : Sound datagramFd threadFd start packets handlers socket) :
    socket.tcp.inboundStream.Valid := h.receiver.consistent.assembling.valid

theorem Served.mono {more : List Incoming} (h : Served start packets socket) (hsub : packets.Sublist more) :
    Served start more socket := by
  obtain ⟨accesses, hserves, hpackets⟩ := h
  exact ⟨accesses, hserves, hpackets.trans hsub⟩

/-- A call for the owner or the clock. -/
theorem Served.apply (h : Served start packets socket) (hcall : ∀ len, call ≠ .readInbound len)
    (hwrites : socket.tcp.WritesBeforeEnd call) (hown : call.segment = none) :
    Served start packets (socket.apply call) := by
  obtain ⟨accesses, hserves, hpackets⟩ := h
  have hstation : (socket.apply call).station =
      { socket.station with endpoint := socket.station.endpoint.step call } :=
    congrArg (Station.mk · socket.datagramAdapter socket.popped socket.datagrams) (endpoint_apply hcall)
  refine ⟨accesses, ?_, hpackets⟩
  rw [hstation]
  exact hserves.call hwrites hown

/-- The connection after a segment has come in, if one has. -/
def accept (socket : TCPSpongeSocket Adapter Outgoing) (seg : Option TCPSegment) :
    TCPSpongeSocket Adapter Outgoing :=
  match seg with
  | some segment => socket.apply (.segmentReceived segment)
  | none => socket

theorem station_accept (seg : Option TCPSegment) (datagramAdapter : Adapter) :
    station { socket.accept seg with datagramAdapter } =
      { socket.station with endpoint := socket.station.receive seg, adapter := datagramAdapter } := by
  cases seg with
  | none => rfl
  | some segment =>
    have hendpoint : (socket.apply (.segmentReceived segment)).endpoint =
        socket.endpoint.step (.segmentReceived segment) := endpoint_apply nofun
    exact congrArg (Station.mk · datagramAdapter socket.popped socket.datagrams) hendpoint

/-- Reading a packet and handing its segment over continues the history. -/
theorem Served.accept (h : Served start packets socket) {incoming : Incoming} {seg : Option TCPSegment}
    {datagramAdapter : Adapter}
    (hread : FdAdapter.read incoming socket.datagramAdapter = .ok (seg, datagramAdapter)) :
    Served start (packets ++ [incoming]) { socket.accept seg with datagramAdapter } := by
  obtain ⟨accesses, hserves, hpackets⟩ := h
  refine ⟨accesses ++ [.read incoming seg], ?_, ?_⟩
  · rw [station_accept]
    exact hserves.read hread
  · rw [List.filterMap_append]
    exact hpackets.append (.refl _)

theorem Sound.popped_step (h : Sound datagramFd threadFd start packets handlers socket)
    (call : TCPConnection.Call) : socket.popped ≤ (socket.tcp.step call).segmentsOut.length :=
  h.popped.trans (segmentsOut_prefix_step socket.tcp call).length_le

/-- A call of the connection, and perhaps a change of the adapter. -/
theorem Sound.step (h : Sound datagramFd threadFd start packets handlers socket) {datagramAdapter : Adapter}
    (hwrites : socket.tcp.WritesBeforeEnd call)
    (hserved : Served start packets { socket.apply call with datagramAdapter })
    (hends : call = .endInputStream → socket.threadData.eof = true ∨ 2 ∉ ids handlers) :
    Sound datagramFd threadFd start packets handlers { socket.apply call with datagramAdapter } := by
  obtain ⟨-, hadvances⟩ := receiver_advances h.receiver call
  refine ⟨h.sublist, hserved, h.operational.step hwrites, h.popped_step call, fun hended ↦ ?_,
    h.shutdown_iff, fun hshutdown ↦ ?_⟩
  · have haccess : (socket.tcp.access call).sender.stream.ended = true :=
      (stream_step h.operational.sendable.valid call).1.symm.trans hended
    cases call with
    | endInputStream => exact hends rfl
    | connect | write | segmentReceived | tick | readInbound => exact h.ended haccess
  · cases h.finished hshutdown with
    | inl herror => exact .inl (hadvances.error herror)
    | inr hfinished =>
      obtain ⟨hended, hempty⟩ := inbound_stays_empty h.receiver hfinished.ended hfinished.empty call
      exact .inr ⟨hended, hempty, hfinished.last⟩

theorem Sound.apply (h : Sound datagramFd threadFd start packets handlers socket)
    (hcall : ∀ len, call ≠ .readInbound len) (hwrites : socket.tcp.WritesBeforeEnd call)
    (hown : call.segment = none)
    (hends : call = .endInputStream → socket.threadData.eof = true ∨ 2 ∉ ids handlers) :
    Sound datagramFd threadFd start packets handlers (socket.apply call) :=
  h.step hwrites (h.served.apply hcall hwrites hown) hends

/-- A call does not take the wish of rule 3 away. -/
theorem wants_apply (hsound : socket.tcp.receiver.Sound) (hcall : ∀ len, call ≠ .readInbound len)
    (hfirst : id = 1 → Served start packets (socket.apply call)) (h : Wants start packets id socket) :
    Wants start packets id (socket.apply call) := by
  unfold Wants at h ⊢
  split
  · exact hfirst rfl
  · exact h
  · refine h.imp_right fun hsome ↦ ?_
    have hlength : socket.tcp.inboundStream.contents.length ≤
        (socket.apply call).tcp.inboundStream.contents.length := length_inbound_step hsound hcall
    have hpos := List.length_pos_iff.mpr hsome
    exact List.length_pos_iff.mp (by omega)
  · trivial

theorem wants_frame (outboundShutdown : Bool) (h : Wants start packets id socket) :
    Wants start packets id { socket with outboundShutdown } := by
  unfold Wants at h ⊢
  exact h

/-! ## Cancellation and interest -/

theorem Sound.sublist_of_mem (h : Sound datagramFd threadFd start packets handlers socket)
    (hmem : handler ∈ handlers) : handler ∈ rules datagramFd threadFd := h.sublist.subset hmem

/-- The end of the input, when rule 2 is cancelled. -/
theorem Sound.endOutbound (h : Sound datagramFd threadFd start packets handlers socket)
    (hends : socket.threadData.eof = true ∨ 2 ∉ ids handlers) :
    Sound datagramFd threadFd start packets handlers socket.endOutbound := by
  have happly : Sound datagramFd threadFd start packets handlers (socket.apply .endInputStream) :=
    h.apply nofun trivial rfl fun _ ↦ hends
  rw [← apply_endInputStream]
  exact happly.frame true fun heof ↦ heof

/-- A rule may be removed. -/
theorem Sound.remove (h : Sound datagramFd threadFd start packets (kept ++ handler :: rest) socket) :
    Sound datagramFd threadFd start packets (kept ++ rest) socket := by
  have hsub : (kept ++ rest).Sublist (kept ++ handler :: rest) :=
    (List.sublist_cons_self _ _).append_left _
  refine ⟨hsub.trans h.sublist, h.served, h.operational, h.popped,
    fun hended ↦ (h.ended hended).imp_right fun hgone hleft ↦ hgone ?_, h.shutdown_iff, h.finished⟩
  exact (hsub.map _).subset hleft

/-- Cancelling a rule keeps what holds for the others. -/
theorem Sound.cancel (h : Sound datagramFd threadFd start packets (kept ++ handler :: rest) socket) :
    Sound datagramFd threadFd start packets (kept ++ rest) (handler.cancel socket) := by
  have hmem : handler ∈ rules datagramFd threadFd := h.sublist_of_mem (by simp)
  have hordered : Ordered (kept ++ handler :: rest) :=
    (ordered_rules datagramFd threadFd).sublist h.sublist
  rcases mem_rules hmem with rfl | rfl | rfl | rfl
  · exact h.remove
  · refine h.remove.endOutbound (.inr fun hleft ↦ ?_)
    rw [ids, List.map_append, List.mem_append, List.mem_map, List.mem_map] at hleft
    rcases hleft with ⟨other, hother, heq⟩ | ⟨other, hother, heq⟩
    · exact absurd heq (Nat.ne_of_lt (hordered.lt_of_mem_kept other hother))
    · exact absurd heq (Nat.ne_of_gt (hordered.lt_of_mem_rest other hother))
  · exact h.remove
  · exact h.remove

/-- What a rule that is interested can rely on. -/
theorem Sound.wants (h : Sound datagramFd threadFd start all handlers socket)
    (hcalm : Served start packets socket) (hmem : handler ∈ handlers) (hsurvives : handler.Survives socket)
    (hinterest : handler.interest socket = true) : Wants start packets handler.id socket := by
  rcases mem_rules (h.sublist_of_mem hmem) with rfl | rfl | rfl | rfl
  · exact hcalm
  · exact Bool.eq_false_iff.mpr fun heof ↦ hsurvives.1 ⟨rfl, heof⟩
  · change (!_ || _ && !_) = true at hinterest
    rw [Bool.or_eq_true_iff, Bool.and_eq_true_iff, Bool.not_eq_true', Bool.not_eq_true'] at hinterest
    refine hinterest.symm.imp And.right fun hbuffer hempty ↦ ?_
    rw [h.valid_inbound.bufferEmpty_iff.mpr hempty] at hbuffer
    contradiction
  · trivial

theorem Sound.idle (h : Sound datagramFd threadFd start packets handlers socket)
    (hmem : handler ∈ handlers) (hinterest : handler.interest socket = false) :
    Idle handler.id socket := by
  rcases mem_rules (h.sublist_of_mem hmem) with rfl | rfl | rfl | rfl
  · exact hinterest
  · trivial
  · change (!_ || _ && !_) = false at hinterest
    rw [Bool.or_eq_false_iff, Bool.not_eq_false', Bool.and_eq_false_iff, Bool.not_eq_false'] at hinterest
    have hempty := h.valid_inbound.bufferEmpty_iff.mp hinterest.1
    refine ⟨hempty, fun hover ↦ hinterest.2.resolve_left ?_⟩
    rw [Bool.not_eq_false, Bool.or_eq_true_iff, h.valid_inbound.eof_iff]
    exact hover.imp_left fun hended ↦ ⟨hended, hempty⟩
  · change (!_) = false at hinterest
    rwa [Bool.not_eq_false', List.isEmpty_iff] at hinterest

/-- The cancellation of rule 2 is a call, and the other ones do nothing. -/
theorem Sound.served_cancel (h : Sound datagramFd threadFd start all handlers socket)
    (hmem : handler ∈ handlers) (hserved : Served start packets socket) :
    Served start packets (handler.cancel socket) := by
  rcases mem_rules (h.sublist_of_mem hmem) with rfl | rfl | rfl | rfl
  · exact hserved
  · change Served start packets socket.endOutbound
    rw [← apply_endInputStream]
    have happly : Served start packets (socket.apply .endInputStream) := hserved.apply nofun trivial rfl
    exact happly
  · exact hserved
  · exact hserved

theorem Sound.wants_cancel (h : Sound datagramFd threadFd start all handlers socket)
    (hmem : handler ∈ handlers) (hwants : Wants start packets id socket) :
    Wants start packets id (handler.cancel socket) := by
  rcases mem_rules (h.sublist_of_mem hmem) with rfl | rfl | rfl | rfl
  · exact hwants
  · change Wants start packets id socket.endOutbound
    rw [← apply_endInputStream]
    refine wants_frame true (wants_apply h.receiver nofun (fun hid ↦ ?_) hwants)
    subst hid
    have hserved : Served start packets socket := hwants
    exact hserved.apply nofun trivial rfl
  · exact hwants
  · exact hwants

theorem Sound.idle_cancel (h : Sound datagramFd threadFd start packets handlers socket)
    (hmem : handler ∈ handlers) (hid : id < handler.id) (hidle : Idle id socket) :
    Idle id (handler.cancel socket) := by
  rcases mem_rules (h.sublist_of_mem hmem) with rfl | rfl | rfl | rfl
  · exact hidle
  · match id, hid with
    | 0, _ => trivial
    | 1, _ => exact active_step hidle .endInputStream
  · exact hidle
  · exact hidle

/-! ## The callbacks -/

/-- What is done to the end of the owner after an error: nothing, or a write and a shutdown. -/
def WritesAndFinishes (socket after : TCPSpongeSocket Adapter Outgoing) : Prop :=
  socket.tcp.inboundStream.error = true → after.tcp.inboundStream.error = true ∧
    (after.ownerCalls = socket.ownerCalls ∨ ∃ data, data.length ≤ maxCopyLength ∧
      after.ownerCalls = socket.ownerCalls ++ [.write data, .finish])

theorem writesAndFinishes_apply (hsound : socket.tcp.receiver.Sound) (call : TCPConnection.Call) :
    WritesAndFinishes socket (socket.apply call) :=
  fun herror ↦ ⟨(receiver_advances hsound call).2.error herror, .inl rfl⟩

theorem WritesAndFinishes.frame (h : WritesAndFinishes socket after) (threadData : FDWrapper) :
    WritesAndFinishes socket { after with threadData } := h

theorem WritesAndFinishes.endOutbound (h : WritesAndFinishes socket after)
    (hsound : after.tcp.receiver.Sound) : WritesAndFinishes socket after.endOutbound := by
  intro herror
  obtain ⟨hafter, hcalls⟩ := h herror
  exact ⟨(receiver_advances hsound .endInputStream).2.error hafter, hcalls⟩

/-- What a callback that does not throw has done. -/
structure Called (datagramFd threadFd : ℤ) (start : Station Adapter Outgoing) (packets : List Incoming)
    (incoming : Incoming) (handlers : List (Handler (TCPSpongeSocket Adapter Outgoing) (Answers Incoming)))
    (handler : Handler (TCPSpongeSocket Adapter Outgoing) (Answers Incoming))
    (socket after : TCPSpongeSocket Adapter Outgoing) : Prop where
  sound : Sound datagramFd threadFd start (packets ++ [incoming]) handlers after
  wants : ∀ id > handler.id, Wants start packets id socket → Wants start packets id after
  used : handler.serviceCount socket ≠ handler.serviceCount after ∨ handler.interest after = false
  owner : WritesAndFinishes socket after

/-- What a callback can do. -/
def Callback (datagramFd threadFd : ℤ) (start : Station Adapter Outgoing) (packets : List Incoming)
    (handlers : List (Handler (TCPSpongeSocket Adapter Outgoing) (Answers Incoming)))
    (handler : Handler (TCPSpongeSocket Adapter Outgoing) (Answers Incoming)) (answers : Answers Incoming)
    (socket : TCPSpongeSocket Adapter Outgoing) : Prop :=
  (∃ exception, handler.callback answers socket = .error exception ∧ Fails exception) ∨
    ∃ after, handler.callback answers socket = .ok after ∧
      Called datagramFd threadFd start packets answers.incoming handlers handler socket after

theorem wants_setAdapter (datagramAdapter : Adapter) (hid : id > 1) (h : Wants start packets id socket) :
    Wants start packets id { socket with datagramAdapter } := by
  unfold Wants at h ⊢
  split
  · exact absurd hid (Nat.lt_irrefl _)
  · exact h
  · exact h
  · trivial

/-- What fits into the outbound stream is written as a whole. -/
theorem write_of_fits {connection : TCPConnection} {data : List UInt8}
    (hvalid : connection.sender.stream.Valid)
    (hfits : data.length ≤ connection.remainingOutboundCapacity) :
    (connection.write data).2 = data.length ∧ connection.acceptedBy (.write data) = data := by
  have hroom : connection.sender.stream.contents.length + data.length ≤
      connection.sender.stream.capacity := by
    have hle := hvalid.length_le
    rw [remainingOutboundCapacity, hvalid.remainingCapacity_eq] at hfits
    omega
  have hwhole : (connection.write data).2 = data.length := (ByteStream.write_of_fits hvalid hroom).1
  exact ⟨hwhole, by rw [acceptedBy, hwhole, List.take_length]⟩

theorem setInboundStream_popOutput {connection : TCPConnection} (len : ℕ)
    (hvalid : connection.inboundStream.Valid) :
    connection.setInboundStream (connection.inboundStream.popOutput len) =
        connection.step (.readInbound len) ∧
      connection.readBy (.readInbound len) = connection.inboundStream.contents.take len := by
  refine ⟨?_, ByteStream.read_fst hvalid len⟩
  rw [← ByteStream.read_snd hvalid]
  rfl

/-- The end of the owner is shut down at most once, unless the connection was reset. -/
theorem Sound.unfinished_of_wants (h : Sound datagramFd threadFd start packets handlers socket)
    (hwants : socket.inboundShutdown = false ∨ socket.tcp.inboundStream.contents ≠ [])
    (herror : socket.tcp.inboundStream.error = false) :
    socket.inboundShutdown = false ∧ .finish ∉ socket.ownerCalls := by
  have hopen : socket.inboundShutdown = false := by
    rw [Bool.eq_false_iff]
    intro hshutdown
    have hfinished := (h.finished hshutdown).resolve_left (Bool.eq_false_iff.mp herror)
    cases hwants with
    | inl hnot => exact absurd (hnot.symm.trans hshutdown) Bool.false_ne_true
    | inr hsome => exact hsome hfinished.empty
  exact ⟨hopen, fun hfinish ↦ Bool.eq_false_iff.mp hopen (h.shutdown_iff.mpr hfinish)⟩

/-- The connection and the records after bytes were written to the owner. -/
theorem Sound.delivered (h : Sound datagramFd threadFd start packets handlers socket)
    {data : List UInt8} {threadData : FDWrapper} {inbound : ByteStream} {ownerCalls : List SinkCall}
    {inboundShutdown : Bool}
    (hwrite : WrittenFrom socket.threadData socket.tcp.inboundStream data threadData inbound)
    (heof : socket.threadData.eof = true → after.threadData.eof = true)
    (hafter : after = { socket with
      tcp := socket.tcp.setInboundStream inbound
      threadData := after.threadData
      ownerCalls, inboundShutdown })
    (hcalls : written ownerCalls = written socket.ownerCalls ++ data)
    (hrecord : inboundShutdown = true ↔ .finish ∈ ownerCalls)
    (hfinished : inboundShutdown = true → inbound.error = true ∨ inbound.ended = true ∧
      inbound.contents = [] ∧ ∃ before, ownerCalls = before ++ [.finish] ∧ .finish ∉ before) :
    Sound datagramFd threadFd start packets handlers after := by
  have hvalid := h.valid_inbound
  obtain ⟨hstep, hread⟩ := setInboundStream_popOutput data.length hvalid
  rw [← hwrite.rest_eq] at hstep
  have hbytes : socket.tcp.readBy (.readInbound data.length) = data := by
    rw [hread, hwrite.contents, List.take_left]
  have hendpoint : after.endpoint = socket.endpoint.step (.readInbound data.length) := by
    unfold endpoint Endpoint.step
    dsimp only
    rw [hafter, hbytes, ← hstep]
    dsimp only
    rw [hcalls]
    exact congrArg (Endpoint.mk _ · _) (List.append_nil _).symm
  have htcp : after.tcp = socket.tcp.step (.readInbound data.length) := by
    rw [hafter, ← hstep]
  have hqueue : after.tcp.segmentsOut = socket.tcp.segmentsOut := by
    rw [hafter]
    rfl
  have hinbound : after.tcp.inboundStream = inbound := by
    rw [hafter]
    rfl
  refine ⟨h.sublist, ?_, ?_, ?_, ?_, ?_, ?_⟩
  · obtain ⟨accesses, hserves, hpackets⟩ := h.served
    have hstation : after.station = { socket.station with
        endpoint := socket.station.endpoint.step (.readInbound data.length) } := by
      unfold station
      rw [hendpoint, hafter]
    refine ⟨accesses, ?_, hpackets⟩
    rw [hstation]
    exact hserves.call trivial rfl
  · rw [htcp]
    exact h.operational.step trivial
  · rw [hqueue, hafter]
    exact h.popped
  · intro hended
    have hbefore : socket.tcp.sender.stream.ended = true := by
      rw [hafter] at hended
      exact hended
    exact (h.ended hbefore).imp_left heof
  · rw [hafter]
    exact hrecord
  · intro hshutdown
    have hflag : inboundShutdown = true := by
      rw [hafter] at hshutdown
      exact hshutdown
    have hcallsAfter : after.ownerCalls = ownerCalls := by rw [hafter]
    rw [hinbound]
    refine (hfinished hflag).imp_right fun hover ↦ ⟨?_, ?_, ?_⟩
    · rw [hinbound]
      exact hover.1
    · rw [hinbound]
      exact hover.2.1
    · rw [hcallsAfter]
      exact hover.2.2

theorem writeSegments_cons {sends : ℕ → Option Errno} {emission : Emission} {rest : List Emission}
    {adapter : Adapter} {result : List (Option Outgoing) × Adapter}
    (h : writeSegments sends (emission :: rest) adapter = .ok result) :
    ∃ datagram middle datagrams,
      FdAdapter.write (sends 0) emission.segment adapter = .ok (datagram, middle) ∧
      writeSegments (fun idx ↦ sends (idx + 1)) rest middle = .ok (datagrams, result.2) ∧
      result.1 = datagram :: datagrams := by
  unfold writeSegments at h
  cases hwrite : FdAdapter.write (sends 0) emission.segment adapter with
  | error exception =>
    rw [hwrite] at h
    contradiction
  | ok first =>
    obtain ⟨datagram, middle⟩ := first
    rw [hwrite] at h
    dsimp only [bind, Except.bind] at h
    cases hrest : writeSegments (fun idx ↦ sends (idx + 1)) rest middle with
    | error exception =>
      rw [hrest] at h
      contradiction
    | ok later =>
      rw [hrest] at h
      obtain rfl := Except.ok.inj h
      exact ⟨datagram, middle, later.1, rfl, hrest, rfl⟩

/-- Writing segments that can be sent fails with the error of a system call only. -/
theorem writeSegments_error [LawfulFdAdapter Adapter] {sends : ℕ → Option Errno}
    {emissions : List Emission} (hsendable : ∀ emission ∈ emissions, emission.segment.Sendable)
    {adapter : Adapter} {exception : SystemException}
    (h : writeSegments sends emissions adapter = .error exception) : Fails exception := by
  induction emissions generalizing sends adapter with
  | nil => contradiction
  | cons emission rest ih =>
    rw [List.forall_mem_cons] at hsendable
    unfold writeSegments at h
    cases hwrite : FdAdapter.write (sends 0) emission.segment adapter with
    | error thrown =>
      rw [hwrite] at h
      rw [← Except.error.inj h]
      exact LawfulFdAdapter.write_error hsendable.1 hwrite
    | ok first =>
      rw [hwrite] at h
      dsimp only [bind, Except.bind] at h
      cases hrest : writeSegments (fun idx ↦ sends (idx + 1)) rest first.2 with
      | error thrown =>
        rw [hrest] at h
        obtain rfl := Except.error.inj h
        exact ih hsendable.2 hrest
      | ok later =>
        rw [hrest] at h
        contradiction

/-- The loop of rule 4 gives the segments of the queue to the adapter, one after the other. -/
theorem writeSegments_serves {sends : ℕ → Option Errno} {emissions : List Emission}
    {datagrams : List (Option Outgoing)} {adapter : Adapter} {station : Station Adapter Outgoing}
    {accesses : List (Access Incoming Outgoing)} (hserves : start.Serves accesses station)
    (hqueue : station.endpoint.connection.segmentsOut.drop station.popped = emissions)
    (h : writeSegments sends emissions station.adapter = .ok (datagrams, adapter)) :
    ∃ more : List (Access Incoming Outgoing), more.filterMap Access.packet = [] ∧
      start.Serves (accesses ++ more)
        { station with
          adapter
          popped := station.popped + emissions.length
          datagrams := station.datagrams ++ datagrams } := by
  induction emissions generalizing sends datagrams station accesses with
  | nil =>
    obtain ⟨rfl, rfl⟩ := Prod.mk.inj (Except.ok.inj h)
    refine ⟨[], rfl, ?_⟩
    rw [List.append_nil, List.append_nil]
    exact hserves
  | cons emission rest ih =>
    obtain ⟨datagram, middle, later, hwrite, hrest, hdatagrams⟩ := writeSegments_cons h
    have hnext : station.endpoint.connection.segmentsOut[station.popped]? = some emission := by
      rw [← List.head?_drop, hqueue, List.head?_cons]
    have hdrop : station.endpoint.connection.segmentsOut.drop (station.popped + 1) = rest := by
      rw [← List.drop_drop, hqueue, List.drop_one, List.tail_cons]
    have hfirst := hserves.write hnext hwrite
    obtain ⟨more, hpackets, hall⟩ := ih hfirst hdrop hrest
    refine ⟨.write (sends 0) emission.segment datagram :: more, hpackets, ?_⟩
    have hdatagrams : datagrams = datagram :: later := hdatagrams
    rw [hdatagrams, List.append_cons accesses, List.append_cons station.datagrams, List.length_cons,
      Nat.add_comm rest.length, ← Nat.add_assoc]
    exact hall

/-- Taking the whole queue out continues the history by one access for each segment. -/
theorem Served.writeSegments (h : Served start packets socket)
    (hpopped : socket.popped ≤ socket.tcp.segmentsOut.length) {sends : ℕ → Option Errno}
    {datagrams : List (Option Outgoing)} {datagramAdapter : Adapter}
    (hwrite : TCPSpongeSocket.writeSegments sends socket.segmentsOut socket.datagramAdapter =
      .ok (datagrams, datagramAdapter)) :
    Served start packets { socket with
      datagramAdapter
      popped := socket.tcp.segmentsOut.length
      datagrams := socket.datagrams ++ datagrams } := by
  obtain ⟨accesses, hserves, hpackets⟩ := h
  obtain ⟨more, hnone, hall⟩ := writeSegments_serves hserves rfl hwrite
  refine ⟨accesses ++ more, ?_, ?_⟩
  · have hcount : socket.popped + socket.segmentsOut.length = socket.tcp.segmentsOut.length := by
      rw [segmentsOut, List.length_drop]
      omega
    rw [← hcount]
    exact hall
  · rw [List.filterMap_append, hnone, List.append_nil]
    exact hpackets

section Callbacks

variable (h : Sound datagramFd threadFd start (packets ++ [answers.incoming]) handlers socket)
include h

/-- Rule 1.  A segment that the adapter returns goes to the connection. -/
theorem Sound.datagramIn_callback [LawfulFdAdapter Adapter] (hwants : Served start packets socket) :
    Callback datagramFd threadFd start packets handlers (datagramInRule datagramFd) answers socket := by
  unfold Callback datagramInRule
  dsimp only
  cases hread : FdAdapter.read answers.incoming socket.datagramAdapter with
  | error exception => exact .inl ⟨exception, rfl, LawfulFdAdapter.read_error hread⟩
  | ok result =>
    obtain ⟨seg, datagramAdapter⟩ := result
    have hserved := hwants.accept hread
    have hused :
        (FdAdapter.fd socket.datagramAdapter).readCount ≠ (FdAdapter.fd datagramAdapter).readCount := by
      rw [LawfulFdAdapter.readCount_read hread]
      simp
    cases seg with
    | none =>
      have hsound : Sound datagramFd threadFd start (packets ++ [answers.incoming]) handlers
          { socket with datagramAdapter } :=
        ⟨h.sublist, hserved, h.operational, h.popped, h.ended, h.shutdown_iff, fun hshutdown ↦
          (h.finished hshutdown).imp_right fun hfinished ↦
            ⟨hfinished.ended, hfinished.empty, hfinished.last⟩⟩
      exact .inr ⟨_, rfl, hsound, fun _ hid hbefore ↦ wants_setAdapter _ hid hbefore, .inl hused,
        fun herror ↦ ⟨herror, .inl rfl⟩⟩
    | some segment =>
      refine .inr ⟨{ socket.apply (.segmentReceived segment) with datagramAdapter }, ?_,
        h.step trivial hserved nofun, fun id hid hbefore ↦ ?_, .inl hused,
        writesAndFinishes_apply h.receiver _⟩
      · rw [apply_segmentReceived]
        rfl
      · exact wants_setAdapter _ hid
          (wants_apply h.receiver nofun (fun hfirst ↦ absurd hfirst (Nat.ne_of_gt hid)) hbefore)

/-- Rule 2.  The connection takes all that was read, since no more is read than there is room for. -/
theorem Sound.ownerIn_callback (hrule : 2 ∈ ids handlers) (hwants : socket.threadData.eof = false) :
    Callback datagramFd threadFd start packets handlers (ownerInRule threadFd) answers socket := by
  unfold Callback ownerInRule readOwner
  dsimp only
  rcases socket.threadData.read_cases socket.tcp.remainingOutboundCapacity answers.ownerData with
    ⟨errno, heq⟩ | ⟨data, threadData, heq, hread⟩
  · rw [heq]
    exact .inl ⟨_, rfl, "read", errno, rfl⟩
  · obtain ⟨hwhole, haccepted⟩ := write_of_fits h.operational.sendable.valid hread.length_le
    have hopen : socket.tcp.sender.stream.ended = false := by
      rw [Bool.eq_false_iff]
      intro hended
      cases h.ended hended with
      | inl heof => exact absurd (hwants.symm.trans heof) Bool.false_ne_true
      | inr hgone => exact hgone hrule
    have hcall : Sound datagramFd threadFd start (packets ++ [answers.incoming]) handlers
        (socket.apply (.write data)) := h.apply nofun hopen rfl nofun
    have hwritten : Sound datagramFd threadFd start (packets ++ [answers.incoming]) handlers
        { socket.apply (.write data) with threadData } :=
      hcall.frame _ fun heof ↦ hread.eof.mpr (.inl heof)
    have happly : { socket.apply (.write data) with threadData } =
        { socket with
          tcp := (socket.tcp.write data).1
          threadData
          fromOwner := socket.fromOwner ++ data } := by
      unfold TCPSpongeSocket.apply
      rw [haccepted]
      rfl
    have hused : socket.threadData.readCount ≠ threadData.readCount := by
      rw [hread.readCount]
      simp
    have hlater (id : ℕ) (hid : id > 2) : id ≠ 1 := by omega
    have hstays (id : ℕ) (hid : id > 2) (hbefore : Wants start packets id socket) :
        Wants start packets id { socket.apply (.write data) with threadData } := by
      have hafter : Wants start packets id (socket.apply (.write data)) :=
        wants_apply h.receiver nofun (fun hfirst ↦ absurd hfirst (hlater id hid)) hbefore
      unfold Wants at hafter ⊢
      split
      · exact hafter
      · exact absurd hid (Nat.lt_irrefl _)
      · exact hafter
      · trivial
    have howner : WritesAndFinishes socket { socket.apply (.write data) with threadData } :=
      (writesAndFinishes_apply h.receiver (.write data)).frame threadData
    rw [heq]
    dsimp only [bind, Except.bind]
    rw [if_neg (not_not.mpr hwhole), ← happly]
    by_cases heof : threadData.eof = true
    · rw [if_pos heof]
      refine .inr ⟨_, rfl, hwritten.endOutbound (.inl heof), fun id hid hbefore ↦ ?_, .inl hused,
        howner.endOutbound hwritten.receiver⟩
      rw [← apply_endInputStream]
      exact wants_frame true (wants_apply hwritten.receiver nofun
        (fun hfirst ↦ absurd hfirst (hlater id hid)) (hstays id hid hbefore))
    · rw [if_neg heof]
      exact .inr ⟨_, rfl, hwritten, hstays, .inl hused, howner⟩

/-- Rule 3.  The owner gets bytes from the front of the inbound stream, and is shut down after the last
one. -/
theorem Sound.ownerOut_callback
    (hwants : socket.inboundShutdown = false ∨ socket.tcp.inboundStream.contents ≠ []) :
    Callback datagramFd threadFd start packets handlers (ownerOutRule threadFd) answers socket := by
  unfold Callback ownerOutRule writeOwner
  dsimp only
  rcases writeFrom_cases h.valid_inbound answers.ownerRoom with
    ⟨errno, heq⟩ | ⟨data, threadData, inbound, heq, hwrite⟩
  · rw [heq]
    exact .inl ⟨_, rfl, "writev", errno, rfl⟩
  · have hnext (id : ℕ) (hid : id > 3) {after : TCPSpongeSocket Adapter Outgoing} :
        Wants start packets id after := by
      unfold Wants
      split
      · exact absurd hid (by decide)
      · exact absurd hid (by decide)
      · exact absurd hid (by decide)
      · trivial
    rw [heq]
    dsimp only [bind, Except.bind]
    by_cases hover : (inbound.eof || inbound.error) = true
    · rw [if_pos hover, hwrite.after_eq, FDWrapper.shutdownWrite_eq]
      cases hkernel : answers.ownerShutdown with
      | some errno => exact .inl ⟨_, rfl, "shutdown", errno, rfl⟩
      | none =>
        refine .inr ⟨_, rfl, h.delivered hwrite (fun heof ↦ heof) rfl ?_ (by simp) fun _ ↦ ?_,
          fun id hid _ ↦ hnext id hid, .inl ?_, fun herror ↦ ?_⟩
        · rw [written_append, written_append, written_write, written_finish, List.append_nil]
        · cases herror : inbound.error with
          | true => exact .inl rfl
          | false =>
            rw [herror, Bool.or_false] at hover
            obtain ⟨hended, hempty⟩ := hwrite.valid.eof_iff.mp hover
            obtain ⟨-, hnone⟩ := h.unfinished_of_wants hwants (hwrite.error.symm.trans herror)
            exact .inr ⟨hended, hempty, _, rfl, by simpa using hnone⟩
        · change socket.threadData.writeCount ≠ socket.threadData.writeCount + 1 + 1
          simp [add_assoc]
        · exact ⟨hwrite.error.trans herror, .inr ⟨data, hwrite.length_le, by simp⟩⟩
    · rw [if_neg hover]
      rw [Bool.not_eq_true, Bool.or_eq_false_iff] at hover
      obtain ⟨hopen, -⟩ := h.unfinished_of_wants hwants (hwrite.error.symm.trans hover.2)
      refine .inr ⟨_, rfl, h.delivered hwrite ?_ rfl ?_ ?_ fun hshutdown ↦ ?_,
        fun id hid _ ↦ hnext id hid, .inl ?_, fun herror ↦ ?_⟩
      · rw [hwrite.after_eq]
        exact fun heof ↦ heof
      · rw [written_append, written_write]
      · simpa using h.shutdown_iff
      · exact absurd (hopen.symm.trans hshutdown) Bool.false_ne_true
      · change socket.threadData.writeCount ≠ threadData.writeCount
        rw [hwrite.after_eq]
        simp [FDWrapper.registerWrite]
      · exact absurd ((hwrite.error.trans herror).symm.trans hover.2) nofun

/-- Rule 4.  All segments of the queue are sent, or none is recorded. -/
theorem Sound.datagramOut_callback [LawfulFdAdapter Adapter] :
    Callback datagramFd threadFd start packets handlers (datagramOutRule datagramFd) answers socket := by
  have hsendable : ∀ emission ∈ socket.segmentsOut, emission.segment.Sendable := fun emission hemission ↦
    h.operational.sendable.sent emission ((List.drop_sublist _ _).subset hemission)
  unfold Callback datagramOutRule
  dsimp only
  cases hwrite : writeSegments answers.sends socket.segmentsOut socket.datagramAdapter with
  | error exception => exact .inl ⟨exception, rfl, writeSegments_error hsendable hwrite⟩
  | ok result =>
    refine .inr ⟨_, rfl, ⟨h.sublist, h.served.writeSegments h.popped hwrite, h.operational, le_rfl, h.ended,
      h.shutdown_iff, fun hshutdown ↦ ?_⟩, fun id hid hwants ↦ ?_, .inr ?_, fun herror ↦ ⟨herror, .inl rfl⟩⟩
    · exact (h.finished hshutdown).imp_right fun hfinished ↦
        ⟨hfinished.ended, hfinished.empty, hfinished.last⟩
    · have hlater : id ≠ 1 := by
        have : id > 4 := hid
        omega
      unfold Wants at hwants ⊢
      split
      · exact absurd rfl hlater
      · exact hwants
      · exact hwants
      · trivial
    · change (!(socket.tcp.segmentsOut.drop socket.tcp.segmentsOut.length).isEmpty) = false
      rw [List.drop_length]
      rfl

theorem Sound.callback [LawfulFdAdapter Adapter] (hmem : handler ∈ handlers)
    (hwants : Wants start packets handler.id socket) :
    Callback datagramFd threadFd start packets handlers handler answers socket := by
  have hrule : handler.id ∈ ids handlers := List.mem_map_of_mem hmem
  rcases mem_rules (h.sublist_of_mem hmem) with rfl | rfl | rfl | rfl
  · exact h.datagramIn_callback hwants
  · exact h.ownerIn_callback hrule hwants
  · exact h.ownerOut_callback hwants
  · exact h.datagramOut_callback

theorem Sound.called [LawfulFdAdapter Adapter] (hmem : handler ∈ handlers)
    (hwants : Wants start packets handler.id socket) (hok : handler.callback answers socket = .ok after) :
    Called datagramFd threadFd start packets answers.incoming handlers handler socket after := by
  rcases h.callback hmem hwants with ⟨_, herror, -⟩ | ⟨_, heq, hcalled⟩
  · rw [herror] at hok
    contradiction
  · rw [heq] at hok
    exact Except.ok.inj hok ▸ hcalled

end Callbacks

/-- The four rules obey the rule for invariants of an event loop. -/
theorem keeps [LawfulFdAdapter Adapter] (datagramFd threadFd : ℤ) (start : Station Adapter Outgoing)
    (packets : List Incoming) (answers : Answers Incoming) :
    Keeps (Sound datagramFd threadFd start (packets ++ [answers.incoming])) (Served start packets)
      (Wants start packets) Idle Fails answers := by
  refine ⟨fun _ _ _ _ h ↦ h.cancel, fun _ _ h _ ↦ h.served_cancel, fun _ _ h hcalm _ ↦ h.wants hcalm,
    fun _ _ h _ hmem _ ↦ h.idle hmem, fun _ _ h _ hmem _ _ ↦ h.wants_cancel hmem,
    fun _ _ h _ hmem _ ↦ h.idle_cancel hmem, fun _ _ h _ hmem hwants exception herror ↦ ?_,
    fun _ _ h _ hmem hwants _ hok ↦ (h.called hmem hwants hok).sound,
    fun _ _ h _ hmem hwants _ hok ↦ (h.called hmem hwants hok).wants,
    fun _ _ h _ hmem hwants _ hok ↦ (h.called hmem hwants hok).used⟩
  rcases h.callback hmem hwants with ⟨_, heq, hfails⟩ | ⟨_, heq, -⟩
  · exact Except.error.inj (heq.symm.trans herror) ▸ hfails
  · exact absurd (heq.symm.trans herror) nofun

theorem Sound.mono (h : Sound datagramFd threadFd start packets handlers socket)
    (hsub : packets.Sublist all) : Sound datagramFd threadFd start all handlers socket :=
  { h with served := h.served.mono hsub }

theorem Sound.settled [LawfulFdAdapter Adapter]
    (h : Sound datagramFd threadFd start packets handlers socket) (turn : Turn (Answers Incoming)) :
    (turn.waitNextEvent handlers socket).Settled
      (Sound datagramFd threadFd start (packets ++ [turn.input.incoming])) Idle Fails turn handlers :=
  (keeps datagramFd threadFd start packets turn.input).waitNextEvent
    (h.mono (List.sublist_append_left _ _)) h.served ((ordered_rules datagramFd threadFd).sublist h.sublist)

/-! ## After a reset -/

/-- Since the record was `before`, an error has shut the end of the owner down after one more write. -/
def CutShort (before : List SinkCall) (socket : TCPSpongeSocket Adapter Outgoing) : Prop :=
  socket.tcp.inboundStream.error = true ∧ (socket.ownerCalls = before ∨
    ∃ data later, data.length ≤ maxCopyLength ∧
      socket.ownerCalls = before ++ .write data :: .finish :: later)

theorem CutShort.next {before : List SinkCall} (h : CutShort before socket)
    (hnext : WritesAndFinishes socket after) : CutShort before after := by
  obtain ⟨herror, hcalls⟩ := hnext h.1
  refine ⟨herror, ?_⟩
  rcases hcalls with hsame | ⟨data, hdata, happended⟩
  · rw [hsame]
    exact h.2
  · rw [happended]
    rcases h.2 with hbefore | ⟨first, later, hfirst, hlong⟩
    · exact .inr ⟨data, [], hdata, by rw [hbefore]⟩
    · exact .inr ⟨first, later ++ [.write data, .finish], hfirst, by rw [hlong]; simp⟩

/-- A call of the event loop after an error leaves it at one more write and the shutdown. -/
theorem CutShort.waitNextEvent [LawfulFdAdapter Adapter] {before : List SinkCall}
    (hshort : CutShort before socket) (h : Sound datagramFd threadFd start packets handlers socket)
    (turn : Turn (Answers Incoming)) : CutShort before (turn.waitNextEvent handlers socket).state := by
  have hcancel (handlers : List (Handler (TCPSpongeSocket Adapter Outgoing) (Answers Incoming)))
      (socket : TCPSpongeSocket Adapter Outgoing)
      (h : Sound datagramFd threadFd start (packets ++ [turn.input.incoming]) handlers socket)
      (handler : Handler (TCPSpongeSocket Adapter Outgoing) (Answers Incoming)) (hmem : handler ∈ handlers)
      (hbefore : CutShort before socket) : CutShort before (handler.cancel socket) := by
    have hsame : WritesAndFinishes socket socket := fun herror ↦ ⟨herror, .inl rfl⟩
    rcases mem_rules (h.sublist_of_mem hmem) with rfl | rfl | rfl | rfl
    · exact hbefore
    · exact hbefore.next (hsame.endOutbound h.receiver)
    · exact hbefore
    · exact hbefore
  have hkeeps := (keeps datagramFd threadFd start packets turn.input).and hcancel
    fun _ _ h _ hmem hwants hbefore _ hok ↦ hbefore.next (h.called hmem hwants hok).owner
  exact (hkeeps.waitNextEvent ⟨h.mono (List.sublist_append_left _ _), hshort⟩ h.served
    ((ordered_rules datagramFd threadFd).sublist h.sublist)).inv.2

end TCPSpongeSocket

end Sponge
