import Sponge.Library.Execution
import Sponge.Socket.ConnectionFacts
import Sponge.System.Network

/-!
# A connection and its adapter

A `Station` is a socket without its event loop and its descriptors: a connection, with what its owner has
written and got, and an adapter, with what it has sent.  It can call a function of the connection for the
owner or the clock, read a packet and hand the segment over, or give the next segment of the queue to the
adapter.  `Serves` are the histories that are made of these steps.  The results of this file say what a
history tells about the connection, about the adapter, and about the segments that were sent.
-/

namespace Sponge

open Execution FdAdapter TCPConnection

/-- The segment that a call hands to the connection. -/
def TCPConnection.Call.segment : Call → Option TCPSegment
  | .segmentReceived segment => some segment
  | _ => none

/-- `popped` counts the segments that were taken out of the queue, and `datagrams` has what the adapter has
sent for each of them. -/
structure Station (Adapter Outgoing : Type) where
  endpoint : Endpoint
  adapter : Adapter
  popped : ℕ := 0
  datagrams : List (Option Outgoing) := []

namespace Station

variable {Adapter Incoming Outgoing : Type} {start station : Station Adapter Outgoing}
  {accesses : List (Access Incoming Outgoing)}

def poppedSegments (station : Station Adapter Outgoing) : List TCPSegment :=
  (station.endpoint.connection.segmentsOut.take station.popped).map Emission.segment

def receive (station : Station Adapter Outgoing) (seg : Option TCPSegment) : Endpoint :=
  match seg with
  | some segment => station.endpoint.step (.segmentReceived segment)
  | none => station.endpoint

/-- The record has an entry for each segment that was taken out of the queue: what the adapter has made of
that segment. -/
structure Records (accesses : List (Access Incoming Outgoing)) (station : Station Adapter Outgoing) :
    Prop where
  popped_le : station.popped ≤ station.endpoint.connection.segmentsOut.length
  length : station.datagrams.length = station.popped
  sent : accesses.filterMap Access.sent = station.poppedSegments.zip station.datagrams

/-- A call of the connection adds to the end of the queue, so the record stays right. -/
theorem Records.step (h : Records accesses station) (call : Call) :
    Records accesses { station with endpoint := station.endpoint.step call } := by
  obtain ⟨more, heq⟩ := segmentsOut_prefix_step station.endpoint.connection call
  refine ⟨?_, h.length, ?_⟩
  · change station.popped ≤ (station.endpoint.connection.step call).segmentsOut.length
    rw [← heq, List.length_append]
    exact h.popped_le.trans (Nat.le_add_right _ _)
  · rw [h.sent]
    unfold poppedSegments Endpoint.step
    dsimp only
    rw [← heq, List.take_append_of_le_length h.popped_le]

theorem Records.receive (h : Records accesses station) (seg : Option TCPSegment) :
    Records accesses { station with endpoint := station.receive seg } := by
  cases seg with
  | none => exact h
  | some segment => exact h.step _

theorem length_poppedSegments (h : station.popped ≤ station.endpoint.connection.segmentsOut.length) :
    station.poppedSegments.length = station.popped := by
  rw [poppedSegments, List.length_map, List.length_take, min_eq_left h]

variable [FdAdapter Adapter Incoming Outgoing]

/-- A history from one station to another, with all that the adapter was asked for.  Nothing is written
after the end of the input. -/
inductive Serves (start : Station Adapter Outgoing) :
    List (Access Incoming Outgoing) → Station Adapter Outgoing → Prop
  | refl : Serves start [] start
  | call {accesses : List (Access Incoming Outgoing)} {station : Station Adapter Outgoing} {call : Call}
      (hbefore : Serves start accesses station)
      (hwrites : station.endpoint.connection.WritesBeforeEnd call) (hown : call.segment = none) :
      Serves start accesses { station with endpoint := station.endpoint.step call }
  | read {accesses : List (Access Incoming Outgoing)} {station : Station Adapter Outgoing}
      {incoming : Incoming} {seg : Option TCPSegment} {adapter : Adapter}
      (hbefore : Serves start accesses station)
      (hread : FdAdapter.read incoming station.adapter = .ok (seg, adapter)) :
      Serves start (accesses ++ [.read incoming seg])
        { station with endpoint := station.receive seg, adapter }
  | write {accesses : List (Access Incoming Outgoing)} {station : Station Adapter Outgoing}
      {kernel : Option Errno} {emission : Emission} {datagram : Option Outgoing} {adapter : Adapter}
      (hbefore : Serves start accesses station)
      (hnext : station.endpoint.connection.segmentsOut[station.popped]? = some emission)
      (hwrite : FdAdapter.write kernel emission.segment station.adapter = .ok (datagram, adapter)) :
      Serves start (accesses ++ [.write kernel emission.segment datagram])
        { station with adapter, popped := station.popped + 1, datagrams := station.datagrams ++ [datagram] }

/-- All reading and writing is done by one adapter. -/
theorem Serves.serve (h : start.Serves accesses station) :
    ∃ requests, serve requests start.adapter = .ok (accesses, station.adapter) := by
  induction h with
  | refl => exact ⟨[], rfl⟩
  | call _ _ _ ih => exact ih
  | read _ hread ih =>
    obtain ⟨requests, hserve⟩ := ih
    exact ⟨requests ++ [.read _], serve_concat hserve (access_read hread)⟩
  | write _ _ hwrite ih =>
    obtain ⟨requests, hserve⟩ := ih
    exact ⟨requests ++ [.write _ _], serve_concat hserve (access_write hwrite)⟩

/-- The endpoint has gone through these calls. -/
structure Goes (before after : Endpoint) (calls : List Call) : Prop where
  legal : Admissible Endpoint.step (fun endpoint call ↦ endpoint.connection.WritesBeforeEnd call)
    before calls
  run : run Endpoint.step before calls = after

theorem Goes.concat {before after : Endpoint} {calls : List Call} {call : Call} (h : Goes before after calls)
    (hwrites : after.connection.WritesBeforeEnd call) : Goes before (after.step call) (calls ++ [call]) := by
  refine ⟨(admissible_append _).mpr ⟨h.legal, ?_⟩, ?_⟩
  · rw [h.run]
    exact ⟨hwrites, trivial⟩
  · rw [run_append, h.run]
    rfl

/-- The connection goes through a sequence of calls, in which it gets the segments that the adapter has
read, each of them once and in their order. -/
theorem Serves.calls (h : start.Serves accesses station) :
    ∃ calls, Goes start.endpoint station.endpoint calls ∧
      calls.filterMap Call.segment = accesses.filterMap Access.received := by
  induction h with
  | refl => exact ⟨[], ⟨trivial, rfl⟩, rfl⟩
  | @call _ _ call _ hwrites hown ih =>
    obtain ⟨calls, hgoes, hreceived⟩ := ih
    refine ⟨calls ++ [call], hgoes.concat hwrites, ?_⟩
    rw [List.filterMap_append, List.filterMap_cons_none hown, hreceived]
    exact List.append_nil _
  | @read _ station incoming seg _ _ _ ih =>
    obtain ⟨calls, hgoes, hreceived⟩ := ih
    cases seg with
    | none =>
      refine ⟨calls, hgoes, ?_⟩
      rw [List.filterMap_append, hreceived]
      exact (List.append_nil _).symm
    | some segment =>
      have hwrites : station.endpoint.connection.WritesBeforeEnd (.segmentReceived segment) := trivial
      refine ⟨calls ++ [Call.segmentReceived segment], hgoes.concat hwrites, ?_⟩
      rw [List.filterMap_append, List.filterMap_append, hreceived]
      rfl
  | write _ _ _ ih =>
    obtain ⟨calls, hgoes, hreceived⟩ := ih
    refine ⟨calls, hgoes, ?_⟩
    rw [List.filterMap_append, hreceived]
    exact (List.append_nil _).symm

/-- Each segment of the queue is given to the adapter once, and in its order. -/
theorem Serves.records (h : start.Serves accesses station) (hpopped : start.popped = 0)
    (hdatagrams : start.datagrams = []) : Records accesses station := by
  induction h with
  | refl =>
    refine ⟨hpopped ▸ Nat.zero_le _, by rw [hdatagrams, hpopped]; rfl, ?_⟩
    rw [hdatagrams, List.zip_nil_right]
    rfl
  | call _ _ _ ih => exact ih.step _
  | @read _ _ _ seg _ _ _ ih =>
    have hreceived := ih.receive seg
    refine ⟨hreceived.popped_le, hreceived.length, ?_⟩
    rw [List.filterMap_append, hreceived.sent]
    exact List.append_nil _
  | @write _ station kernel emission datagram _ _ hnext _ ih =>
    obtain ⟨hlt, -⟩ := List.getElem?_eq_some_iff.mp hnext
    have hlengths : station.poppedSegments.length = station.datagrams.length := by
      rw [length_poppedSegments ih.popped_le, ih.length]
    refine ⟨hlt, by rw [List.length_append, ih.length]; rfl, ?_⟩
    have hsegments : (station.endpoint.connection.segmentsOut.take (station.popped + 1)).map
        Emission.segment = station.poppedSegments ++ [emission.segment] := by
      rw [List.take_add_one, hnext, List.map_append]
      rfl
    unfold poppedSegments
    dsimp only
    rw [hsegments, List.zip_append hlengths, List.filterMap_append, ih.sent]
    rfl

end Station

end Sponge
