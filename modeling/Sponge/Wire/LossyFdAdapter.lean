import Sponge.Wire.FdAdapter

/-!
# Lossy adapters

`LossyFdAdapter` drops some of what goes through another adapter, in both directions.  The loss rates are
kept beside the configuration of the underlying adapter, since nothing else reads them, and the random
generator is the sequence of the numbers that it is going to give.

A lossy adapter is the underlying one on a thinned sequence.  What is dropped after it was read has been
seen by the underlying adapter all the same.
-/

namespace Sponge

/-- An adapter that adds random dropping behavior to another one. -/
structure LossyFdAdapter (Adapter : Type) where
  /-- The numbers that the generator is going to give. -/
  rand : ℕ → UInt32
  adapter : Adapter
  lossRateDn : UInt16 := 0
  lossRateUp : UInt16 := 0

namespace LossyFdAdapter

variable {Adapter : Type}

def lossRate (lossy : LossyFdAdapter Adapter) (uplink : Bool) : UInt16 :=
  if uplink then lossy.lossRateUp else lossy.lossRateDn

/-- Determine whether or not to drop a given read or write.  A number is drawn only if the rate is not
zero. -/
def shouldDrop (uplink : Bool) (lossy : LossyFdAdapter Adapter) : Bool × LossyFdAdapter Adapter :=
  if lossy.lossRate uplink ≠ 0 then
    ((lossy.rand 0).toUInt16 < lossy.lossRate uplink, { lossy with rand := fun n ↦ lossy.rand (n + 1) })
  else (false, lossy)

variable {Incoming Outgoing : Type} [FdAdapter Adapter Incoming Outgoing]

def read (incoming : Incoming) (lossy : LossyFdAdapter Adapter) :
    Except SystemException (Option TCPSegment × LossyFdAdapter Adapter) := do
  let (ret, adapter) ← FdAdapter.read incoming lossy.adapter
  let (drop, lossy) := { lossy with adapter }.shouldDrop false
  return (if drop then none else ret, lossy)

def write (kernel : Option Errno) (seg : TCPSegment) (lossy : LossyFdAdapter Adapter) :
    Except SystemException (Option Outgoing × LossyFdAdapter Adapter) := do
  let (drop, lossy) := lossy.shouldDrop true
  if drop then return (none, lossy)
  else
    let (datagram, adapter) ← FdAdapter.write kernel seg lossy.adapter
    return (datagram, { lossy with adapter })

instance : FdAdapter (LossyFdAdapter Adapter) Incoming Outgoing where
  fd lossy := FdAdapter.fd lossy.adapter
  read := read
  write := write
  setConfig config lossy := { lossy with adapter := FdAdapter.setConfig config lossy.adapter }
  setListening listening lossy :=
    { lossy with adapter := FdAdapter.setListening listening lossy.adapter }

variable {lossy : LossyFdAdapter Adapter}

/-- The `n`th decision of the generator. -/
def drops (lossy : LossyFdAdapter Adapter) (uplink : Bool) (n : ℕ) : Bool :=
  lossy.lossRate uplink ≠ 0 && (lossy.rand n).toUInt16 < lossy.lossRate uplink

/-- The adapter after `n` decisions, around another underlying adapter. -/
def advance (lossy : LossyFdAdapter Adapter) (uplink : Bool) (n : ℕ) (adapter : Adapter) :
    LossyFdAdapter Adapter :=
  { lossy with
    adapter
    rand := if lossy.lossRate uplink ≠ 0 then fun m ↦ lossy.rand (m + n) else lossy.rand }

/-- A decision is the next one of the generator. -/
theorem shouldDrop_eq (uplink : Bool) (lossy : LossyFdAdapter Adapter) :
    lossy.shouldDrop uplink = (lossy.drops uplink 0, lossy.advance uplink 1 lossy.adapter) := by
  unfold shouldDrop drops advance
  by_cases hrate : lossy.lossRate uplink ≠ 0
  · simp [hrate]
  · simp [hrate]

theorem drops_advance (uplink : Bool) (n m : ℕ) (adapter : Adapter) :
    (lossy.advance uplink n adapter).drops uplink m = lossy.drops uplink (m + n) := by
  have hrate : (lossy.advance uplink n adapter).lossRate uplink = lossy.lossRate uplink := rfl
  unfold drops
  rw [hrate]
  by_cases hzero : lossy.lossRate uplink ≠ 0
  · simp [advance, hzero]
  · simp [hzero]

theorem advance_advance (uplink : Bool) (n m : ℕ) (adapter other : Adapter) :
    (lossy.advance uplink n adapter).advance uplink m other = lossy.advance uplink (n + m) other := by
  have hrate : (lossy.advance uplink n adapter).lossRate uplink = lossy.lossRate uplink := rfl
  unfold advance at hrate ⊢
  rw [hrate]
  by_cases hzero : lossy.lossRate uplink ≠ 0
  · simp [hzero, Nat.add_comm n m, Nat.add_assoc]
  · simp [hzero]

theorem advance_zero (uplink : Bool) (lossy : LossyFdAdapter Adapter) :
    lossy.advance uplink 0 lossy.adapter = lossy := by
  unfold advance
  simp

theorem read_eq (incoming : Incoming) (lossy : LossyFdAdapter Adapter) :
    lossy.read incoming = (FdAdapter.read incoming lossy.adapter).map fun result ↦
      (if lossy.drops false 0 then none else result.1, lossy.advance false 1 result.2) := by
  unfold read
  cases FdAdapter.read incoming lossy.adapter with
  | error exception => rfl
  | ok result =>
    dsimp only [bind, Except.bind, Except.map]
    rw [shouldDrop_eq]
    rfl

theorem write_eq (kernel : Option Errno) (seg : TCPSegment) (lossy : LossyFdAdapter Adapter) :
    lossy.write kernel seg =
      if lossy.drops true 0 then .ok (none, lossy.advance true 1 lossy.adapter)
      else (FdAdapter.write kernel seg lossy.adapter).map fun result ↦
        (result.1, lossy.advance true 1 result.2) := by
  unfold write
  rw [shouldDrop_eq]
  dsimp only
  split_ifs
  · rfl
  · change (FdAdapter.write kernel seg lossy.adapter >>= _) = _
    cases FdAdapter.write kernel seg lossy.adapter <;> rfl

instance [LawfulFdAdapter Adapter] : LawfulFdAdapter (LossyFdAdapter Adapter) where
  read_error := by
    intro incoming lossy exception herror
    have hread : lossy.read incoming = .error exception := herror
    rw [read_eq] at hread
    cases hplain : FdAdapter.read incoming lossy.adapter with
    | error thrown =>
      rw [hplain] at hread
      rw [← Except.error.inj hread]
      exact LawfulFdAdapter.read_error hplain
    | ok result =>
      rw [hplain] at hread
      contradiction
  readCount_read := by
    intro incoming lossy after segment hok
    have hread : lossy.read incoming = .ok (segment, after) := hok
    rw [read_eq] at hread
    cases hplain : FdAdapter.read incoming lossy.adapter with
    | error thrown =>
      rw [hplain] at hread
      contradiction
    | ok result =>
      rw [hplain] at hread
      have hafter : lossy.advance false 1 result.2 = after := congrArg Prod.snd (Except.ok.inj hread)
      have hcount := LawfulFdAdapter.readCount_read hplain
      rw [← hafter]
      exact hcount
  write_error := by
    intro kernel seg lossy exception hsendable herror
    have hwrite : lossy.write kernel seg = .error exception := herror
    rw [write_eq] at hwrite
    split_ifs at hwrite
    cases hplain : FdAdapter.write kernel seg lossy.adapter with
    | error thrown =>
      rw [hplain] at hwrite
      rw [← Except.error.inj hwrite]
      exact LawfulFdAdapter.write_error hsendable hplain
    | ok result =>
      rw [hplain] at hwrite
      contradiction

/-! ## Sequences -/

open FdAdapter

/-- Nothing in place of the entries whose index is marked. -/
def thin (marked : ℕ → Bool) (segments : List (Option TCPSegment)) : List (Option TCPSegment) :=
  segments.mapIdx fun n segment ↦ if marked n then none else segment

/-- The entries whose index is not marked. -/
def select {Entry : Type} (marked : ℕ → Bool) : List Entry → List Entry
  | [] => []
  | entry :: rest => (if marked 0 then [] else [entry]) ++ select (fun n ↦ marked (n + 1)) rest

theorem thin_cons (marked : ℕ → Bool) (segment : Option TCPSegment) (rest : List (Option TCPSegment)) :
    thin marked (segment :: rest) =
      (if marked 0 then none else segment) :: thin (fun n ↦ marked (n + 1)) rest := List.mapIdx_cons

theorem drops_advance_one (uplink : Bool) (lossy : LossyFdAdapter Adapter) (adapter : Adapter) :
    (lossy.advance uplink 1 adapter).drops uplink = fun n ↦ lossy.drops uplink (n + 1) := by
  funext n
  exact drops_advance uplink 1 n adapter

/-- Reading drops the segments that are marked, and no others. -/
theorem readAll_eq (packets : List Incoming) (lossy : LossyFdAdapter Adapter) :
    readAll packets lossy = (readAll packets lossy.adapter).map fun result ↦
      (thin (lossy.drops false) result.1, lossy.advance false packets.length result.2) := by
  induction packets generalizing lossy with
  | nil =>
    change Except.ok ([], lossy) = Except.ok ([], lossy.advance false 0 lossy.adapter)
    rw [advance_zero]
  | cons incoming rest ih =>
    change (lossy.read incoming >>= _) = ((FdAdapter.read incoming lossy.adapter >>= _).map _)
    rw [read_eq]
    cases FdAdapter.read incoming lossy.adapter with
    | error exception => rfl
    | ok result =>
      change (readAll rest (lossy.advance false 1 result.2) >>= _) =
        ((readAll rest result.2 >>= _).map _)
      rw [ih (lossy.advance false 1 result.2), drops_advance_one]
      change (((readAll rest result.2).map _) >>= _) = _
      cases readAll rest result.2 with
      | error exception => rfl
      | ok later =>
        change Except.ok (_ :: thin _ later.1, _) = Except.ok (thin _ (result.1 :: later.1), _)
        rw [thin_cons, advance_advance, List.length_cons, Nat.add_comm]

/-- Writing passes on the segments that are not marked. -/
theorem writeAll_eq (segments : List (Option Errno × TCPSegment)) (lossy : LossyFdAdapter Adapter) :
    writeAll segments lossy = (writeAll (select (lossy.drops true) segments) lossy.adapter).map
      fun result ↦ (result.1, lossy.advance true segments.length result.2) := by
  induction segments generalizing lossy with
  | nil =>
    change Except.ok ([], lossy) = Except.ok ([], lossy.advance true 0 lossy.adapter)
    rw [advance_zero]
  | cons first rest ih =>
    obtain ⟨kernel, seg⟩ := first
    change (lossy.write kernel seg >>= _) = _
    rw [write_eq, select]
    have hlength (adapter : Adapter) : (lossy.advance true 1 adapter).advance true rest.length =
        lossy.advance true (rest.length + 1) := by
      funext other
      rw [advance_advance, Nat.add_comm]
    by_cases hdrop : lossy.drops true 0 = true
    · rw [if_pos hdrop, if_pos hdrop]
      change (writeAll rest (lossy.advance true 1 lossy.adapter) >>= _) =
        (writeAll (select _ rest) lossy.adapter).map _
      rw [ih, drops_advance_one, hlength]
      change (((writeAll _ lossy.adapter).map _) >>= _) = _
      cases writeAll (select (fun n ↦ lossy.drops true (n + 1)) rest) lossy.adapter <;> rfl
    · rw [if_neg hdrop, if_neg hdrop]
      change _ = (FdAdapter.write kernel seg lossy.adapter >>= _).map _
      cases FdAdapter.write kernel seg lossy.adapter with
      | error exception => rfl
      | ok result =>
        change (writeAll rest (lossy.advance true 1 result.2) >>= _) =
          ((writeAll (select _ rest) result.2 >>= _).map _)
        rw [ih, drops_advance_one, hlength]
        change (((writeAll _ result.2).map _) >>= _) = _
        cases writeAll (select (fun n ↦ lossy.drops true (n + 1)) rest) result.2 <;> rfl

/-! ## Mixed sequences -/

/-- Each request, with the decision whether it is dropped.  One generator serves both directions. -/
def judge (lossy : LossyFdAdapter Adapter) : List (Request Incoming) → List (Request Incoming × Bool)
  | [] => []
  | request :: rest =>
      (request, lossy.drops request.isWrite 0) ::
        (lossy.advance request.isWrite 1 lossy.adapter).judge rest

/-- The requests that reach the underlying adapter: a segment that is dropped is not written. -/
def passing (judged : List (Request Incoming × Bool)) : List (Request Incoming) :=
  (judged.filter fun entry ↦ !(entry.1.isWrite && entry.2)).map Prod.fst

/-- What is seen from outside, if these are the accesses to the underlying adapter. -/
def report : List (Request Incoming × Bool) → List (Access Incoming Outgoing) →
    List (Access Incoming Outgoing)
  | (.write kernel seg, true) :: rest, accesses => .write kernel seg none :: report rest accesses
  | (_, drop) :: rest, access :: accesses => (if drop then access.lose else access) :: report rest accesses
  | _, _ => []

/-- The adapter after the decisions about the requests, around another underlying adapter. -/
def afterAll (lossy : LossyFdAdapter Adapter) : List (Request Incoming) → Adapter → LossyFdAdapter Adapter
  | [], adapter => { lossy with adapter }
  | request :: rest, adapter => (lossy.advance request.isWrite 1 lossy.adapter).afterAll rest adapter

/-- The decisions do not depend on the underlying adapter. -/
theorem judge_setAdapter (requests : List (Request Incoming)) (lossy : LossyFdAdapter Adapter)
    (adapter : Adapter) : judge { lossy with adapter } requests = lossy.judge requests := by
  induction requests generalizing lossy adapter with
  | nil => rfl
  | cons request rest ih => exact congrArg _ (ih (lossy.advance request.isWrite 1 lossy.adapter) adapter)

theorem afterAll_setAdapter (requests : List (Request Incoming)) (lossy : LossyFdAdapter Adapter)
    (adapter other : Adapter) :
    afterAll { lossy with adapter } requests other = lossy.afterAll requests other := by
  induction requests generalizing lossy adapter with
  | nil => rfl
  | cons request rest ih => exact ih (lossy.advance request.isWrite 1 lossy.adapter) adapter

theorem access_of_dropped {kernel : Option Errno} {seg : TCPSegment} (hdrop : lossy.drops true 0 = true) :
    access (.write kernel seg) lossy =
      .ok (.write kernel seg none, lossy.advance true 1 lossy.adapter) := by
  refine access_write ?_
  change lossy.write kernel seg = _
  rw [write_eq, if_pos hdrop]

theorem access_of_passing {request : Request Incoming}
    (hpass : (request.isWrite && lossy.drops request.isWrite 0) = false) :
    access request lossy = (access request lossy.adapter).map fun result ↦
      (if lossy.drops request.isWrite 0 then result.1.lose else result.1,
        lossy.advance request.isWrite 1 result.2) := by
  cases request with
  | read incoming =>
    change (lossy.read incoming >>= _) = (FdAdapter.read incoming lossy.adapter >>= _).map _
    rw [read_eq]
    cases FdAdapter.read incoming lossy.adapter with
    | error exception => rfl
    | ok result =>
      change Except.ok (Access.read incoming _, _) = Except.ok (if lossy.drops false 0 then _ else _, _)
      split_ifs <;> rfl
  | write kernel seg =>
    have hkept : ¬ lossy.drops true 0 = true := Bool.eq_false_iff.mp hpass
    change (lossy.write kernel seg >>= _) = (FdAdapter.write kernel seg lossy.adapter >>= _).map _
    rw [write_eq, if_neg hkept]
    cases FdAdapter.write kernel seg lossy.adapter with
    | error exception => rfl
    | ok result =>
      change Except.ok _ = Except.ok (if lossy.drops true 0 then _ else _, _)
      rw [if_neg hkept]
      rfl

theorem passing_cons {request : Request Incoming} {drop : Bool} (hpass : (request.isWrite && drop) = false)
    (judged : List (Request Incoming × Bool)) :
    passing ((request, drop) :: judged) = request :: passing judged := by
  unfold passing
  rw [List.filter_cons_of_pos (by rw [hpass]; rfl), List.map_cons]

theorem report_cons {request : Request Incoming} {drop : Bool}
    (hpass : (request.isWrite && drop) = false) (judged : List (Request Incoming × Bool))
    (first : Access Incoming Outgoing) (accesses : List (Access Incoming Outgoing)) :
    report ((request, drop) :: judged) (first :: accesses) =
      (if drop then first.lose else first) :: report judged accesses := by
  cases request <;> cases drop <;> first | rfl | contradiction

/-- Reading and writing in any order, over the underlying adapter. -/
theorem serve_eq (requests : List (Request Incoming)) (lossy : LossyFdAdapter Adapter) :
    serve requests lossy = (serve (passing (lossy.judge requests)) lossy.adapter).map fun result ↦
      (report (lossy.judge requests) result.1, lossy.afterAll requests result.2) := by
  induction requests generalizing lossy with
  | nil => rfl
  | cons request rest ih =>
    rw [serve_cons, judge]
    cases hpass : request.isWrite && lossy.drops request.isWrite 0 with
    | true =>
      cases request with
      | read incoming => contradiction
      | write kernel seg =>
        have hdrop : lossy.drops true 0 = true := hpass
        rw [access_of_dropped hdrop]
        change (serve rest (lossy.advance true 1 lossy.adapter)).map _ =
          (serve (passing ((_, lossy.drops true 0) :: _)) lossy.adapter).map fun result ↦
            (report ((_, lossy.drops true 0) :: _) result.1, _)
        rw [ih, hdrop]
        change ((serve (passing ((lossy.advance true 1 lossy.adapter).judge rest))
            lossy.adapter).map _).map _ =
          (serve (passing ((lossy.advance true 1 lossy.adapter).judge rest)) lossy.adapter).map _
        cases serve (passing ((lossy.advance true 1 lossy.adapter).judge rest)) lossy.adapter <;> rfl
    | false =>
      rw [access_of_passing hpass, passing_cons hpass, serve_cons]
      cases access request lossy.adapter with
      | error exception => rfl
      | ok first =>
        have hjudge : (lossy.advance request.isWrite 1 first.2).judge rest =
            (lossy.advance request.isWrite 1 lossy.adapter).judge rest :=
          judge_setAdapter rest (lossy.advance request.isWrite 1 lossy.adapter) first.2
        have hafter (adapter : Adapter) : (lossy.advance request.isWrite 1 first.2).afterAll rest adapter =
            lossy.afterAll (request :: rest) adapter :=
          afterAll_setAdapter rest (lossy.advance request.isWrite 1 lossy.adapter) first.2 adapter
        change (serve rest (lossy.advance request.isWrite 1 first.2)).map _ =
          ((serve (passing _) first.2).map _).map _
        rw [ih, hjudge]
        change ((serve (passing _) first.2).map _).map _ = _
        cases serve (passing ((lossy.advance request.isWrite 1 lossy.adapter).judge rest)) first.2 with
        | error exception => rfl
        | ok later =>
          change Except.ok (_ :: report _ later.1, _) = Except.ok (report _ (first.1 :: later.1), _)
          rw [report_cons hpass]
          exact congrArg (fun after ↦ Except.ok (_, after)) (hafter later.2)

/-- A lossy adapter is the underlying adapter on thinned sequences, for every adapter and every sequence of
random numbers.  In reading, the underlying adapter sees all packets, also those of the segments that are
dropped, so that a listening adapter is locked by a segment that its connection never gets.  In writing,
it sees only the segments that are not dropped, and these in their order.  A loss rate of zero drops
nothing.  All this also holds when packets are read and segments written in turn; the decisions then are
those of one generator, which is asked only in a direction whose rate is not zero. -/
theorem loses_marked_segments (lossy : LossyFdAdapter Adapter) (packets : List Incoming)
    (segments : List (Option Errno × TCPSegment)) (requests : List (Request Incoming)) :
    (readAll packets lossy = (readAll packets lossy.adapter).map fun result ↦
        (thin (lossy.drops false) result.1, lossy.advance false packets.length result.2)) ∧
      (writeAll segments lossy = (writeAll (select (lossy.drops true) segments) lossy.adapter).map
        fun result ↦ (result.1, lossy.advance true segments.length result.2)) ∧
      (serve requests lossy = (serve (passing (lossy.judge requests)) lossy.adapter).map fun result ↦
        (report (lossy.judge requests) result.1, lossy.afterAll requests result.2)) ∧
      ∀ uplink, lossy.lossRate uplink = 0 → ∀ n, lossy.drops uplink n = false := by
  refine ⟨readAll_eq packets lossy, writeAll_eq segments lossy, serve_eq requests lossy,
    fun uplink hrate n ↦ ?_⟩
  rw [drops, hrate]
  rfl

end LossyFdAdapter

end Sponge
