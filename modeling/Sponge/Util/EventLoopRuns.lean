import Mathlib.Data.List.Flatten
import Sponge.Util.EventLoop

/-!
# Events and their rules

The results of `poll` reach the rules that they are for.  All that is needed about the index of the second
pass is in `dispatch_cases`; the lemmas here are about rules that come with their own entry.  In one call
each rule has at most one event.  A rule leaves the list exactly with its cancellation, and over a run of
calls nothing is heard of it afterwards.
-/

namespace Sponge

namespace EventLoop

open Poll

variable {handled rest called all : List Polled} {outcome : Outcome} {surroundings : Surroundings}
  {rules : List Rule}

/-! ## Events of rules with their own entries -/

theorem Polled.id_of_mem_event {polled : Polled} {event : Event} (h : event ∈ polled.event) :
    event.id = polled.1.id := by
  unfold Polled.event at h
  split_ifs at h
  · rw [List.mem_singleton.mp h]
    rfl
  · rw [List.mem_singleton.mp h]
    rfl
  · contradiction

theorem Polled.cancel_mem_event {polled : Polled} {id : ℕ} :
    .cancel id ∈ polled.event ↔ polled.hungUp = true ∧ polled.1.id = id := by
  unfold Polled.event
  split_ifs with hhungUp hready
  · simp [hhungUp, eq_comm]
  · simp [hhungUp]
  · simp [hhungUp]

/-- Among rules with different identities, the events of a rule are those of its own entry. -/
theorem count_flatMap_event (hnodup : (all.map (·.1.id)).Nodup) {polled : Polled} (hmem : polled ∈ all)
    {event : Event} (hid : event.id = polled.1.id) :
    (all.flatMap Polled.event).count event = polled.event.count event := by
  induction all with
  | nil => contradiction
  | cons first all ih =>
    rw [List.map_cons, List.nodup_cons] at hnodup
    rw [List.flatMap_cons, List.count_append]
    cases List.mem_cons.mp hmem with
    | inl hfirst =>
      have hlater : event ∉ all.flatMap Polled.event := by
        intro hevent
        obtain ⟨other, hother, hown⟩ := List.mem_flatMap.mp hevent
        apply hnodup.1
        rw [← hfirst, ← hid, Polled.id_of_mem_event hown]
        exact List.mem_map_of_mem hother
      rw [List.count_eq_zero_of_not_mem hlater, hfirst, Nat.add_zero]
    | inr hlater =>
      have hnotFirst : event ∉ first.event := by
        intro hevent
        apply hnodup.1
        rw [← Polled.id_of_mem_event hevent, hid]
        exact List.mem_map_of_mem hlater
      rw [List.count_eq_zero_of_not_mem hnotFirst, Nat.zero_add, ih hnodup.2 hlater]

theorem map_id_flatMap_event (all : List Polled) :
    ((all.flatMap Polled.event).map Event.id).Sublist (all.map (·.1.id)) := by
  induction all with
  | nil => exact List.Sublist.slnil
  | cons polled all ih =>
    have hown : (polled.event.map Event.id).Sublist [polled.1.id] := by
      unfold Polled.event
      split_ifs
      · exact List.Sublist.refl _
      · exact List.Sublist.refl _
      · exact List.nil_sublist _
    rw [List.flatMap_cons, List.map_append, List.map_cons]
    exact hown.append ih

namespace Handles

variable (h : Handles handled rest called outcome)
include h

/-- No rule comes in, and the order stays. -/
theorem rules_sublist : outcome.rules.Sublist ((handled ++ rest).map Prod.fst) := by
  rw [h.rules, List.map_append]
  exact (List.filter_sublist.map Prod.fst).append (List.Sublist.refl _)

theorem called_sublist : called.Sublist (handled ++ rest) := by
  cases h.progress with
  | inl hall =>
    rw [hall]
    exact List.sublist_append_left handled rest
  | inr hbusy =>
    obtain ⟨polled, later, hrest, hcalled, -⟩ := hbusy
    rw [hcalled, hrest]
    exact (List.Sublist.refl handled).append (List.singleton_sublist.mpr List.mem_cons_self)

theorem events_sublist :
    (outcome.events.map Event.id).Sublist ((handled ++ rest).map (·.1.id)) := by
  rw [h.events]
  exact (map_id_flatMap_event called).trans (h.called_sublist.map _)

theorem handled_subset : handled ⊆ called := by
  cases h.progress with
  | inl hall =>
    rw [hall]
    exact List.Subset.refl handled
  | inr hbusy =>
    obtain ⟨polled, _, -, hcalled, -⟩ := hbusy
    rw [hcalled]
    exact List.subset_append_left handled [polled]

theorem mem_handled_of_hungUp {polled : Polled} (hcalled : polled ∈ called)
    (hhungUp : polled.hungUp = true) : polled ∈ handled := by
  cases h.progress with
  | inl hall => rwa [hall] at hcalled
  | inr hbusy =>
    obtain ⟨busy, _, -, hall, hnot⟩ := hbusy
    rw [hall, List.mem_append, List.mem_singleton] at hcalled
    refine hcalled.resolve_right fun hsame ↦ ?_
    rw [hsame, hnot] at hhungUp
    contradiction

/-- A rule is cancelled exactly if it is not in the list any more. -/
theorem cancel_mem_iff (hnodup : ((handled ++ rest).map (·.1.id)).Nodup) {polled : Polled}
    (hmem : polled ∈ handled ++ rest) :
    .cancel polled.1.id ∈ outcome.events ↔ polled.1 ∉ outcome.rules := by
  have hsame {other : Polled} (hother : other ∈ handled ++ rest) (hid : other.1.id = polled.1.id) :
      other = polled :=
    List.inj_on_of_nodup_map hnodup hother hmem hid
  rw [h.events, h.rules, kept, List.mem_flatMap, List.mem_append, List.mem_map, List.mem_map, not_or]
  constructor
  · rintro ⟨other, hother, hevent⟩
    obtain ⟨hhungUp, hid⟩ := Polled.cancel_mem_event.mp hevent
    have hhandled := h.mem_handled_of_hungUp hother hhungUp
    obtain rfl := hsame (List.mem_append_left rest hhandled) hid
    constructor
    · rintro ⟨left, hleft, heq⟩
      obtain ⟨hin, hnot⟩ := List.mem_filter.mp hleft
      obtain rfl := hsame (List.mem_append_left rest hin) (congrArg Rule.id heq)
      simp [hhungUp] at hnot
    · rintro ⟨left, hleft, heq⟩
      obtain rfl := hsame (List.mem_append_right handled hleft) (congrArg Rule.id heq)
      exact (List.nodup_append'.mp (List.Nodup.of_map _ hnodup)).2.2 hhandled hleft
  · rintro ⟨hnotKept, hnotRest⟩
    have hhandled : polled ∈ handled :=
      (List.mem_append.mp hmem).resolve_right fun hrest ↦ hnotRest ⟨polled, hrest, rfl⟩
    refine ⟨polled, h.handled_subset hhandled, Polled.cancel_mem_event.mpr ⟨?_, rfl⟩⟩
    by_contra hhungUp
    exact hnotKept ⟨polled, List.mem_filter.mpr ⟨hhandled, by simpa using hhungUp⟩, rfl⟩

end Handles

/-! ## One call -/

/-- The entry of a rule contains its direction after `poll`. -/
def Surroundings.ready (surroundings : Surroundings) (idx : ℕ) (rule : Rule) : Bool :=
  (surroundings.observe rule.id).interest && surroundings.revents idx &&& rule.direction.events != 0

/-- The entry of an interested rule reports a hangup and nothing else that the rule has asked for. -/
def Surroundings.hungUp (surroundings : Surroundings) (idx : ℕ) (rule : Rule) : Bool :=
  (surroundings.observe rule.id).interest && surroundings.revents idx &&& pollHup != 0 &&
    !surroundings.ready idx rule

/-- A rule that was not removed, with its entry as `poll` has left it. -/
def polledAt (surroundings : Surroundings) (idx : ℕ) (rule : Rule) : Polled :=
  (rule, { pollfdFor surroundings.observe rule with revents := surroundings.revents idx })

theorem pollReady_polledAt (surroundings : Surroundings) (idx : ℕ) (rule : Rule) :
    (polledAt surroundings idx rule).2.pollReady = surroundings.ready idx rule := by
  unfold PollFd.pollReady polledAt pollfdFor Surroundings.ready
  dsimp only
  cases (surroundings.observe rule.id).interest <;> simp

theorem hungUp_polledAt (surroundings : Surroundings) (idx : ℕ) (rule : Rule) :
    (polledAt surroundings idx rule).hungUp = surroundings.hungUp idx rule := by
  have hevents : (rule.direction.events != 0) = true := by
    cases rule.direction <;> decide
  unfold Polled.hungUp Surroundings.hungUp
  rw [pollReady_polledAt]
  unfold PollFd.pollHangup polledAt pollfdFor
  dsimp only
  cases (surroundings.observe rule.id).interest <;> simp [hevents]

theorem event_polledAt (surroundings : Surroundings) (idx : ℕ) (rule : Rule) :
    (polledAt surroundings idx rule).event.count (.callback rule.id) =
        (surroundings.ready idx rule).toNat ∧
      (polledAt surroundings idx rule).event.count (.cancel rule.id) =
        (surroundings.hungUp idx rule).toNat := by
  unfold Polled.event
  rw [pollReady_polledAt, hungUp_polledAt]
  have hid : (polledAt surroundings idx rule).1.id = rule.id := rfl
  rw [hid]
  cases hready : surroundings.ready idx rule with
  | true => simp [Surroundings.hungUp, hready]
  | false => cases surroundings.hungUp idx rule <;> simp

def setupEvents (surroundings : Surroundings) (rules : List Rule) : List Event :=
  (rules.filter (!survives surroundings.observe ·)).map (.cancel ·.id)

/-- The rules that the second pass goes over, with their entries. -/
def polledRules (surroundings : Surroundings) (rules : List Rule) : List Polled :=
  (rules.filter (survives surroundings.observe)).mapIdx (polledAt surroundings)

theorem map_fst_polledRules (surroundings : Surroundings) (rules : List Rule) :
    (polledRules surroundings rules).map Prod.fst = rules.filter (survives surroundings.observe) := by
  ext idx rule
  simp [polledRules, polledAt, Function.comp_def]

/-- The vector after `poll` is made of the entries of the rules. -/
theorem writeRevents_setup (surroundings : Surroundings) (rules : List Rule) :
    writeRevents surroundings.revents (setup surroundings.observe rules).pollfds =
      (polledRules surroundings rules).map Prod.snd := by
  rw [setup_eq]
  ext idx pollfd
  simp [writeRevents, polledRules, polledAt, Function.comp_def]

/-- The second pass over the rules that were not removed may end in this way. -/
def Reaches (surroundings : Surroundings) (rules : List Rule) (outcome : Outcome) : Prop :=
  ∃ handled rest called, Handles handled rest called outcome ∧
    (handled ++ rest).map Prod.fst = rules.filter (survives surroundings.observe)

theorem Reaches.rules_sublist (h : Reaches surroundings rules outcome) :
    outcome.rules.Sublist (rules.filter (survives surroundings.observe)) := by
  obtain ⟨_, _, _, hhandles, hrules⟩ := h
  exact hrules ▸ hhandles.rules_sublist

theorem Reaches.events_sublist (h : Reaches surroundings rules outcome) :
    (outcome.events.map Event.id).Sublist
      ((rules.filter (survives surroundings.observe)).map Rule.id) := by
  obtain ⟨_, _, _, hhandles, hrules⟩ := h
  rw [← hrules, List.map_map]
  exact hhandles.events_sublist

/-- Of the rules that were not removed at first, exactly those that are gone have been cancelled. -/
theorem Reaches.cancel_mem_iff (h : Reaches surroundings rules outcome)
    (hnodup : ((rules.filter (survives surroundings.observe)).map Rule.id).Nodup) {rule : Rule}
    (hmem : rule ∈ rules.filter (survives surroundings.observe)) :
    .cancel rule.id ∈ outcome.events ↔ rule ∉ outcome.rules := by
  obtain ⟨_, _, _, hhandles, hrules⟩ := h
  rw [← hrules] at hmem hnodup
  obtain ⟨polled, hpolled, rfl⟩ := List.mem_map.mp hmem
  rw [List.map_map] at hnodup
  exact hhandles.cancel_mem_iff hnodup hpolled

/-- A call that ends before the second pass. -/
theorem reaches_early (surroundings : Surroundings) (rules : List Rule) {ending : Ending}
    (h : ∀ idx, ending ≠ .outOfBounds idx) :
    Reaches surroundings rules ⟨rules.filter (survives surroundings.observe), [], ending⟩ :=
  have hrules := map_fst_polledRules surroundings rules
  ⟨[], polledRules surroundings rules, [], ⟨hrules.symm, rfl, h, .inl rfl⟩, hrules⟩

theorem reaches_dispatch (all : List Polled)
    (h : all.map Prod.fst = rules.filter (survives surroundings.observe)) :
    Reaches surroundings rules (dispatch surroundings.observe (all.map Prod.snd) 0
      (rules.filter (survives surroundings.observe))) := by
  obtain ⟨handled, rest, called, outcome, hdispatch, hsplit, hhandles, -⟩ :=
    dispatch_cases 0 all List.drop_zero
  rw [← h, hdispatch]
  exact ⟨handled, rest, called, hhandles, by rw [← hsplit, h]⟩

/-- What a call can do: the second pass comes some way, possibly none at all. -/
theorem waitRules_cases (surroundings : Surroundings) (rules : List Rule) :
    ∃ outcome, Reaches surroundings rules outcome ∧ waitRules surroundings rules =
      { outcome with events := setupEvents surroundings rules ++ outcome.events } := by
  have hearly (result : Result) : ∃ outcome, Reaches surroundings rules outcome ∧
      (⟨rules.filter (survives surroundings.observe), setupEvents surroundings rules,
        .returned result⟩ : Outcome) =
        { outcome with events := setupEvents surroundings rules ++ outcome.events } := by
    have hreaches : Reaches surroundings rules
        ⟨rules.filter (survives surroundings.observe), [], .returned result⟩ :=
      reaches_early surroundings rules nofun
    exact ⟨_, hreaches, by rw [List.append_nil]⟩
  have hvector := writeRevents_setup surroundings rules
  unfold waitRules systemCall
  rw [setup_eq] at hvector ⊢
  dsimp only at hvector ⊢
  split_ifs with hnothing hok
  · exact hearly .exit
  · dsimp only
    split_ifs
    · exact hearly .timeout
    · rw [hvector]
      exact ⟨_, reaches_dispatch _ (map_fst_polledRules surroundings rules), rfl⟩
  · dsimp only
    split_ifs
    · exact hearly .exit
    · -- The vector is as it was set up.
      set survivors := rules.filter (survives surroundings.observe)
      have hrules : (survivors.map fun rule ↦ (rule, pollfdFor surroundings.observe rule)).map Prod.fst =
          survivors := by
        simp [Function.comp_def]
      have hentries : (survivors.map fun rule ↦ (rule, pollfdFor surroundings.observe rule)).map Prod.snd =
          survivors.map (pollfdFor surroundings.observe) := by
        simp [Function.comp_def]
      rw [← hentries]
      exact ⟨_, reaches_dispatch _ hrules, rfl⟩

/-- `poll` is called and reports no error. -/
structure Surroundings.PollsCleanly (surroundings : Surroundings) (rules : List Rule) : Prop where
  something : (setup surroundings.observe rules).somethingToPoll = true
  polled : 0 < toInt surroundings.poll.returnValue
  noError : ∀ idx < (rules.filter (survives surroundings.observe)).length,
    surroundings.revents idx &&& (pollErr ||| pollNval) = 0

/-- If `poll` reports no error, all rules are dealt with, or the call ends with the exception about busy
waiting. -/
theorem waitRules_of_pollsCleanly (h : surroundings.PollsCleanly rules) :
    ∃ handled rest called outcome, polledRules surroundings rules = handled ++ rest ∧
      Handles handled rest called outcome ∧
      waitRules surroundings rules =
        { outcome with events := setupEvents surroundings rules ++ outcome.events } ∧
      (rest = [] ∧ outcome.ending = .returned .success ∨
        outcome.ending = .threw busyWait ∧
          ∃ polled ∈ polledRules surroundings rules, polled.isBusy surroundings.observe = true) := by
  have hrules := map_fst_polledRules surroundings rules
  obtain ⟨handled, rest, called, outcome, hdispatch, hsplit, hhandles, hending⟩ :=
    dispatch_cases 0 (polledRules surroundings rules) List.drop_zero
  refine ⟨handled, rest, called, outcome, hsplit, hhandles, ?_, ?_⟩
  · have hsystem : systemCall "poll" surroundings.poll = .ok (toInt surroundings.poll.returnValue) :=
      systemCall_of_nonneg h.polled.le
    unfold waitRules
    dsimp only
    rw [h.something, hsystem]
    dsimp only
    rw [if_neg (by decide), if_neg h.polled.ne', writeRevents_setup, ← hdispatch, hrules, setup_eq]
    rfl
  · refine hending.imp_right (Or.resolve_right · ?_)
    rintro ⟨polled, hpolled, herror⟩
    obtain ⟨idx, hidx, rfl⟩ := List.mem_mapIdx.mp hpolled
    have hnone := h.noError idx hidx
    simp [PollFd.pollError, polledAt, hnone] at herror

/-- The vector is never read outside of its bounds. -/
theorem waitRules_inBounds (surroundings : Surroundings) (rules : List Rule) (idx : ℕ) :
    (waitRules surroundings rules).ending ≠ .outOfBounds idx := by
  obtain ⟨outcome, ⟨_, _, _, hhandles, -⟩, hwait⟩ := waitRules_cases surroundings rules
  rw [hwait]
  exact hhandles.inBounds idx

theorem waitRules_sublist (surroundings : Surroundings) (rules : List Rule) :
    (waitRules surroundings rules).rules.Sublist rules := by
  obtain ⟨outcome, hreaches, hwait⟩ := waitRules_cases surroundings rules
  rw [hwait]
  exact hreaches.rules_sublist.trans List.filter_sublist

section

variable (hnodup : (rules.map Rule.id).Nodup)
include hnodup

theorem nodup_survivors (surroundings : Surroundings) :
    ((rules.filter (survives surroundings.observe)).map Rule.id).Nodup :=
  hnodup.sublist (List.filter_sublist.map Rule.id)

/-- The rules of the second pass are not those that the first pass has cancelled. -/
theorem nodup_setup (surroundings : Surroundings) :
    ((setupEvents surroundings rules).map Event.id ++
      (rules.filter (survives surroundings.observe)).map Rule.id).Nodup := by
  have hids : (setupEvents surroundings rules).map Event.id =
      (rules.filter (!survives surroundings.observe ·)).map Rule.id := by
    simp [setupEvents, Function.comp_def, Event.id]
  have hperm := List.perm_append_comm.trans (List.filter_append_perm (survives surroundings.observe) rules)
  rw [hids, ← List.map_append]
  exact (hperm.map Rule.id).nodup_iff.mpr hnodup

/-- In one call each rule has at most one event. -/
theorem nodup_waitRules_events (surroundings : Surroundings) :
    ((waitRules surroundings rules).events.map Event.id).Nodup := by
  obtain ⟨outcome, hreaches, hwait⟩ := waitRules_cases surroundings rules
  rw [hwait, List.map_append]
  exact (nodup_setup hnodup surroundings).sublist ((List.Sublist.refl _).append hreaches.events_sublist)

theorem cancel_mem_setupEvents {rule : Rule} (hmem : rule ∈ rules) :
    .cancel rule.id ∈ setupEvents surroundings rules ↔ survives surroundings.observe rule = false := by
  unfold setupEvents
  rw [List.mem_map]
  constructor
  · rintro ⟨other, hother, hid⟩
    obtain ⟨hin, hremoved⟩ := List.mem_filter.mp hother
    obtain rfl := List.inj_on_of_nodup_map hnodup hin hmem (Event.cancel.inj hid)
    simpa using hremoved
  · intro hremoved
    exact ⟨rule, List.mem_filter.mpr ⟨hmem, by simp [hremoved]⟩, rfl⟩

/-- A rule is cancelled exactly if it leaves the list. -/
theorem cancel_mem_waitRules_iff (surroundings : Surroundings) {rule : Rule} (hmem : rule ∈ rules) :
    .cancel rule.id ∈ (waitRules surroundings rules).events ↔
      rule ∉ (waitRules surroundings rules).rules := by
  obtain ⟨outcome, hreaches, hwait⟩ := waitRules_cases surroundings rules
  rw [hwait]
  dsimp only
  rw [List.mem_append, cancel_mem_setupEvents hnodup hmem]
  cases hsurvives : survives surroundings.observe rule with
  | false =>
    refine iff_of_true (.inl rfl) fun hleft ↦ ?_
    have hkept := (List.mem_filter.mp (hreaches.rules_sublist.subset hleft)).2
    rw [hsurvives] at hkept
    contradiction
  | true =>
    have hsecond := hreaches.cancel_mem_iff (nodup_survivors hnodup surroundings)
      (List.mem_filter.mpr ⟨hmem, hsurvives⟩)
    rw [hsecond]
    exact or_iff_right nofun

/-- The first pass cancels none of the rules that it keeps. -/
theorem count_setupEvents {rule : Rule} (hmem : rule ∈ rules.filter (survives surroundings.observe))
    {event : Event} (hid : event.id = rule.id) : (setupEvents surroundings rules).count event = 0 := by
  apply List.count_eq_zero_of_not_mem
  intro hevent
  refine (List.nodup_append'.mp (nodup_setup hnodup surroundings)).2.2 (List.mem_map_of_mem hevent) ?_
  rw [hid]
  exact List.mem_map_of_mem hmem

/-- The second pass calls no function of a rule that is not in the list any more. -/
theorem count_of_removed (hreaches : Reaches surroundings rules outcome) {rule : Rule} (hmem : rule ∈ rules)
    (hremoved : survives surroundings.observe rule = false) {event : Event} (hid : event.id = rule.id) :
    outcome.events.count event = 0 := by
  apply List.count_eq_zero_of_not_mem
  intro hevent
  have hsurvivor := hreaches.events_sublist.subset (List.mem_map_of_mem hevent)
  have hcancelled := List.mem_map_of_mem (f := Event.id) ((cancel_mem_setupEvents hnodup hmem).mpr hremoved)
  rw [hid] at hsurvivor
  exact (List.nodup_append'.mp (nodup_setup hnodup surroundings)).2.2 hcancelled hsurvivor

/-- A rule that the first pass removes is cancelled once, and its callback is not called. -/
theorem removed_at_setup (surroundings : Surroundings) {rule : Rule} (hmem : rule ∈ rules)
    (hremoved : survives surroundings.observe rule = false) :
    (waitRules surroundings rules).events.count (.callback rule.id) = 0 ∧
      (waitRules surroundings rules).events.count (.cancel rule.id) = 1 ∧
      rule ∉ (waitRules surroundings rules).rules := by
  have hcancelled := (cancel_mem_setupEvents hnodup hmem).mpr hremoved
  have hleft : rule ∉ (waitRules surroundings rules).rules := by
    rw [← cancel_mem_waitRules_iff hnodup surroundings hmem]
    obtain ⟨outcome, -, hwait⟩ := waitRules_cases surroundings rules
    rw [hwait]
    exact List.mem_append_left _ hcancelled
  have honce : (setupEvents surroundings rules).count (.cancel rule.id) = 1 := by
    apply List.count_eq_one_of_mem _ hcancelled
    exact List.Nodup.of_map Event.id ((List.nodup_append'.mp (nodup_setup hnodup surroundings)).1)
  have hnoCallback : (setupEvents surroundings rules).count (.callback rule.id) = 0 := by
    apply List.count_eq_zero_of_not_mem
    simp [setupEvents]
  obtain ⟨outcome, hreaches, hwait⟩ := waitRules_cases surroundings rules
  refine ⟨?_, ?_, hleft⟩
  · rw [hwait, List.count_append, hnoCallback, count_of_removed hnodup hreaches hmem hremoved rfl]
  · rw [hwait, List.count_append, honce, count_of_removed hnodup hreaches hmem hremoved rfl]

/-- What a rule of the second pass can see of its own entry, and of no other one. -/
theorem count_waitRules (h : surroundings.PollsCleanly rules) :
    ∀ idx rule, (rules.filter (survives surroundings.observe))[idx]? = some rule → ∀ event : Event,
      event.id = rule.id →
        (waitRules surroundings rules).events.count event ≤
            (polledAt surroundings idx rule).event.count event ∧
          ((waitRules surroundings rules).ending = .returned .success →
            (waitRules surroundings rules).events.count event =
              (polledAt surroundings idx rule).event.count event) := by
  obtain ⟨handled, rest, called, outcome, hsplit, hhandles, hwait, hending⟩ := waitRules_of_pollsCleanly h
  have hids : (polledRules surroundings rules).map (·.1.id) =
      (rules.filter (survives surroundings.observe)).map Rule.id := by
    rw [← map_fst_polledRules, List.map_map]
    rfl
  rw [hwait]
  intro idx rule hrule event hid
  have hmem := List.mem_of_getElem? hrule
  have hpolled : polledAt surroundings idx rule ∈ polledRules surroundings rules := by
    apply List.mem_of_getElem? (i := idx)
    rw [polledRules, List.getElem?_mapIdx, hrule]
    rfl
  have hown := count_flatMap_event (hids ▸ nodup_survivors hnodup surroundings) hpolled hid
  rw [List.count_append, count_setupEvents hnodup hmem hid, Nat.zero_add, hhandles.events, ← hown]
  refine ⟨(hsplit ▸ hhandles.called_sublist.flatMap Polled.event).count_le event, fun hsuccess ↦ ?_⟩
  have hnone : rest = [] := by
    cases hending with
    | inl hdone => exact hdone.1
    | inr hbusy => exact absurd (hsuccess.symm.trans hbusy.1) nofun
  have hall : called = handled := by
    cases hhandles.progress with
    | inl hall => exact hall
    | inr hbusy =>
      obtain ⟨polled, later, hrest, -⟩ := hbusy
      exact absurd (hnone.symm.trans hrest) nofun
  rw [hall, hsplit, hnone, List.append_nil]

/-- What a call does with each rule, if `poll` reports no error. -/
structure Dispatches (surroundings : Surroundings) (rules : List Rule) (outcome : Outcome) : Prop where
  /-- The rules that are not removed at setup have one entry each, in their order. -/
  entries : (setup surroundings.observe rules).pollfds =
    (rules.filter (survives surroundings.observe)).map (pollfdFor surroundings.observe)
  removed : ∀ rule ∈ rules, survives surroundings.observe rule = false →
    outcome.events.count (.callback rule.id) = 0 ∧ outcome.events.count (.cancel rule.id) = 1 ∧
      rule ∉ outcome.rules
  atMost : ∀ idx rule, (rules.filter (survives surroundings.observe))[idx]? = some rule →
    outcome.events.count (.callback rule.id) ≤ (surroundings.ready idx rule).toNat ∧
      outcome.events.count (.cancel rule.id) ≤ (surroundings.hungUp idx rule).toNat
  exactly : outcome.ending = .returned .success →
    ∀ idx rule, (rules.filter (survives surroundings.observe))[idx]? = some rule →
      outcome.events.count (.callback rule.id) = (surroundings.ready idx rule).toNat ∧
        outcome.events.count (.cancel rule.id) = (surroundings.hungUp idx rule).toNat ∧
        (rule ∉ outcome.rules ↔ surroundings.hungUp idx rule = true)
  ends : outcome.ending = .returned .success ∨ outcome.ending = .threw busyWait ∧
    ∃ idx rule, (rules.filter (survives surroundings.observe))[idx]? = some rule ∧
      surroundings.ready idx rule = true ∧ (surroundings.observe rule.id).isBusy = true

/-- What a call does when `poll` reports no error. -/
theorem dispatches_waitRules (h : surroundings.PollsCleanly rules) :
    Dispatches surroundings rules (waitRules surroundings rules) where
  entries := by rw [setup_eq]
  removed _ hmem hremoved := removed_at_setup hnodup surroundings hmem hremoved
  atMost idx rule hrule := by
    obtain ⟨hcallback, hcancel⟩ := event_polledAt surroundings idx rule
    rw [← hcallback, ← hcancel]
    exact ⟨(count_waitRules hnodup h idx rule hrule _ rfl).1,
      (count_waitRules hnodup h idx rule hrule _ rfl).1⟩
  exactly hsuccess idx rule hrule := by
    obtain ⟨hcallback, hcancel⟩ := event_polledAt surroundings idx rule
    have hcancels := (count_waitRules hnodup h idx rule hrule (.cancel rule.id) rfl).2 hsuccess
    rw [hcancel] at hcancels
    refine ⟨?_, hcancels, ?_⟩
    · rw [← hcallback]
      exact (count_waitRules hnodup h idx rule hrule _ rfl).2 hsuccess
    · have hmem := List.mem_of_mem_filter (List.mem_of_getElem? hrule)
      rw [← cancel_mem_waitRules_iff hnodup surroundings hmem, ← List.count_pos_iff, hcancels]
      cases surroundings.hungUp idx rule <;> simp
  ends := by
    obtain ⟨_, _, _, _, -, -, hwait, hending⟩ := waitRules_of_pollsCleanly h
    rw [hwait]
    refine hending.imp And.right (And.imp_right ?_)
    rintro ⟨polled, hpolled, hbusy⟩
    obtain ⟨idx, hidx, rfl⟩ := List.mem_mapIdx.mp hpolled
    rw [Polled.isBusy, pollReady_polledAt, Bool.and_eq_true_iff] at hbusy
    exact ⟨idx, _, List.getElem?_eq_getElem hidx, hbusy⟩

end

end EventLoop

/-! ## Runs -/

/-- Waits for events on file descriptors and executes corresponding callbacks.  The identities of the
rules are different, and the next one to be given away is new. -/
structure EventLoop where
  rules : List EventLoop.Rule
  nextId : ℕ
  nodup : (rules.map EventLoop.Rule.id).Nodup
  fresh : ∀ rule ∈ rules, rule.id < nextId

namespace EventLoop

open Poll Execution

variable {loop : EventLoop} {surroundings : Surroundings}

def new : EventLoop where
  rules := []
  nextId := 0
  nodup := List.nodup_nil
  fresh _ hrule := absurd hrule List.not_mem_nil

/-- Add a rule whose callback will be called when the descriptor is ready. -/
def addRule (loop : EventLoop) (fdNum : ℤ) (direction : Direction) : EventLoop where
  rules := loop.rules ++ [⟨loop.nextId, fdNum, direction⟩]
  nextId := loop.nextId + 1
  nodup := by
    rw [List.map_append, List.nodup_append']
    refine ⟨loop.nodup, List.nodup_singleton _, ?_⟩
    intro id hold hnew
    obtain ⟨rule, hrule, rfl⟩ := List.mem_map.mp hold
    exact absurd (loop.fresh rule hrule) (List.mem_singleton.mp hnew).ge.not_gt
  fresh := by
    intro rule hrule
    cases List.mem_append.mp hrule with
    | inl hold => exact Nat.lt_succ_of_lt (loop.fresh rule hold)
    | inr hnew =>
      rw [List.mem_singleton.mp hnew]
      exact Nat.lt_succ_self _

/-- Call `poll` and then execute the callback for each ready descriptor: the loop afterwards. -/
def waitNextEvent (loop : EventLoop) (surroundings : Surroundings) : EventLoop where
  rules := (waitRules surroundings loop.rules).rules
  nextId := loop.nextId
  nodup := loop.nodup.sublist ((waitRules_sublist surroundings loop.rules).map Rule.id)
  fresh rule hrule := loop.fresh rule ((waitRules_sublist surroundings loop.rules).subset hrule)

inductive Call where
  | addRule (fdNum : ℤ) (direction : Direction)
  | waitNextEvent (surroundings : Surroundings)

/-- A loop, and all functions of rules that have been called so far. -/
structure Logged where
  loop : EventLoop := new
  log : List Event := []

def Logged.step (logged : Logged) : Call → Logged
  | .addRule fdNum direction => { logged with loop := logged.loop.addRule fdNum direction }
  | .waitNextEvent surroundings =>
      { loop := logged.loop.waitNextEvent surroundings
        log := logged.log ++ (waitRules surroundings logged.loop.rules).events }

/-- Nothing is heard of a rule after its cancellation, and a cancelled rule is not in the loop. -/
structure Logged.Settled (logged : Logged) : Prop where
  silent : logged.log.Pairwise fun first later ↦ first ≠ .cancel later.id
  gone : ∀ id, .cancel id ∈ logged.log →
    id < logged.loop.nextId ∧ ∀ rule ∈ logged.loop.rules, rule.id ≠ id

/-- The functions that a call calls are those of rules in the loop. -/
theorem exists_rule_of_event {event : Event}
    (h : event ∈ (waitRules surroundings loop.rules).events) : ∃ rule ∈ loop.rules, rule.id = event.id := by
  obtain ⟨outcome, hreaches, hwait⟩ := waitRules_cases surroundings loop.rules
  rw [hwait] at h
  cases List.mem_append.mp h with
  | inl hsetup =>
    obtain ⟨rule, hrule, rfl⟩ := List.mem_map.mp hsetup
    exact ⟨rule, List.mem_of_mem_filter hrule, rfl⟩
  | inr hsecond =>
    obtain ⟨rule, hrule, hid⟩ :=
      List.mem_map.mp (hreaches.events_sublist.subset (List.mem_map_of_mem hsecond))
    exact ⟨rule, List.mem_of_mem_filter hrule, hid⟩

theorem Logged.Settled.step {logged : Logged} (h : logged.Settled) (call : Call) :
    (logged.step call).Settled := by
  cases call with
  | addRule fdNum direction =>
    refine ⟨h.silent, fun id hid ↦ ?_⟩
    obtain ⟨hless, hgone⟩ := h.gone id hid
    refine ⟨Nat.lt_succ_of_lt hless, fun rule hrule ↦ ?_⟩
    cases List.mem_append.mp hrule with
    | inl hold => exact hgone rule hold
    | inr hnew =>
      rw [List.mem_singleton.mp hnew]
      exact hless.ne'
  | waitNextEvent surroundings =>
    constructor
    case silent =>
      refine List.pairwise_append.mpr ⟨h.silent, ?_, ?_⟩
      · -- Within the call, each rule has at most one event.
        have honce := nodup_waitRules_events logged.loop.nodup surroundings
        refine (List.pairwise_map.mp honce).imp fun hne heq ↦ hne ?_
        rw [heq]
        rfl
      · rintro first hfirst later hlater rfl
        obtain ⟨rule, hrule, hid⟩ := exists_rule_of_event hlater
        exact (h.gone _ hfirst).2 rule hrule hid
    case gone =>
      intro id hid
      cases List.mem_append.mp hid with
      | inl hbefore =>
        obtain ⟨hless, hgone⟩ := h.gone id hbefore
        exact ⟨hless, fun rule hrule ↦
          hgone rule ((waitRules_sublist surroundings logged.loop.rules).subset hrule)⟩
      | inr hnow =>
        obtain ⟨rule, hrule, rfl⟩ := exists_rule_of_event hnow
        refine ⟨logged.loop.fresh rule hrule, fun other hother hsame ↦ ?_⟩
        have hin := (waitRules_sublist surroundings logged.loop.rules).subset hother
        obtain rfl := List.inj_on_of_nodup_map logged.loop.nodup hin hrule hsame
        exact (cancel_mem_waitRules_iff logged.loop.nodup surroundings hin).mp hnow hother

/-- Nothing is heard of a rule after its cancellation, in any run. -/
theorem Logged.settled_run (calls : List Call) : (run Logged.step {} calls).Settled :=
  run_invariant Logged.Settled (fun _ call hbefore ↦ hbefore.step call)
    ⟨List.Pairwise.nil, fun _ hid ↦ absurd hid List.not_mem_nil⟩

/-- The events of `poll` reach the rules that they are for.  A call reads no entry outside of the vector,
keeps the order of the rules, and removes a rule exactly with its cancellation.  If `poll` reports no
error, each rule has the event that its own entry asks for, unless the exception about busy waiting comes
first.  In a run of calls no function of a rule is called after its cancellation. -/
theorem events_reach_their_rules :
    (∀ (loop : EventLoop) (surroundings : Surroundings), surroundings.PollsCleanly loop.rules →
      Dispatches surroundings loop.rules (waitRules surroundings loop.rules)) ∧
    (∀ (loop : EventLoop) (surroundings : Surroundings),
      (∀ idx, (waitRules surroundings loop.rules).ending ≠ .outOfBounds idx) ∧
      (waitRules surroundings loop.rules).rules.Sublist loop.rules ∧
      ((waitRules surroundings loop.rules).events.map Event.id).Nodup ∧
      ∀ rule ∈ loop.rules, .cancel rule.id ∈ (waitRules surroundings loop.rules).events ↔
        rule ∉ (waitRules surroundings loop.rules).rules) ∧
    ∀ calls : List Call, (run Logged.step {} calls).log.Pairwise
      fun first later ↦ first ≠ .cancel later.id :=
  ⟨fun loop _ hclean ↦ dispatches_waitRules loop.nodup hclean,
    fun loop surroundings ↦ ⟨waitRules_inBounds surroundings loop.rules,
      waitRules_sublist surroundings loop.rules, nodup_waitRules_events loop.nodup surroundings,
      fun _ hmem ↦ cancel_mem_waitRules_iff loop.nodup surroundings hmem⟩,
    fun calls ↦ (Logged.settled_run calls).silent⟩

/-- Of three rules the first is at its end, the second hangs up, and the third is ready. -/
theorem events_reach_three_rules :
    ∃ (loop : EventLoop) (surroundings : Surroundings), loop.rules.length = 3 ∧
      surroundings.PollsCleanly loop.rules ∧
      Dispatches surroundings loop.rules (waitRules surroundings loop.rules) ∧
      waitRules surroundings loop.rules =
        ⟨[⟨2, 5, .In⟩], [.cancel 0, .cancel 1, .callback 2], .returned .success⟩ := by
  let loop : EventLoop := ((new.addRule 3 .In).addRule 4 .Out).addRule 5 .In
  let surroundings : Surroundings :=
    { observe := fun id ↦ { eof := id == 0 }
      poll := ⟨2, 0⟩
      revents := fun idx ↦ if idx = 0 then pollHup else pollIn }
  have hclean : surroundings.PollsCleanly loop.rules := by
    refine ⟨by decide, by decide, fun idx _ ↦ ?_⟩
    have hrevents : surroundings.revents idx = if idx = 0 then pollHup else pollIn := rfl
    rw [hrevents]
    split_ifs <;> decide
  exact ⟨loop, surroundings, rfl, hclean, events_reach_their_rules.1 loop surroundings hclean,
    by decide⟩

end EventLoop

end Sponge
