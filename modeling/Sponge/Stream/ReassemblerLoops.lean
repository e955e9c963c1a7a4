import Sponge.Stream.StreamReassembler

/-!
# The three stages of a push

A push that brings something new takes its range out of the free intervals, links its string into
the sorted list and moves what has become contiguous to the output.  Each stage is described here
once: `calculateStoredBytes_eq` (the intervals are cut), `storeString_spec` (one string is added or
the longer of two is kept) and `assembleLoop_spec` (the list is worked off from the front).
-/

namespace Sponge.StreamReassembler

open Intervals OrderedKeys

variable {l r index : ℕ} {it : ℕ × ℕ} {tmp data : List UInt8} {position : ℕ}
  {used intervals : List (ℕ × ℕ)} {cells : List Waiting}
  {reassembler : StreamReassembler}

/-! ## Free intervals -/

/-- The range from `l` to `r` reaches the interval. -/
def Touches (l r : ℕ) (it : ℕ × ℕ) : Prop := ¬ (l ≥ it.2 ∨ r ≤ it.1)

instance (l r : ℕ) (it : ℕ × ℕ) : Decidable (Touches l r it) :=
  inferInstanceAs (Decidable (¬ _))

theorem cut_of_not_touches (h : ¬ Touches l r it) : cut l r it = [it] := by
  unfold cut
  exact if_pos (not_not.mp h)

theorem overlap_of_not_touches (h : ¬ Touches l r it) : overlap l r it = 0 := by
  have hreach : l ≥ it.2 ∨ r ≤ it.1 := not_not.mp h
  unfold overlap
  omega

/-- What the visit of a list of intervals records. -/
def record (l r : ℕ) (visited : List (ℕ × ℕ)) (removal : Removal) : Removal where
  storedBytes := removal.storedBytes + (visited.map (overlap l r)).sum
  needToErase := removal.needToErase ++ visited.filter (Touches l r)
  needToInsert := removal.needToInsert ++ (visited.filter (Touches l r)).flatMap (cut l r)

/-- One visit records what the overlap and the cut of an interval are. -/
theorem removeSegement_eq_record (hrange : l ≤ r) (hit : it.1 < it.2) (removal : Removal) :
    removeSegement it l r removal = record l r [it] removal := by
  unfold removeSegement record
  by_cases htouch : Touches l r it
  · rw [if_neg htouch]
    have hfilter : [it].filter (Touches l r) = [it] := by simp [htouch]
    have hcut : cut l r it = (if it.1 < l then [(it.1, l)] else []) ++
        if r < it.2 then [(r, it.2)] else [] := if_neg htouch
    have hreach : ¬ (l ≥ it.2 ∨ r ≤ it.1) := htouch
    rw [hfilter, List.flatMap_singleton, hcut, List.map_singleton, List.sum_singleton]
    by_cases hinside : l ≥ it.1
    · have hcount : Word.sub (min r it.2) l = overlap l r it := by
        rw [Word.sub_of_le (by omega), overlap, max_eq_left hinside]
      simp only [if_pos hinside, hcount, gt_iff_lt, List.append_assoc]
    · have hnot : ¬ it.1 < l := by omega
      have hcount : Word.sub (min r it.2) it.1 = overlap l r it := by
        rw [Word.sub_of_le (by omega), overlap, max_eq_right (by omega)]
      simp only [if_neg hinside, if_neg hnot, hcount, gt_iff_lt, List.nil_append]
  · rw [if_pos (not_not.mp htouch)]
    simp [htouch, overlap_of_not_touches htouch]

/-- The loop records this for every interval that it visits. -/
theorem removeLoop_eq_record (hrange : l ≤ r) {itL itR : ℕ} (horder : itL ≤ itR)
    (hvalid : ∀ it ∈ intervals, it.1 < it.2) (removal : Removal) :
    removeLoop l r itR intervals itL removal =
      record l r (intervals.take (itR - itL + 1)) removal := by
  induction intervals generalizing itL removal with
  | nil => simp [removeLoop, record]
  | cons it rest ih =>
    have hhead := removeSegement_eq_record hrange (hvalid it (by simp)) removal
    unfold removeLoop
    dsimp only
    rw [hhead, List.take_succ_cons]
    split_ifs with hlast
    · simp [hlast]
    · rw [ih (by omega) fun next hnext ↦ hvalid next (List.mem_cons_of_mem it hnext)]
      have hcount : itR - itL = itR - (itL + 1) + 1 := by omega
      rw [hcount]
      by_cases htouch : Touches l r it <;>
        simp [record, htouch, Nat.add_assoc, List.append_assoc]

/-- The interval just before the lower bound of `l` starts below `l`, so the earlier ones end before
it. -/
theorem not_touches_of_mem_take (hseparated : Separated used) {it : ℕ × ℕ}
    (hit : it ∈ used.take (lowerBound toLex (toLex (l, l)) used - 1)) : ¬ Touches l r it := by
  set lower := lowerBound toLex (toLex (l, l)) used with hlower
  have hle : lower ≤ used.length := lowerBound_le _
  obtain ⟨position, hposition, rfl⟩ := List.mem_take_iff_getElem.mp hit
  have hlength : lower - 1 < used.length := by omega
  have hmem : used[lower - 1] ∈ used.take lower :=
    List.mem_take_iff_getElem.mpr ⟨lower - 1, by omega, rfl⟩
  have hbelow := Prod.Lex.toLex_lt_toLex.mp (lt_of_mem_take_lowerBound toLex hmem)
  have hnonempty := hseparated.nonempty _ (List.getElem_mem hlength)
  have hgap := List.pairwise_iff_getElem.mp hseparated.disjoint position (lower - 1)
    (by omega) hlength (by omega)
  unfold Touches
  dsimp only at hbelow
  omega

theorem not_touches_of_mem_drop (hseparated : Separated used) {it : ℕ × ℕ}
    (hit : it ∈ used.drop (lowerBound toLex (toLex (r, r)) used)) : ¬ Touches l r it := by
  have habove := le_of_mem_drop_lowerBound toLex hseparated.ordered hit
  have hfirst : r ≤ it.1 := by
    cases Prod.Lex.toLex_le_toLex.mp habove with
    | inl hlt => exact hlt.le
    | inr heq => exact heq.1.le
  exact not_not.mpr (.inr hfirst)

theorem record_append_of_not_touches {before visited after : List (ℕ × ℕ)}
    (hbefore : ∀ it ∈ before, ¬ Touches l r it) (hafter : ∀ it ∈ after, ¬ Touches l r it)
    (removal : Removal) :
    record l r (before ++ (visited ++ after)) removal = record l r visited removal := by
  have hnone (others : List (ℕ × ℕ)) (h : ∀ it ∈ others, ¬ Touches l r it) :
      others.filter (Touches l r) = [] ∧ (others.map (overlap l r)).sum = 0 := by
    refine ⟨List.filter_eq_nil_iff.mpr (by simpa using h), List.sum_eq_zero ?_⟩
    intro count hcount
    obtain ⟨it, hit, rfl⟩ := List.mem_map.mp hcount
    exact overlap_of_not_touches (h it hit)
  simp only [record, List.filter_append, List.map_append, List.sum_append,
    (hnone _ hbefore).1, (hnone _ hbefore).2, (hnone _ hafter).1, (hnone _ hafter).2,
    List.nil_append, List.append_nil, Nat.zero_add, Nat.add_zero]

/-- Intervals outside the range of the loop are not reached, so the loop may as well visit all. -/
theorem record_window (hseparated : Separated used) {lower itL itR : ℕ}
    (hlower : lower = lowerBound toLex (toLex (l, l)) used)
    (hitR : itR = lowerBound toLex (toLex (r, r)) used)
    (hitL : itL = if lower ≠ 0 then lower - 1 else lower) (removal : Removal) :
    record l r ((used.drop itL).take (itR - itL + 1)) removal = record l r used removal := by
  have hstart : itL = lowerBound toLex (toLex (l, l)) used - 1 := by
    rw [hitL, hlower]
    split_ifs <;> omega
  have hbefore (it : ℕ × ℕ) (hit : it ∈ used.take itL) : ¬ Touches l r it :=
    not_touches_of_mem_take hseparated (hstart ▸ hit)
  have hafter (it : ℕ × ℕ) (hit : it ∈ (used.drop itL).drop (itR - itL + 1)) :
      ¬ Touches l r it := by
    rw [List.drop_drop] at hit
    apply not_touches_of_mem_drop hseparated
    rw [← hitR]
    exact List.drop_subset_drop_left used (by omega) hit
  calc
    record l r ((used.drop itL).take (itR - itL + 1)) removal
        = record l r (used.take itL ++ ((used.drop itL).take (itR - itL + 1) ++
            (used.drop itL).drop (itR - itL + 1))) removal :=
          (record_append_of_not_touches hbefore hafter removal).symm
    _ = record l r used removal := by rw [List.take_append_drop, List.take_append_drop]

/-- Erasing the reached intervals and inserting what is left of them cuts the range out. -/
theorem replace_eq_flatMap_cut (hseparated : Separated used) (hrange : l ≤ r) :
    insertAll toLex ((used.filter (Touches l r)).flatMap (cut l r))
      (eraseAll toLex (used.filter (Touches l r)) used) = used.flatMap (cut l r) := by
  have hinjective : Function.Injective (toLex : ℕ × ℕ → ℕ ×ₗ ℕ) := toLex.injective
  refine (hseparated.ordered.eraseAll.insertAll).eq_of_mem_iff
    (hseparated.flatMap_cut hrange).ordered fun piece ↦ ?_
  rw [mem_insertAll hinjective, mem_eraseAll hinjective]
  simp only [List.mem_flatMap, List.mem_filter, decide_eq_true_eq]
  constructor
  · rintro (⟨it, ⟨hit, -⟩, hpiece⟩ | ⟨hpiece, huntouched⟩)
    · exact ⟨it, hit, hpiece⟩
    · have hnot : ¬ Touches l r piece := fun htouch ↦ huntouched ⟨hpiece, htouch⟩
      exact ⟨piece, hpiece, by simp [cut_of_not_touches hnot]⟩
  · rintro ⟨it, hit, hpiece⟩
    by_cases htouch : Touches l r it
    · exact .inl ⟨it, ⟨hit, htouch⟩, hpiece⟩
    · rw [cut_of_not_touches htouch, List.mem_singleton] at hpiece
      subst hpiece
      exact .inr ⟨hit, fun hboth ↦ htouch hboth.2⟩

/-- The count goes up by the positions of the range that were free, and these are free no more. -/
theorem calculateStoredBytes_eq (hseparated : Separated reassembler.usedByte) (index size : ℕ) :
    reassembler.calculateStoredBytes index size =
      { reassembler with
        storedBytes := reassembler.storedBytes +
          (reassembler.usedByte.map (overlap index (index + size))).sum
        usedByte := reassembler.usedByte.flatMap (cut index (index + size)) } := by
  have hrange : index ≤ index + size := Nat.le_add_right index size
  have hmono : lowerBound toLex (toLex (index, index)) reassembler.usedByte ≤
      lowerBound toLex (toLex (index + size, index + size)) reassembler.usedByte := by
    have hle : toLex (index, index) ≤ toLex (index + size, index + size) :=
      Prod.Lex.toLex_mono (Prod.mk_le_mk.mpr ⟨hrange, hrange⟩)
    refine List.findIdx_le_findIdx fun it _ hit ↦ ?_
    exact decide_eq_true (hle.trans (of_decide_eq_true hit))
  unfold calculateStoredBytes
  dsimp only
  rw [removeLoop_eq_record hrange _ fun it hit ↦ hseparated.nonempty it (List.mem_of_mem_drop hit),
    record_window hseparated rfl rfl rfl]
  · simp only [record, List.nil_append, replace_eq_flatMap_cut hseparated hrange]
  · split_ifs <;> omega

/-! ## The sorted list and its map -/

/-- The list is sorted by index, and the map sends each index to the node that has it. -/
structure Linked (cells : List Waiting) (existed : List (ℕ × ℕ)) (nextId : ℕ) :
    Prop where
  sorted : cells.Pairwise fun first second ↦ first.value.2 < second.value.2
  distinct : cells.Pairwise fun first second ↦ first.id ≠ second.id
  fresh : ∀ cell ∈ cells, cell.id < nextId
  existed_eq : existed = cells.map fun cell ↦ (cell.value.2, cell.id)

theorem Linked.tail {cell : Waiting} {existed : List (ℕ × ℕ)} {nextId : ℕ}
    (h : Linked (cell :: cells) existed nextId) :
    Linked cells (erase Prod.fst cell.value.2 existed) nextId where
  sorted := (List.pairwise_cons.mp h.sorted).2
  distinct := (List.pairwise_cons.mp h.distinct).2
  fresh next hnext := h.fresh next (List.mem_cons_of_mem cell hnext)
  existed_eq := by
    have hordered : Ordered Prod.fst ((cell :: cells).map fun cell ↦ (cell.value.2, cell.id)) := by
      unfold Ordered
      rw [List.pairwise_map]
      exact h.sorted
    rw [h.existed_eq]
    exact erase_head hordered

/-- A string with a new index is linked in between the smaller and the larger indices. -/
theorem Linked.link {front back : List Waiting} {existed : List (ℕ × ℕ)}
    {nextId : ℕ} (h : Linked (front ++ back) existed nextId)
    (hfront : ∀ cell ∈ front, cell.value.2 < index) (hback : ∀ cell ∈ back, index < cell.value.2) :
    Linked (front ++ ⟨nextId, (tmp, index)⟩ :: back)
      (assign Prod.fst (index, nextId) existed) (nextId + 1) := by
  have hsorted := List.pairwise_append.mp h.sorted
  have hdistinct := List.pairwise_append.mp h.distinct
  have hfresh (cell : Waiting) (hcell : cell ∈ front ++ back) : cell.id ≠ nextId :=
    (h.fresh cell hcell).ne
  constructor
  · refine List.pairwise_append.mpr ⟨hsorted.1, List.pairwise_cons.mpr ⟨hback, hsorted.2.1⟩, ?_⟩
    intro first hfirst second hsecond
    rcases List.mem_cons.mp hsecond with rfl | hmem
    · exact hfront first hfirst
    · exact hsorted.2.2 first hfirst second hmem
  · refine List.pairwise_append.mpr ⟨hdistinct.1, List.pairwise_cons.mpr ⟨?_, hdistinct.2.1⟩, ?_⟩
    · intro second hsecond
      exact (hfresh second (List.mem_append_right front hsecond)).symm
    · intro first hfirst second hsecond
      rcases List.mem_cons.mp hsecond with rfl | hmem
      · exact hfresh first (List.mem_append_left back hfirst)
      · exact hdistinct.2.2 first hfirst second hmem
  · intro cell hcell
    rcases List.mem_append.mp hcell with hmem | hmem
    · exact (h.fresh cell (List.mem_append_left back hmem)).trans (Nat.lt_succ_self nextId)
    · rcases List.mem_cons.mp hmem with rfl | hmem
      · exact Nat.lt_succ_self nextId
      · exact (h.fresh cell (List.mem_append_right front hmem)).trans (Nat.lt_succ_self nextId)
  · rw [h.existed_eq, List.map_append, List.map_append, List.map_cons]
    refine assign_append ?_ ?_
    · simpa using hfront
    · simpa using hback

/-- Overwriting a string in place keeps the list and the map. -/
theorem Linked.overwrite {front back : List Waiting} {existed : List (ℕ × ℕ)}
    {nextId : ℕ} {cell : Waiting} (h : Linked (front ++ cell :: back) existed nextId)
    (hindex : cell.value.2 = index) :
    Linked (front ++ { cell with value := (tmp, index) } :: back) existed nextId := by
  have hsorted := List.pairwise_append.mp h.sorted
  have hdistinct := List.pairwise_append.mp h.distinct
  constructor
  · refine List.pairwise_append.mpr ⟨hsorted.1, ?_, ?_⟩
    · simpa [List.pairwise_cons, hindex] using hsorted.2.1
    · simpa [hindex] using hsorted.2.2
  · refine List.pairwise_append.mpr ⟨hdistinct.1, ?_, ?_⟩
    · simpa [List.pairwise_cons] using hdistinct.2.1
    · simpa using hdistinct.2.2
  · intro other hother
    rcases List.mem_append.mp hother with hmem | hmem
    · exact h.fresh other (List.mem_append_left _ hmem)
    · rcases List.mem_cons.mp hmem with rfl | hmem
      · exact h.fresh cell (by simp)
      · exact h.fresh other (by simp [hmem])
  · simpa [hindex] using h.existed_eq

/-- The cells before and after a cell have other identities. -/
theorem Linked.ids_ne {front rest : List Waiting} {existed : List (ℕ × ℕ)} {nextId : ℕ}
    {cell : Waiting} (h : Linked (front ++ cell :: rest) existed nextId) :
    (∀ other ∈ front, other.id ≠ cell.id) ∧ ∀ other ∈ rest, other.id ≠ cell.id := by
  have hdistinct := List.pairwise_append.mp h.distinct
  constructor
  · intro other hother
    exact hdistinct.2.2 other hother cell List.mem_cons_self
  · intro other hother
    exact ((List.pairwise_cons.mp hdistinct.2.1).1 other hother).symm

/-- The identity of a cell leads back to it. -/
theorem Linked.lookup {existed : List (ℕ × ℕ)} {nextId : ℕ} {cell : Waiting}
    (h : Linked cells existed nextId) (hcell : cell ∈ cells) :
    LinkedCells.lookup cell.id cells = some cell.value := by
  obtain ⟨front, rest, rfl⟩ := List.append_of_mem hcell
  exact LinkedCells.lookup_append_cons h.ids_ne.1

/-- The search in the map finds the place of an index in the list. -/
theorem Linked.find {cells : List Waiting} {existed : List (ℕ × ℕ)} {nextId : ℕ}
    (h : Linked cells existed nextId) (index : ℕ) :
    ∃ front back, cells = front ++ back ∧
      (∀ cell ∈ front, cell.value.2 < index) ∧ (∀ cell ∈ back, index ≤ cell.value.2) ∧
      existed[lowerBound Prod.fst index existed]? =
        back.head?.map fun cell ↦ (cell.value.2, cell.id) := by
  set offset := lowerBound (fun cell : Waiting ↦ cell.value.2) index cells with hoffset
  have hbound : lowerBound Prod.fst index existed = offset := by
    rw [h.existed_eq, lowerBound, List.findIdx_map]
    rfl
  refine ⟨cells.take offset, cells.drop offset, (List.take_append_drop offset cells).symm, ?_, ?_, ?_⟩
  · intro cell hcell
    exact lt_of_mem_take_lowerBound (fun cell : Waiting ↦ cell.value.2) hcell
  · intro cell hcell
    exact le_of_mem_drop_lowerBound (fun cell : Waiting ↦ cell.value.2) h.sorted hcell
  · rw [hbound, h.existed_eq, List.getElem?_map, List.head?_drop]

/-- What `storeString` can do: link a new string, overwrite a shorter string with the same index, or
keep a string that is not shorter. -/
inductive Storing (reassembler : StreamReassembler) (tmp : List UInt8) (index : ℕ) :
    StreamReassembler → Prop
  | linked {front back : List Waiting} (hcells : reassembler.strToAssemble = front ++ back)
      (hfront : ∀ cell ∈ front, cell.value.2 < index)
      (hback : ∀ cell ∈ back, index < cell.value.2) :
      Storing reassembler tmp index { reassembler with
        strToAssemble := front ++ ⟨reassembler.nextId, (tmp, index)⟩ :: back
        existed := assign Prod.fst (index, reassembler.nextId) reassembler.existed
        nextId := reassembler.nextId + 1 }
  | overwritten {front rest : List Waiting} {cell : Waiting}
      (hcells : reassembler.strToAssemble = front ++ cell :: rest) (hindex : cell.value.2 = index)
      (hlonger : tmp.length > cell.value.1.length) :
      Storing reassembler tmp index { reassembler with
        strToAssemble := front ++ { cell with value := (tmp, index) } :: rest }
  | kept {front rest : List Waiting} {cell : Waiting}
      (hcells : reassembler.strToAssemble = front ++ cell :: rest) (hindex : cell.value.2 = index)
      (hshorter : tmp.length ≤ cell.value.1.length) :
      Storing reassembler tmp index reassembler

/-- The function does one of the three. -/
theorem storing_storeString
    (h : Linked reassembler.strToAssemble reassembler.existed reassembler.nextId)
    (tmp : List UInt8) (index : ℕ) :
    Storing reassembler tmp index (reassembler.storeString tmp index) := by
  obtain ⟨front, back, hcells, hfront, hback, hfound⟩ := h.find index
  unfold storeString
  dsimp only
  rw [hfound]
  cases back with
  | nil =>
    rw [List.append_nil] at hcells
    have hlinked : Storing reassembler tmp index _ :=
      .linked (hcells.trans (List.append_nil front).symm) hfront (by simp)
    simpa [hcells] using hlinked
  | cons cell rest =>
    rw [hcells] at h
    obtain ⟨hbefore, hafter⟩ := h.ids_ne
    simp only [List.head?_cons, Option.map_some]
    by_cases hsame : cell.value.2 = index
    · have hlookup : LinkedCells.lookup cell.id reassembler.strToAssemble = some cell.value := by
        rw [hcells]
        exact LinkedCells.lookup_append_cons hbefore
      rw [if_pos hsame, hlookup]
      change Storing reassembler tmp index (if tmp.length > cell.value.1.length then _ else _)
      split_ifs with hlonger
      · rw [hcells, LinkedCells.assign_append_cons hbefore hafter]
        exact .overwritten hcells hsame hlonger
      · exact .kept hcells hsame (Nat.le_of_not_lt hlonger)
    · have hcell : index < cell.value.2 :=
        lt_of_le_of_ne (hback cell List.mem_cons_self) (Ne.symm hsame)
      have hsorted := (List.pairwise_append.mp h.sorted).2.1
      rw [if_neg hsame, hcells, LinkedCells.insertBefore_append_cons hbefore]
      apply Storing.linked hcells hfront
      intro other hother
      cases List.mem_cons.mp hother with
      | inl heq => rw [heq]; exact hcell
      | inr hmem => exact hcell.trans ((List.pairwise_cons.mp hsorted).1 other hmem)

/-- What storing a string changes. -/
structure StringStored (before after : StreamReassembler) (tmp : List UInt8) (index : ℕ) : Prop where
  linked : Linked after.strToAssemble after.existed after.nextId
  stores : ∀ position, Stores after.strToAssemble position ↔
    Stores before.strToAssemble position ∨ (index ≤ position ∧ position < index + tmp.length)
  source : ∀ cell ∈ after.strToAssemble,
    cell ∈ before.strToAssemble ∨ cell.value = (tmp, index)
  frame : after = { before with
    strToAssemble := after.strToAssemble, existed := after.existed, nextId := after.nextId }

theorem Storing.stringStored {after : StreamReassembler}
    (hstoring : Storing reassembler tmp index after)
    (h : Linked reassembler.strToAssemble reassembler.existed reassembler.nextId) :
    StringStored reassembler after tmp index := by
  cases hstoring with
  | linked hcells hfront hback =>
    rw [hcells] at h
    refine ⟨h.link hfront hback, fun position ↦ ?_, fun cell hcell ↦ ?_, rfl⟩
    · simp only [hcells, stores_append, stores_cons]
      tauto
    · rw [hcells, List.mem_append]
      rcases List.mem_append.mp hcell with hmem | hmem
      · exact .inl (.inl hmem)
      · rcases List.mem_cons.mp hmem with rfl | hmem
        · exact .inr rfl
        · exact .inl (.inr hmem)
  | @overwritten front rest cell hcells hindex hlonger =>
    rw [hcells] at h
    refine ⟨h.overwrite hindex, fun position ↦ ?_, fun other hother ↦ ?_, rfl⟩
    · -- The new string has the index of the old one and is longer, so it covers it.
      have hcover : (cell.value.2 ≤ position ∧ position < cell.value.2 + cell.value.1.length) →
          index ≤ position ∧ position < index + tmp.length := by omega
      simp only [hcells, stores_append, stores_cons]
      tauto
    · rw [hcells, List.mem_append, List.mem_cons]
      rcases List.mem_append.mp hother with hmem | hmem
      · exact .inl (.inl hmem)
      · rcases List.mem_cons.mp hmem with rfl | hmem
        · exact .inr rfl
        · exact .inl (.inr (.inr hmem))
  | @kept front rest cell hcells hindex hshorter =>
    refine ⟨h, fun position ↦ ?_, fun other hother ↦ .inl hother, rfl⟩
    have hcover : (index ≤ position ∧ position < index + tmp.length) →
        cell.value.2 ≤ position ∧ position < cell.value.2 + cell.value.1.length := by omega
    simp only [hcells, stores_append, stores_cons]
    tauto

/-- What storing a string does. -/
theorem storeString_spec
    (h : Linked reassembler.strToAssemble reassembler.existed reassembler.nextId)
    (tmp : List UInt8) (index : ℕ) :
    StringStored reassembler (reassembler.storeString tmp index) tmp index :=
  (storing_storeString h tmp index).stringStored h

/-! ## Assembling -/

/-- What holds of the output and the waiting strings while the loop runs. -/
structure Assembling (cells : List Waiting) (reassembler : StreamReassembler) : Prop where
  valid : reassembler.output.Valid
  written : reassembler.output.byteWritten = reassembler.assembledBytes
  capacity : reassembler.output.capacity = reassembler.capacity
  linked : Linked cells reassembler.existed reassembler.nextId
  fits : ∀ cell ∈ cells,
    cell.value.2 + cell.value.1.length ≤ reassembler.capacity + reassembler.output.byteRead

/-- The write appends the bytes that are new, and none is dropped for lack of space. -/
theorem writeNew_spec (hvalid : reassembler.output.Valid)
    (hwritten : reassembler.output.byteWritten = reassembler.assembledBytes)
    (hcapacity : reassembler.output.capacity = reassembler.capacity)
    (hindex : index ≤ reassembler.assembledBytes)
    (hfits : index + data.length ≤ reassembler.capacity + reassembler.output.byteRead) :
    ∃ output, reassembler.writeNew data index =
        { reassembler with
          output := output
          assembledBytes := max reassembler.assembledBytes (index + data.length) } ∧
      output.Valid ∧
      output.byteWritten = max reassembler.assembledBytes (index + data.length) ∧
      output.contents =
        reassembler.output.contents ++ data.drop (reassembler.assembledBytes - index) ∧
      output.capacity = reassembler.output.capacity ∧
      output.byteRead = reassembler.output.byteRead ∧
      output.ended = reassembler.output.ended ∧ output.error = reassembler.output.error := by
  unfold writeNew
  split_ifs with hnew
  · have hstr : (data.drop (Word.sub reassembler.assembledBytes index)).take
        (Word.sub (index + data.length) reassembler.assembledBytes) =
          data.drop (reassembler.assembledBytes - index) := by
      rw [Word.sub_of_le hindex, Word.sub_of_le hnew.le]
      exact List.take_of_length_le (by rw [List.length_drop]; omega)
    rw [hstr]
    set str := data.drop (reassembler.assembledBytes - index) with hstr
    have hlength : str.length = index + data.length - reassembler.assembledBytes := by
      rw [hstr, List.length_drop]
      omega
    have hcount := hvalid.length_contents
    have hread := hvalid.read_le
    have hroom : reassembler.output.contents.length + str.length ≤ reassembler.output.capacity := by
      omega
    have hwrite := ByteStream.write_of_fits hvalid hroom
    have hmax : max reassembler.assembledBytes (index + data.length) = index + data.length :=
      max_eq_right hnew.le
    refine ⟨(reassembler.output.write str).1, by rw [hmax], hvalid.write str, ?_, hwrite.2,
      rfl, rfl, rfl, rfl⟩
    rw [ByteStream.byteWritten_write, hwrite.1, hmax]
    omega
  · have hnone : data.drop (reassembler.assembledBytes - index) = [] :=
      List.drop_eq_nil_of_le (by omega)
    have hmax : max reassembler.assembledBytes (index + data.length) = reassembler.assembledBytes :=
      max_eq_left (by omega)
    refine ⟨reassembler.output, by rw [hmax], hvalid, by rw [hmax, hwritten], ?_, rfl, rfl, rfl, rfl⟩
    rw [hnone, List.append_nil]

/-- One turn of the loop: the front string is written and taken off the list. -/
theorem Assembling.step {front : Waiting} {rest : List Waiting}
    (h : Assembling (front :: rest) reassembler)
    (hindex : front.value.2 ≤ reassembler.assembledBytes) :
    ∃ output, { reassembler.writeNew front.value.1 front.value.2 with
        existed := erase Prod.fst front.value.2
          (reassembler.writeNew front.value.1 front.value.2).existed } =
        { reassembler with
          output := output
          assembledBytes := max reassembler.assembledBytes (front.value.2 + front.value.1.length)
          existed := erase Prod.fst front.value.2 reassembler.existed } ∧
      Assembling rest
        { reassembler with
          output := output
          assembledBytes := max reassembler.assembledBytes (front.value.2 + front.value.1.length)
          existed := erase Prod.fst front.value.2 reassembler.existed } ∧
      output.contents = reassembler.output.contents ++
        front.value.1.drop (reassembler.assembledBytes - front.value.2) ∧
      output.byteRead = reassembler.output.byteRead ∧
      output.ended = reassembler.output.ended ∧ output.error = reassembler.output.error := by
  obtain ⟨output, hwrite, hvalid, hwritten, hcontents, hcapacity, hread, hended, herror⟩ :=
    writeNew_spec h.valid h.written h.capacity hindex (h.fits front (by simp))
  refine ⟨output, by rw [hwrite], ⟨hvalid, hwritten, hcapacity.trans h.capacity, h.linked.tail, ?_⟩,
    hcontents, hread, hended, herror⟩
  intro cell hcell
  dsimp only
  rw [hread]
  exact h.fits cell (List.mem_cons_of_mem front hcell)

/-- What the loop leaves behind when it has run over a list of strings. -/
structure Assembled (cells : List Waiting) (before after : StreamReassembler) : Prop where
  state : Assembling after.strToAssemble after
  pending : ∀ cell ∈ after.strToAssemble, after.assembledBytes < cell.value.2
  source : ∀ cell ∈ after.strToAssemble, cell ∈ cells
  holds : ∀ position, after.Holds position ↔
    position < before.assembledBytes ∨ Stores cells position
  progress : before.assembledBytes ≤ after.assembledBytes
  frame : after = { before with
    output := after.output, assembledBytes := after.assembledBytes,
    strToAssemble := after.strToAssemble, existed := after.existed }
  bytesRead : after.output.byteRead = before.output.byteRead
  ended : after.output.ended = before.output.ended
  error : after.output.error = before.output.error

/-- The loop writes all strings that touch the assembled bytes, and the others wait. -/
theorem assembleLoop_spec (h : Assembling cells reassembler) :
    Assembled cells reassembler (assembleLoop cells reassembler) := by
  induction cells generalizing reassembler with
  | nil =>
    refine ⟨⟨h.valid, h.written, h.capacity, h.linked, h.fits⟩, ?_, ?_, ?_, le_rfl, rfl, rfl, rfl, rfl⟩
    · simp [assembleLoop]
    · simp [assembleLoop]
    · simp [assembleLoop, Holds]
  | cons front rest ih =>
    unfold assembleLoop
    split_ifs with hindex
    · obtain ⟨output, hstate, hnext, -, hread, hended, herror⟩ := h.step hindex
      dsimp only
      rw [hstate]
      have hloop := ih hnext
      refine ⟨hloop.state, hloop.pending, fun cell hcell ↦ ?_, fun position ↦ ?_, ?_, ?_,
        hloop.bytesRead.trans hread, hloop.ended.trans hended, hloop.error.trans herror⟩
      · exact List.mem_cons_of_mem front (hloop.source cell hcell)
      · rw [hloop.holds, stores_cons]
        -- The front string touches the assembled bytes, so together they are again an initial part.
        have hmerge : position <
            max reassembler.assembledBytes (front.value.2 + front.value.1.length) ↔
            position < reassembler.assembledBytes ∨
              (front.value.2 ≤ position ∧ position < front.value.2 + front.value.1.length) := by
          omega
        rw [hmerge, or_assoc]
      · exact (le_max_left _ _).trans hloop.progress
      · exact hloop.frame
    · have hpending : ∀ cell ∈ front :: rest, reassembler.assembledBytes < cell.value.2 := by
        have hsorted := (List.pairwise_cons.mp h.linked.sorted).1
        intro cell hcell
        rcases List.mem_cons.mp hcell with rfl | hmem
        · omega
        · exact (not_le.mp hindex).trans (hsorted cell hmem)
      exact ⟨⟨h.valid, h.written, h.capacity, h.linked, h.fits⟩, hpending, fun _ hcell ↦ hcell,
        fun _ ↦ Iff.rfl, le_rfl, rfl, rfl, rfl, rfl⟩

/-- If the waiting strings are excerpts of `stream`, the output stays an initial part of it. -/
theorem assembleLoop_contents {stream seen : List UInt8} (h : Assembling cells reassembler)
    (hcells : ∀ cell ∈ cells, cell.value.1 <+: stream.drop cell.value.2)
    (hout : seen ++ reassembler.output.contents = stream.take reassembler.assembledBytes) :
    seen ++ (assembleLoop cells reassembler).output.contents =
      stream.take (assembleLoop cells reassembler).assembledBytes := by
  induction cells generalizing reassembler with
  | nil => exact hout
  | cons front rest ih =>
    unfold assembleLoop
    split_ifs with hindex
    · obtain ⟨output, hstate, hnext, hcontents, -, -, -⟩ := h.step hindex
      dsimp only
      rw [hstate]
      refine ih hnext (fun cell hcell ↦ hcells cell (List.mem_cons_of_mem front hcell)) ?_
      dsimp only
      rw [hcontents, ← List.append_assoc, hout]
      -- What is written continues the stream right after the assembled bytes.
      have hfront := hcells front (by simp)
      set skip := reassembler.assembledBytes - front.value.2 with hskip
      have hplace : front.value.2 + skip = reassembler.assembledBytes := by omega
      have hcontinue : front.value.1.drop skip <+: stream.drop reassembler.assembledBytes := by
        rw [← hplace, ← List.drop_drop]
        exact hfront.drop skip
      rw [List.prefix_iff_eq_take.mp hcontinue, ← List.take_add, List.length_drop]
      congr 1
      omega
    · exact hout

end Sponge.StreamReassembler
