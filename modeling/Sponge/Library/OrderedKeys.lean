import Mathlib.Data.List.Basic
import Mathlib.Data.List.Pairwise
import Mathlib.Order.Lattice
import Mathlib.Tactic.Common

/-!
# Ordered associative containers

`std::set` and `std::map` as lists with strictly increasing keys.  A comparator that looks at a part
of an element is the projection `key` to that part.  An iterator is the offset of its element from
the beginning of the container, and the past-the-end iterator is the length.

As in the standard library, `insert` leaves the container alone when an equal key is present, while
`assign` (the subscript operator of a map, followed by an assignment) replaces the entry.
-/

namespace Sponge.OrderedKeys

variable {α κ : Type*} [LinearOrder κ] {key : α → κ} {entry other : α} {entries front back : List α}

/-- The keys increase strictly, so that no two entries compare equal. -/
def Ordered (key : α → κ) (entries : List α) : Prop :=
  entries.Pairwise fun first second ↦ key first < key second

/-- Insert an entry unless one with an equal key is present. -/
def insert (key : α → κ) (entry : α) : List α → List α
  | [] => [entry]
  | head :: tail =>
      if key entry < key head then entry :: head :: tail
      else if key head < key entry then head :: insert key entry tail
      else head :: tail

/-- Insert an entry, or overwrite the one with an equal key. -/
def assign (key : α → κ) (entry : α) : List α → List α
  | [] => [entry]
  | head :: tail =>
      if key entry < key head then entry :: head :: tail
      else if key head < key entry then head :: assign key entry tail
      else entry :: tail

def erase (key : α → κ) (bound : κ) (entries : List α) : List α :=
  entries.filter fun entry ↦ key entry ≠ bound

/-- Offset of the first entry whose key is not below `bound`. -/
def lowerBound (key : α → κ) (bound : κ) (entries : List α) : ℕ :=
  entries.findIdx fun entry ↦ bound ≤ key entry

def insertAll (key : α → κ) (added entries : List α) : List α :=
  added.foldl (fun entries entry ↦ insert key entry entries) entries

def eraseAll (key : α → κ) (removed entries : List α) : List α :=
  removed.foldl (fun entries entry ↦ erase key (key entry) entries) entries

/-! ## Insertion -/

theorem mem_of_mem_insert (h : other ∈ insert key entry entries) :
    other = entry ∨ other ∈ entries := by
  induction entries with
  | nil => exact .inl (by simpa [insert] using h)
  | cons head tail ih =>
    unfold insert at h
    split_ifs at h with hbefore hafter
    · simpa using h
    · rcases List.mem_cons.mp h with rfl | htail
      · exact .inr (by simp)
      · exact (ih htail).imp_right (List.mem_cons_of_mem head)
    · exact .inr h

theorem insert_ne_nil : insert key entry entries ≠ [] := by
  cases entries with
  | nil => exact List.cons_ne_nil _ _
  | cons head tail =>
    unfold insert
    split_ifs <;> exact List.cons_ne_nil _ _

theorem mem_insert_of_mem (h : other ∈ entries) : other ∈ insert key entry entries := by
  induction entries with
  | nil => simp at h
  | cons head tail ih =>
    unfold insert
    split_ifs with hbefore hafter
    · exact List.mem_cons_of_mem entry h
    · rcases List.mem_cons.mp h with rfl | htail
      · simp
      · exact List.mem_cons_of_mem head (ih htail)
    · exact h

/-- With a comparator that looks at the whole element, an inserted element is present. -/
theorem mem_insert (hkey : Function.Injective key) :
    other ∈ insert key entry entries ↔ other = entry ∨ other ∈ entries := by
  refine ⟨mem_of_mem_insert, ?_⟩
  rintro (rfl | hmem)
  · induction entries with
    | nil => simp [insert]
    | cons head tail ih =>
      unfold insert
      split_ifs with hbefore hafter
      · simp
      · exact List.mem_cons_of_mem head ih
      · have hsame : other = head := hkey (le_antisymm (not_lt.mp hafter) (not_lt.mp hbefore))
        simp [hsame]
  · exact mem_insert_of_mem hmem

/-- An insertion keeps the order. -/
theorem Ordered.insert (h : Ordered key entries) : Ordered key (insert key entry entries) := by
  induction entries with
  | nil => simp [OrderedKeys.insert, Ordered]
  | cons head tail ih =>
    have hhead : ∀ other ∈ tail, key head < key other := (List.pairwise_cons.mp h).1
    have htail : Ordered key tail := (List.pairwise_cons.mp h).2
    unfold OrderedKeys.insert
    split_ifs with hbefore hafter
    · refine List.pairwise_cons.mpr ⟨?_, h⟩
      intro other hother
      rcases List.mem_cons.mp hother with rfl | hmem
      · exact hbefore
      · exact hbefore.trans (hhead other hmem)
    · refine List.pairwise_cons.mpr ⟨?_, ih htail⟩
      intro other hother
      rcases mem_of_mem_insert hother with rfl | hmem
      · exact hafter
      · exact hhead other hmem
    · exact h

/-- An entry above all keys goes to the end. -/
theorem insert_eq_append (h : ∀ other ∈ entries, key other < key entry) :
    insert key entry entries = entries ++ [entry] := by
  induction entries with
  | nil => rfl
  | cons head tail ih =>
    have hhead : key head < key entry := h head (by simp)
    rw [insert, if_neg hhead.le.not_gt, if_pos hhead,
      ih fun other hother ↦ h other (List.mem_cons_of_mem head hother), List.cons_append]

/-- Assigning a new key places its entry between the smaller and the larger keys. -/
theorem assign_append (hfront : ∀ other ∈ front, key other < key entry)
    (hback : ∀ other ∈ back, key entry < key other) :
    assign key entry (front ++ back) = front ++ entry :: back := by
  induction front with
  | nil =>
    cases back with
    | nil => rfl
    | cons head tail => rw [List.nil_append, assign, if_pos (hback head (by simp)), List.nil_append]
  | cons head tail ih =>
    have hhead : key head < key entry := hfront head (by simp)
    rw [List.cons_append, assign, if_neg hhead.le.not_gt, if_pos hhead,
      ih fun other hother ↦ hfront other (List.mem_cons_of_mem head hother), List.cons_append]

theorem Ordered.insertAll {added : List α} (h : Ordered key entries) :
    Ordered key (insertAll key added entries) := by
  induction added generalizing entries with
  | nil => exact h
  | cons entry added ih => exact ih h.insert

/-- With different keys, all elements of the list come in. -/
theorem mem_insertAll {added : List α} (hkey : Function.Injective key) :
    other ∈ insertAll key added entries ↔ other ∈ added ∨ other ∈ entries := by
  induction added generalizing entries with
  | nil => simp [insertAll]
  | cons entry added ih =>
    change other ∈ OrderedKeys.insertAll key added (insert key entry entries) ↔ _
    rw [ih, mem_insert hkey, List.mem_cons]
    tauto

/-! ## Erasure and lookup -/

theorem mem_erase {bound : κ} :
    other ∈ erase key bound entries ↔ other ∈ entries ∧ key other ≠ bound := by
  simp [erase]

theorem Ordered.erase {bound : κ} (h : Ordered key entries) :
    Ordered key (erase key bound entries) :=
  List.Pairwise.filter _ h

theorem Ordered.eraseAll {removed : List α} (h : Ordered key entries) :
    Ordered key (eraseAll key removed entries) := by
  induction removed generalizing entries with
  | nil => exact h
  | cons entry removed ih => exact ih h.erase

/-- With different keys, exactly the elements of the list go. -/
theorem mem_eraseAll {removed : List α} (hkey : Function.Injective key) :
    other ∈ eraseAll key removed entries ↔ other ∈ entries ∧ other ∉ removed := by
  induction removed generalizing entries with
  | nil => simp [eraseAll]
  | cons entry removed ih =>
    change other ∈ OrderedKeys.eraseAll key removed (erase key (key entry) entries) ↔ _
    rw [ih, mem_erase, List.mem_cons, hkey.ne_iff]
    tauto

/-- Erasing the first key leaves the tail. -/
theorem erase_head (h : Ordered key (entry :: entries)) :
    erase key (key entry) (entry :: entries) = entries := by
  have htail : ∀ other ∈ entries, key entry < key other := (List.pairwise_cons.mp h).1
  unfold OrderedKeys.erase
  rw [List.filter_cons_of_neg (by simp), List.filter_eq_self]
  intro other hother
  simpa using (htail other hother).ne'

theorem lowerBound_le (bound : κ) : lowerBound key bound entries ≤ entries.length :=
  List.findIdx_le_length

/-- Before the offset, all keys are below the bound. -/
theorem lt_of_mem_take_lowerBound (key : α → κ) {bound : κ}
    (h : other ∈ entries.take (lowerBound key bound entries)) : key other < bound := by
  induction entries with
  | nil => simp at h
  | cons head tail ih =>
    unfold lowerBound at h
    rw [List.findIdx_cons] at h
    by_cases hhead : bound ≤ key head
    · simp [hhead] at h
    · simp only [hhead, decide_false, cond_false, List.take_succ_cons, List.mem_cons] at h
      rcases h with rfl | htail
      · exact not_le.mp hhead
      · exact ih htail

/-- From the offset on, no key is. -/
theorem le_of_mem_drop_lowerBound (key : α → κ) {bound : κ} (hordered : Ordered key entries)
    (h : other ∈ entries.drop (lowerBound key bound entries)) : bound ≤ key other := by
  induction entries with
  | nil => simp at h
  | cons head tail ih =>
    have htail : ∀ next ∈ tail, key head < key next := (List.pairwise_cons.mp hordered).1
    unfold lowerBound at h
    rw [List.findIdx_cons] at h
    by_cases hhead : bound ≤ key head
    · simp only [hhead, decide_true, cond_true, List.drop_zero, List.mem_cons] at h
      rcases h with rfl | hmem
      · exact hhead
      · exact hhead.trans (htail other hmem).le
    · simp only [hhead, decide_false, cond_false, List.drop_succ_cons] at h
      exact ih (List.pairwise_cons.mp hordered).2 h

/-- Two ordered containers with the same elements are equal. -/
theorem Ordered.eq_of_mem_iff {left right : List α} (hleft : Ordered key left)
    (hright : Ordered key right) (h : ∀ entry, entry ∈ left ↔ entry ∈ right) : left = right := by
  have hirrefl {entries : List α} (hentries : Ordered key entries) : entries.Nodup :=
    hentries.imp fun hlt heq ↦ hlt.ne (congrArg key heq)
  have hperm : left.Perm right :=
    (List.perm_ext_iff_of_nodup (hirrefl hleft) (hirrefl hright)).mpr h
  refine hperm.eq_of_pairwise ?_ hleft hright
  intro first second _ _ hlt hgt
  exact absurd hgt hlt.not_gt

end Sponge.OrderedKeys
