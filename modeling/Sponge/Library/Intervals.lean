import Sponge.Library.OrderedKeys
import Mathlib.Data.List.Pairwise
import Mathlib.Data.Prod.Lex
import Mathlib.Algebra.BigOperators.Group.List.Basic
import Mathlib.Algebra.GroupWithZero.Nat
import Mathlib.Order.Interval.Finset.Nat
import Mathlib.Tactic.Common

/-!
# Sets of positions as lists of half-open intervals

A list of pairs `(first, second)` denotes the positions `first ≤ p < second` of its members.  `cut`
removes a range from one interval and keeps what is left of it in order, so `flatMap (cut lower
upper)` removes the range from the whole set.

`measure` adds up the lengths.  On separated intervals it is the number of positions, which is
what makes a running byte count exact.
-/

namespace Sponge.Intervals

variable {lower upper position bound : ℕ} {interval piece : ℕ × ℕ} {intervals : List (ℕ × ℕ)}

/-- Some interval of the list contains the position. -/
def Covers (intervals : List (ℕ × ℕ)) (position : ℕ) : Prop :=
  ∃ interval ∈ intervals, interval.1 ≤ position ∧ position < interval.2

instance : Decidable (Covers intervals position) :=
  inferInstanceAs (Decidable (∃ interval ∈ intervals, _ ∧ _))

@[simp] theorem covers_nil : ¬ Covers [] position := by simp [Covers]

@[simp] theorem covers_cons :
    Covers (interval :: intervals) position ↔
      (interval.1 ≤ position ∧ position < interval.2) ∨ Covers intervals position := by
  simp [Covers]

def measure (intervals : List (ℕ × ℕ)) : ℕ :=
  (intervals.map fun interval ↦ interval.2 - interval.1).sum

@[simp] theorem measure_nil : measure [] = 0 := rfl

@[simp] theorem measure_cons :
    measure (interval :: intervals) = interval.2 - interval.1 + measure intervals := by
  simp [measure]

/-- Nonempty intervals in increasing order, each ending before the next one starts. -/
structure Separated (intervals : List (ℕ × ℕ)) : Prop where
  nonempty : ∀ interval ∈ intervals, interval.1 < interval.2
  disjoint : intervals.Pairwise fun first second ↦ first.2 ≤ second.1

theorem Separated.tail (h : Separated (interval :: intervals)) : Separated intervals where
  nonempty next hnext := h.nonempty next (List.mem_cons_of_mem interval hnext)
  disjoint := (List.pairwise_cons.mp h.disjoint).2

/-- Separated intervals are a `std::set` of pairs, which compare lexicographically. -/
theorem Separated.ordered (h : Separated intervals) : OrderedKeys.Ordered toLex intervals := by
  refine h.disjoint.imp_of_mem ?_
  intro first second hfirst _ hgap
  have hnonempty := h.nonempty first hfirst
  exact Prod.Lex.toLex_lt_toLex.mpr (.inl (by omega))

/-! ## Removing a range -/

/-- What is left of an interval after the range from `lower` to `upper` has been removed.  An
interval that the range does not reach stays as it is. -/
def cut (lower upper : ℕ) (interval : ℕ × ℕ) : List (ℕ × ℕ) :=
  if interval.2 ≤ lower ∨ upper ≤ interval.1 then [interval]
  else (if interval.1 < lower then [(interval.1, lower)] else []) ++
    (if upper < interval.2 then [(upper, interval.2)] else [])

def overlap (lower upper : ℕ) (interval : ℕ × ℕ) : ℕ :=
  min upper interval.2 - max lower interval.1

theorem covers_cut :
    Covers (cut lower upper interval) position ↔
      (interval.1 ≤ position ∧ position < interval.2) ∧ ¬ (lower ≤ position ∧ position < upper) := by
  unfold cut
  split_ifs <;> simp <;> omega

theorem measure_cut (hrange : lower ≤ upper) (hinterval : interval.1 < interval.2) :
    measure (cut lower upper interval) + overlap lower upper interval = interval.2 - interval.1 := by
  unfold cut overlap
  split_ifs <;> simp <;> omega

theorem mem_cut_bounds (hinterval : interval.1 < interval.2)
    (h : piece ∈ cut lower upper interval) :
    interval.1 ≤ piece.1 ∧ piece.1 < piece.2 ∧ piece.2 ≤ interval.2 := by
  unfold cut at h
  split_ifs at h <;> simp [Prod.ext_iff] at h <;> omega

theorem cut_disjoint (hrange : lower ≤ upper) :
    (cut lower upper interval).Pairwise fun first second ↦ first.2 ≤ second.1 := by
  unfold cut
  split_ifs <;> simp
  exact hrange

/-- Cutting a range out of all intervals removes exactly its positions. -/
theorem covers_flatMap_cut :
    Covers (intervals.flatMap (cut lower upper)) position ↔
      Covers intervals position ∧ ¬ (lower ≤ position ∧ position < upper) := by
  induction intervals with
  | nil => simp
  | cons interval intervals ih =>
    have happend (left right : List (ℕ × ℕ)) : Covers (left ++ right) position ↔
        Covers left position ∨ Covers right position := by
      simp only [Covers, List.mem_append, or_and_right, exists_or]
    rw [List.flatMap_cons, happend, covers_cut, ih, covers_cons]
    tauto

/-- The intervals lose what they had in common with the range. -/
theorem measure_flatMap_cut (hrange : lower ≤ upper) (h : Separated intervals) :
    measure (intervals.flatMap (cut lower upper)) +
      (intervals.map (overlap lower upper)).sum = measure intervals := by
  induction intervals with
  | nil => simp
  | cons interval intervals ih =>
    have happend (left right : List (ℕ × ℕ)) :
        measure (left ++ right) = measure left + measure right := by simp [measure]
    have hhead := measure_cut hrange (h.nonempty interval (by simp))
    have htail := ih h.tail
    simp only [List.flatMap_cons, happend, List.map_cons, List.sum_cons, measure_cons]
    omega

/-- Cutting keeps the intervals in order. -/
theorem Separated.flatMap_cut (hrange : lower ≤ upper) (h : Separated intervals) :
    Separated (intervals.flatMap (cut lower upper)) where
  nonempty piece hpiece := by
    obtain ⟨interval, hinterval, hmem⟩ := List.mem_flatMap.mp hpiece
    exact (mem_cut_bounds (h.nonempty interval hinterval) hmem).2.1
  disjoint := by
    refine List.pairwise_flatMap.mpr ⟨fun interval _ ↦ cut_disjoint hrange, ?_⟩
    -- Pieces of two different intervals inherit the gap between these.
    refine h.disjoint.imp_of_mem ?_
    intro first second hfirst hsecond hgap left hleft right hright
    have hl := mem_cut_bounds (h.nonempty first hfirst) hleft
    have hr := mem_cut_bounds (h.nonempty second hsecond) hright
    omega

/-! ## Counting positions -/

/-- On separated intervals below a bound, `measure` counts the covered positions. -/
theorem Separated.card_covers (h : Separated intervals)
    (hbound : ∀ interval ∈ intervals, interval.2 ≤ bound) :
    ((Finset.range bound).filter (Covers intervals)).card = measure intervals := by
  induction intervals with
  | nil => simp
  | cons interval intervals ih =>
    have hafter : ∀ next ∈ intervals, interval.2 ≤ next.1 := (List.pairwise_cons.mp h.disjoint).1
    have hend : interval.2 ≤ bound := hbound interval (by simp)
    have hsplit : (Finset.range bound).filter (Covers (interval :: intervals)) =
        Finset.Ico interval.1 interval.2 ∪ (Finset.range bound).filter (Covers intervals) := by
      ext position
      simp only [Finset.mem_filter, Finset.mem_range, covers_cons, Finset.mem_union, Finset.mem_Ico]
      constructor
      · rintro ⟨hposition, hhere | hthere⟩
        · exact .inl hhere
        · exact .inr ⟨hposition, hthere⟩
      · rintro (hhere | ⟨hposition, hthere⟩)
        · exact ⟨by omega, .inl hhere⟩
        · exact ⟨hposition, .inr hthere⟩
    have hdisjoint : Disjoint (Finset.Ico interval.1 interval.2)
        ((Finset.range bound).filter (Covers intervals)) := by
      rw [Finset.disjoint_left]
      intro position hhere hthere
      obtain ⟨next, hnext, hlow, -⟩ := (Finset.mem_filter.mp hthere).2
      have := hafter next hnext
      have := (Finset.mem_Ico.mp hhere).2
      omega
    rw [hsplit, Finset.card_union_of_disjoint hdisjoint, Nat.card_Ico, measure_cons,
      ih h.tail fun next hnext ↦ hbound next (List.mem_cons_of_mem interval hnext)]

/-! ## Intervals that may be empty -/

def Apart (first second : ℕ × ℕ) : Prop := min first.2 second.2 ≤ max first.1 second.1

instance (first second : ℕ × ℕ) : Decidable (Apart first second) :=
  inferInstanceAs (Decidable (_ ≤ _))

theorem Apart.symm {first second : ℕ × ℕ} (h : Apart first second) : Apart second first := by
  unfold Apart at h ⊢
  omega

/-- Without its empty intervals, a sorted list of intervals that are apart is separated. -/
theorem separated_filter (h : intervals.Pairwise fun first second ↦
    first.1 ≤ second.1 ∧ Apart first second) :
    Separated (intervals.filter fun interval ↦ interval.1 < interval.2) where
  nonempty interval hinterval := by simpa using (List.mem_filter.mp hinterval).2
  disjoint := by
    refine (h.filter _).imp_of_mem ?_
    intro first second hfirst hsecond hpair
    have hleft : first.1 < first.2 := by simpa using (List.mem_filter.mp hfirst).2
    have hright : second.1 < second.2 := by simpa using (List.mem_filter.mp hsecond).2
    have hapart := hpair.2
    unfold Apart at hapart
    omega

theorem measure_filter (intervals : List (ℕ × ℕ)) :
    measure (intervals.filter fun interval ↦ interval.1 < interval.2) = measure intervals := by
  induction intervals with
  | nil => rfl
  | cons interval intervals ih =>
    by_cases hnonempty : interval.1 < interval.2
    · rw [List.filter_cons_of_pos (by simpa using hnonempty), measure_cons, measure_cons, ih]
    · rw [List.filter_cons_of_neg (by simpa using hnonempty), measure_cons, ih]
      omega

theorem covers_filter :
    Covers (intervals.filter fun interval ↦ interval.1 < interval.2) position ↔
      Covers intervals position := by
  constructor
  · rintro ⟨interval, hinterval, hinside⟩
    exact ⟨interval, (List.mem_filter.mp hinterval).1, hinside⟩
  · rintro ⟨interval, hinterval, hinside⟩
    have hnonempty : interval.1 < interval.2 := hinside.1.trans_lt hinside.2
    exact ⟨interval, List.mem_filter.mpr ⟨hinterval, by simpa using hnonempty⟩, hinside⟩

/-- Intervals that are apart count every position once. -/
theorem card_covers_of_apart (h : intervals.Pairwise fun first second ↦
    first.1 ≤ second.1 ∧ Apart first second)
    (hbound : ∀ interval ∈ intervals, interval.2 ≤ bound) :
    ((Finset.range bound).filter (Covers intervals)).card = measure intervals := by
  calc
    _ = ((Finset.range bound).filter
        (Covers (intervals.filter fun interval ↦ interval.1 < interval.2))).card := by
      simp only [covers_filter]
    _ = measure (intervals.filter fun interval ↦ interval.1 < interval.2) := by
      apply (separated_filter h).card_covers
      exact fun interval hinterval ↦ hbound interval (List.mem_filter.mp hinterval).1
    _ = measure intervals := measure_filter intervals

end Sponge.Intervals
