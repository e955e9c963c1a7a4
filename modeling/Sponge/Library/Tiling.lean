import Mathlib.Data.List.Pairwise
import Mathlib.Algebra.BigOperators.Group.List.Basic
import Mathlib.Algebra.GroupWithZero.Nat
import Mathlib.Tactic.Common

/-!
# Blocks laid end to end

`Tiles start size lower blocks upper` says that the blocks are nonempty and that each starts where
the one before it ends, the first at `lower`, the last ending at `upper`.  The sizes then add up to
the distance, the starts increase, and blocks can be added at the end or taken from the front.
-/

namespace Sponge.Tiling

variable {α : Type*} {start size : α → ℕ} {lower middle upper : ℕ} {block : α}
  {blocks front back : List α}

/-- The blocks cover the range from `lower` to `upper` without gap or overlap. -/
def Tiles (start size : α → ℕ) : ℕ → List α → ℕ → Prop
  | lower, [], upper => lower = upper
  | lower, block :: blocks, upper =>
      start block = lower ∧ 0 < size block ∧ Tiles start size (lower + size block) blocks upper

@[simp] theorem tiles_nil : Tiles start size lower [] upper ↔ lower = upper := Iff.rfl

@[simp] theorem tiles_cons :
    Tiles start size lower (block :: blocks) upper ↔
      start block = lower ∧ 0 < size block ∧
        Tiles start size (lower + size block) blocks upper := Iff.rfl

/-- A tiling can be taken apart at every block. -/
theorem tiles_append :
    Tiles start size lower (front ++ back) upper ↔
      ∃ middle, Tiles start size lower front middle ∧ Tiles start size middle back upper := by
  induction front generalizing lower with
  | nil => simp
  | cons block front ih => simp [ih, and_assoc]

/-- A block that starts at the end extends the tiling. -/
theorem Tiles.concat (h : Tiles start size lower blocks upper) (hstart : start block = upper)
    (hsize : 0 < size block) :
    Tiles start size lower (blocks ++ [block]) (upper + size block) :=
  tiles_append.mpr ⟨upper, h, hstart, hsize, rfl⟩

theorem Tiles.add_sum (h : Tiles start size lower blocks upper) :
    lower + (blocks.map size).sum = upper := by
  induction blocks generalizing lower with
  | nil => simpa using h
  | cons block blocks ih =>
    have htail := ih h.2.2
    simp only [List.map_cons, List.sum_cons]
    omega

theorem Tiles.le (h : Tiles start size lower blocks upper) : lower ≤ upper := by
  have := h.add_sum
  omega

/-- Every block lies inside the range. -/
theorem Tiles.bounds (h : Tiles start size lower blocks upper) (hblock : block ∈ blocks) :
    lower ≤ start block ∧ 0 < size block ∧ start block + size block ≤ upper := by
  induction blocks generalizing lower with
  | nil => simp at hblock
  | cons head blocks ih =>
    obtain ⟨hstart, hsize, htail⟩ := h
    rcases List.mem_cons.mp hblock with rfl | hmem
    · exact ⟨by omega, hsize, hstart ▸ htail.le⟩
    · have hbounds := ih htail hmem
      exact ⟨by omega, hbounds.2⟩

/-- The starts increase strictly. -/
theorem Tiles.pairwise_start (h : Tiles start size lower blocks upper) :
    blocks.Pairwise fun first second ↦ start first < start second := by
  induction blocks generalizing lower with
  | nil => simp
  | cons block blocks ih =>
    obtain ⟨hstart, hsize, htail⟩ := h
    refine List.pairwise_cons.mpr ⟨fun next hnext ↦ ?_, ih htail⟩
    have hbounds := htail.bounds hnext
    omega

/-- Two neighbouring blocks touch. -/
theorem Tiles.adjacent (h : Tiles start size lower blocks upper) :
    blocks.IsChain fun first second ↦ start first + size first = start second := by
  induction blocks generalizing lower with
  | nil => simp
  | cons block blocks ih =>
    obtain ⟨hstart, -, htail⟩ := h
    cases blocks with
    | nil => simp
    | cons next rest =>
      refine List.isChain_cons_cons.mpr ⟨?_, ih htail⟩
      rw [hstart, htail.1]

theorem Tiles.getLast (h : Tiles start size lower blocks upper)
    (hblock : block ∈ blocks.getLast?) : start block + size block = upper := by
  obtain ⟨front, rfl⟩ := List.getLast?_eq_some_iff.mp hblock
  obtain ⟨middle, -, hstart, -, hend⟩ := tiles_append.mp h
  rw [hstart]
  exact hend

/-- Dropping the blocks that end at or before `bound` leaves a tiling that starts at or before it,
of blocks that all end after it. -/
theorem Tiles.dropWhile {bound : ℕ} {ended : α → Bool}
    (hended : ∀ block, ended block = true ↔ start block + size block ≤ bound)
    (h : Tiles start size lower blocks upper) (hlower : lower ≤ bound) :
    (∃ middle ≤ bound, Tiles start size middle (blocks.dropWhile ended) upper) ∧
      ∀ block ∈ blocks.dropWhile ended, bound < start block + size block := by
  induction blocks generalizing lower with
  | nil => exact ⟨⟨lower, hlower, h⟩, nofun⟩
  | cons head blocks ih =>
    have hstart := h.1
    by_cases hdrop : ended head = true
    · rw [List.dropWhile_cons_of_pos hdrop]
      apply ih h.2.2
      rw [← hstart]
      exact (hended head).mp hdrop
    · have hbeyond : bound < start head + size head := Nat.lt_of_not_le (mt (hended head).mpr hdrop)
      rw [List.dropWhile_cons_of_neg hdrop]
      refine ⟨⟨lower, hlower, h⟩, fun block hblock ↦ ?_⟩
      cases List.mem_cons.mp hblock with
      | inl hhead => rwa [hhead]
      | inr hmem =>
        have hbounds := h.2.2.bounds hmem
        omega

end Sponge.Tiling
