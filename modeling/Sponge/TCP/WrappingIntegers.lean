import Sponge.Library.Word
import Mathlib.Data.Nat.Dist
import Mathlib.Data.UInt
import Mathlib.Tactic.Common

/-!
# 32-bit sequence numbers

A sequence number on the wire is a 32-bit integer relative to an initial sequence number.  `wrap`
makes one from an absolute sequence number, and `unwrap` goes back to the absolute number that lies
nearest to a checkpoint.  Absolute numbers are `uint64_t` values; the sum in `unwrap` is reduced
modulo `2 ^ 64` as the source computes it.
-/

namespace Sponge

/-- A 32-bit integer, expressed relative to an arbitrary initial sequence number. -/
structure WrappingInt32 where
  rawValue : UInt32
  deriving DecidableEq, Repr

namespace WrappingInt32

def offset (a b : WrappingInt32) : UInt32 := a.rawValue - b.rawValue

def advance (a : WrappingInt32) (b : UInt32) : WrappingInt32 := ⟨a.rawValue + b⟩

end WrappingInt32

open WrappingInt32

/-- Transform an absolute sequence number into a relative one. -/
def wrap (n : ℕ) (isn : WrappingInt32) : WrappingInt32 := isn.advance (UInt32.ofNat n)

/-- The absolute sequence number that wraps to `n` and is closest to the checkpoint. -/
def unwrap (n isn : WrappingInt32) (checkpoint : ℕ) : ℕ :=
  let checkpointMod : WrappingInt32 := ⟨UInt32.ofNat checkpoint⟩
  let index : WrappingInt32 := ⟨n.offset isn⟩
  if index = checkpointMod then checkpoint
  else if checkpointMod.offset index < index.offset checkpointMod ∧
      checkpoint ≥ (checkpointMod.offset index).toNat then
    checkpoint - (checkpointMod.offset index).toNat
  else (checkpoint + (index.offset checkpointMod).toNat) % Word.size

/-- The distance between two absolute sequence numbers is less than half the 32-bit space. -/
def Near (absolute checkpoint : ℕ) : Prop :=
  absolute < checkpoint + 2 ^ 31 ∧ checkpoint < absolute + 2 ^ 31

instance (absolute checkpoint : ℕ) : Decidable (Near absolute checkpoint) :=
  inferInstanceAs (Decidable (_ ∧ _))

@[simp] theorem offset_wrap (n : ℕ) (isn : WrappingInt32) :
    (wrap n isn).offset isn = UInt32.ofNat n := by
  simp [wrap, offset, advance]

theorem toNat_offset_ofNat (left right : ℕ) :
    ((⟨UInt32.ofNat left⟩ : WrappingInt32).offset ⟨UInt32.ofNat right⟩).toNat =
      (2 ^ 32 - right % 2 ^ 32 + left % 2 ^ 32) % 2 ^ 32 := by
  simp only [offset]
  rw [UInt32.toNat_sub, UInt32.toNat_ofNat', UInt32.toNat_ofNat']

theorem toNat_offset_of_le {low high : ℕ} (hle : low ≤ high) (hhalf : high < low + 2 ^ 31) :
    ((⟨UInt32.ofNat high⟩ : WrappingInt32).offset ⟨UInt32.ofNat low⟩).toNat = high - low := by
  rw [toNat_offset_ofNat]
  omega

theorem toNat_offset_of_lt {low high : ℕ} (hlt : low < high) (hhalf : high < low + 2 ^ 31) :
    ((⟨UInt32.ofNat low⟩ : WrappingInt32).offset ⟨UInt32.ofNat high⟩).toNat =
      2 ^ 32 - (high - low) := by
  rw [toNat_offset_ofNat]
  omega

/-- Near numbers are the same if their remainders are. -/
theorem ofNat_eq_ofNat_iff {left right : ℕ} (hnear : Near left right) :
    (⟨UInt32.ofNat left⟩ : WrappingInt32) = ⟨UInt32.ofNat right⟩ ↔ left = right := by
  have habove := hnear.1
  have hbelow := hnear.2
  rw [WrappingInt32.mk.injEq, ← UInt32.toNat_inj, UInt32.toNat_ofNat', UInt32.toNat_ofNat']
  omega

/-- Near the checkpoint, unwrapping recovers the absolute number. -/
theorem unwrap_wrap {absolute checkpoint : ℕ} (isn : WrappingInt32) (hword : absolute < Word.size)
    (hnear : Near absolute checkpoint) : unwrap (wrap absolute isn) isn checkpoint = absolute := by
  have habove := hnear.1
  have hbelow := hnear.2
  simp only [unwrap, offset_wrap, ofNat_eq_ofNat_iff hnear, UInt32.lt_iff_toNat_lt]
  cases Nat.lt_trichotomy absolute checkpoint with
  | inl hlt =>
    rw [toNat_offset_of_le hlt.le hbelow, toNat_offset_of_lt hlt hbelow, if_neg (by omega),
      if_pos (by omega)]
    omega
  | inr hge =>
    cases hge with
    | inl hequal => rw [if_pos hequal, hequal]
    | inr hgt =>
      rw [toNat_offset_of_le hgt.le habove, toNat_offset_of_lt hgt habove, if_neg (by omega),
        if_neg (by omega), Nat.add_sub_cancel' hgt.le]
      exact Nat.mod_eq_of_lt hword

/-! ## The nearest number -/

/-- A number wraps to `n` if it has the right remainder. -/
theorem wrap_eq_iff {absolute : ℕ} {n isn : WrappingInt32} :
    wrap absolute isn = n ↔ absolute % 2 ^ 32 = (n.offset isn).toNat := by
  rw [← UInt32.toNat_ofNat', UInt32.toNat_inj]
  constructor
  · rintro rfl
    exact (offset_wrap absolute isn).symm
  · intro hoffset
    rw [wrap, hoffset]
    simp [advance, offset]

/-- The way from the checkpoint down to the next number that wraps to `n`.  The way up is the rest of
a full turn. -/
def stepsDown (n isn : WrappingInt32) (checkpoint : ℕ) : ℕ :=
  (checkpoint % 2 ^ 32 + (2 ^ 32 - (n.offset isn).toNat)) % 2 ^ 32

/-- The number above the checkpoint is taken if it is not farther away, or if there is none below. -/
theorem unwrap_eq (n isn : WrappingInt32) (checkpoint : ℕ) :
    unwrap n isn checkpoint =
      if stepsDown n isn checkpoint < 2 ^ 31 ∧ stepsDown n isn checkpoint ≤ checkpoint then
        checkpoint - stepsDown n isn checkpoint
      else (checkpoint + (2 ^ 32 - stepsDown n isn checkpoint)) % Word.size := by
  have hlt := (n.offset isn).toNat_lt
  have hindex : n.offset isn = UInt32.ofNat (n.offset isn).toNat := UInt32.ofNat_toNat.symm
  unfold unwrap stepsDown
  rw [hindex]
  simp only [WrappingInt32.mk.injEq, ← UInt32.toNat_inj, UInt32.lt_iff_toNat_lt, toNat_offset_ofNat,
    UInt32.toNat_ofNat']
  generalize (n.offset isn).toNat = index at hlt ⊢
  rw [Nat.mod_eq_of_lt hlt]
  have hcheckpoint : checkpoint % 2 ^ 32 < 2 ^ 32 := Nat.mod_lt _ (by decide)
  have hle : checkpoint % 2 ^ 32 ≤ checkpoint := Nat.mod_le _ _
  generalize checkpoint % 2 ^ 32 = low at hcheckpoint hle ⊢
  cases Nat.lt_trichotomy index low with
  | inl hbelow =>
    have hdown : (2 ^ 32 - index + low) % 2 ^ 32 = low - index := by omega
    have hup : (2 ^ 32 - low + index) % 2 ^ 32 = 2 ^ 32 - (low - index) := by omega
    have hsteps : (low + (2 ^ 32 - index)) % 2 ^ 32 = low - index := by omega
    rw [hdown, hup, hsteps, if_neg hbelow.ne]
    split_ifs <;> omega
  | inr hrest =>
    cases hrest with
    | inl hequal =>
      have hsteps : (low + (2 ^ 32 - index)) % 2 ^ 32 = 0 := by omega
      rw [hsteps, if_pos hequal, if_pos ⟨by decide, Nat.zero_le _⟩, Nat.sub_zero]
    | inr habove =>
      have hdown : (2 ^ 32 - index + low) % 2 ^ 32 = 2 ^ 32 - (index - low) := by omega
      have hup : (2 ^ 32 - low + index) % 2 ^ 32 = index - low := by omega
      have hsteps : (low + (2 ^ 32 - index)) % 2 ^ 32 = 2 ^ 32 - (index - low) := by omega
      have hturn : 2 ^ 32 - (2 ^ 32 - (index - low)) = index - low := by omega
      rw [hdown, hup, hsteps, hturn, if_neg habove.ne']
      split_ifs <;> omega

/-- Going down by `stepsDown` leads to a number that wraps to `n`. -/
theorem stepsDown_spec (n isn : WrappingInt32) (checkpoint : ℕ) :
    stepsDown n isn checkpoint < 2 ^ 32 ∧
      (stepsDown n isn checkpoint + (n.offset isn).toNat) % 2 ^ 32 = checkpoint % 2 ^ 32 := by
  have hlt := (n.offset isn).toNat_lt
  constructor
  · exact Nat.mod_lt _ (by decide)
  · unfold stepsDown
    rw [Nat.mod_add_mod, Nat.add_assoc, Nat.sub_add_cancel hlt.le, Nat.add_mod_right, Nat.mod_mod]

/-- Wrapping undoes unwrapping. -/
theorem wrap_unwrap (n isn : WrappingInt32) (checkpoint : ℕ) :
    wrap (unwrap n isn checkpoint) isn = n := by
  obtain ⟨hsteps, hsum⟩ := stepsDown_spec n isn checkpoint
  have hlt := (n.offset isn).toNat_lt
  rw [wrap_eq_iff, unwrap_eq]
  split_ifs with hbelow
  · omega
  · rw [Nat.mod_mod_of_dvd _ (by decide)]
    omega

theorem unwrap_lt (n isn : WrappingInt32) {checkpoint : ℕ} (hword : checkpoint < Word.size) :
    unwrap n isn checkpoint < Word.size := by
  rw [unwrap_eq]
  split_ifs
  · exact (Nat.sub_le _ _).trans_lt hword
  · exact Nat.mod_lt _ (by decide)

/-- Unless the checkpoint lies in the last `2 ^ 31` numbers, no number that wraps to `n` is nearer to
it, and of two that are equally near the larger one is taken. -/
theorem unwrap_nearest {n isn : WrappingInt32} {checkpoint absolute : ℕ}
    (hcheckpoint : checkpoint ≤ 2 ^ 64 - 1 - 2 ^ 31) (hwraps : wrap absolute isn = n) :
    Nat.dist (unwrap n isn checkpoint) checkpoint ≤ Nat.dist absolute checkpoint ∧
      (Nat.dist absolute checkpoint = Nat.dist (unwrap n isn checkpoint) checkpoint →
        absolute ≤ unwrap n isn checkpoint) := by
  obtain ⟨hsteps, hsum⟩ := stepsDown_spec n isn checkpoint
  rw [wrap_eq_iff] at hwraps
  rw [unwrap_eq]
  generalize stepsDown n isn checkpoint = down at hsteps hsum ⊢
  have hlt := (n.offset isn).toNat_lt
  generalize (n.offset isn).toNat = index at hlt hsum hwraps
  unfold Nat.dist
  split_ifs with hbelow
  · constructor <;> omega
  · have hword : checkpoint + (2 ^ 32 - down) < Word.size := by
      change _ < 2 ^ 64
      omega
    rw [Nat.mod_eq_of_lt hword]
    constructor <;> omega

/-- `unwrap` finds the absolute sequence number that is nearest to the checkpoint. -/
theorem unwrap_finds_nearest (n isn : WrappingInt32) (checkpoint : ℕ)
    (hword : checkpoint < 2 ^ 64) :
    unwrap n isn checkpoint < 2 ^ 64 ∧ wrap (unwrap n isn checkpoint) isn = n ∧
    (checkpoint ≤ 2 ^ 64 - 1 - 2 ^ 31 → ∀ absolute < 2 ^ 64, wrap absolute isn = n →
      Nat.dist (unwrap n isn checkpoint) checkpoint ≤ Nat.dist absolute checkpoint ∧
      (Nat.dist absolute checkpoint = Nat.dist (unwrap n isn checkpoint) checkpoint →
        absolute ≤ unwrap n isn checkpoint)) ∧
    ∀ absolute < 2 ^ 64, Nat.dist absolute checkpoint < 2 ^ 31 →
      unwrap (wrap absolute isn) isn checkpoint = absolute := by
  refine ⟨unwrap_lt n isn hword, wrap_unwrap n isn checkpoint, ?_, ?_⟩
  · exact fun hcheckpoint _ _ hwraps ↦ unwrap_nearest hcheckpoint hwraps
  · intro absolute hlt hdist
    unfold Nat.dist at hdist
    exact unwrap_wrap isn hlt ⟨by omega, by omega⟩

/-- A tie: the number `2 ^ 31` above the checkpoint is preferred to the one below it. -/
theorem unwrap_finds_nearest_tie :
    unwrap ⟨0⟩ ⟨0⟩ (2 ^ 32 + 2 ^ 31) = 2 ^ 33 ∧ wrap (2 ^ 33) ⟨0⟩ = ⟨0⟩ ∧
      Nat.dist (unwrap ⟨0⟩ ⟨0⟩ (2 ^ 32 + 2 ^ 31)) (2 ^ 32 + 2 ^ 31) ≤
        Nat.dist (2 ^ 32) (2 ^ 32 + 2 ^ 31) := by
  have hnearest := (unwrap_finds_nearest ⟨0⟩ ⟨0⟩ (2 ^ 32 + 2 ^ 31) (by decide)).2.2.1
  exact ⟨by decide, by decide, (hnearest (by decide) (2 ^ 32) (by decide) (by decide)).1⟩

end Sponge
