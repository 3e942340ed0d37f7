/-
# Patwari.Lib.Tiling — cutting a length into pieces of one size.

A length `n` is cut into pieces of size `w`, the last of which takes what is left. The pieces are
told apart by their starts: there is one for every multiple of `w` below `n`, it is not empty, and
the pieces before it end where it starts.
-/
import Mathlib.Algebra.BigOperators.Group.Finset.Basic
import Mathlib.Tactic

namespace Patwari.Lib

/-- How many pieces there are. -/
def pieceCount (n w : ℕ) : ℕ := if n = 0 then 0 else (n - 1) / w + 1

/-- The length of piece `k`. -/
def pieceLength (n w k : ℕ) : ℕ := min w (n - k * w)

variable {n w k : ℕ}

/-- A piece is there when it starts below the end. -/
theorem lt_pieceCount (hw : 0 < w) : k < pieceCount n w ↔ k * w < n := by
  unfold pieceCount
  split_ifs with hn
  · omega
  · rw [Nat.lt_succ_iff, Nat.le_div_iff_mul_le hw]
    omega

theorem le_pieceCount_mul (hw : 0 < w) (n : ℕ) : n ≤ pieceCount n w * w :=
  Nat.le_of_not_lt fun h => (lt_irrefl _) ((lt_pieceCount hw).mpr h)

theorem pieceCount_le {m : ℕ} (hw : 0 < w) (h : n ≤ m * w) : pieceCount n w ≤ m := by
  by_contra hlt
  have hstart := (lt_pieceCount hw).mp (Nat.lt_of_not_le hlt)
  omega

theorem pieceLength_pos (hw : 0 < w) (hk : k < pieceCount n w) : 0 < pieceLength n w k := by
  have hstart := (lt_pieceCount hw).mp hk
  unfold pieceLength
  omega

theorem pieceLength_le (n w k : ℕ) : pieceLength n w k ≤ w := Nat.min_le_left _ _

/-- The last piece takes what is left, every other one is whole. -/
theorem pieceLength_eq (hw : 0 < w) (hk : k < pieceCount n w) :
    pieceLength n w k = if k + 1 = pieceCount n w then n - k * w else w := by
  have hsucc : (k + 1) * w = k * w + w := Nat.succ_mul k w
  unfold pieceLength
  split_ifs with hlast
  · have hend := le_pieceCount_mul hw n
    rw [← hlast, hsucc] at hend
    omega
  · have hnext : k + 1 < pieceCount n w := by omega
    have hstart := (lt_pieceCount hw).mp hnext
    rw [hsucc] at hstart
    omega

/-- The pieces before one end where it starts, or at the end of everything. -/
theorem sum_pieceLength (n w k : ℕ) :
    ∑ j ∈ Finset.range k, pieceLength n w j = min n (k * w) := by
  induction k with
  | zero => simp
  | succ k ih =>
    have hsucc : (k + 1) * w = k * w + w := Nat.succ_mul k w
    rw [Finset.sum_range_succ, ih, hsucc]
    unfold pieceLength
    omega

/-- Piece `k` starts at `k * w`. -/
theorem sum_pieceLength_start (hw : 0 < w) (hk : k < pieceCount n w) :
    ∑ j ∈ Finset.range k, pieceLength n w j = k * w := by
  have hstart := (lt_pieceCount hw).mp hk
  rw [sum_pieceLength]
  omega

/-- All pieces together are the whole. -/
theorem sum_pieceLength_all (hw : 0 < w) (n : ℕ) :
    ∑ j ∈ Finset.range (pieceCount n w), pieceLength n w j = n := by
  have hend := le_pieceCount_mul hw n
  rw [sum_pieceLength]
  omega

end Patwari.Lib
