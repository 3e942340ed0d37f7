/-
# Patwari.Lib.Bitmap — sets of small numbers as the bits of a byte string.

Number `i` is bit `i % 8` of byte `i / 8`. §1 adds numbers to a bitmap and reads them back, §2 is
its text in hexadecimal digits, two for a byte with the high one first.
-/
import Mathlib.Data.Nat.Bitwise
import Patwari.Lib.Json

namespace Patwari.Lib.Bitmap

/-! ## §1 — Bits. -/

/-- The byte whose only bit is bit `i % 8`. -/
def mask (i : ℕ) : UInt8 := 1 <<< UInt8.ofNat (i % 8)

/-- A bitmap with room for `n` numbers and none in it. -/
def empty (n : ℕ) : List UInt8 := List.replicate ((n + 7) / 8) 0

/-- Sets the bit of a number. -/
def add (i : ℕ) (bytes : List UInt8) : List UInt8 := bytes.modify (i / 8) (· ||| mask i)

/-- The bit of a number is set. -/
def holds (bytes : List UInt8) (i : ℕ) : Bool := decide (bytes.getD (i / 8) 0 &&& mask i ≠ 0)

theorem toNat_mask (i : ℕ) : (mask i).toNat = 2 ^ (i % 8) := by
  have hall : ∀ k < 8, ((1 : UInt8) <<< UInt8.ofNat k).toNat = 2 ^ k := by decide
  exact hall (i % 8) (Nat.mod_lt i (by omega))

/-- The bit of a number is the one its byte has there. -/
theorem holds_eq_testBit (bytes : List UInt8) (i : ℕ) :
    holds bytes i = (bytes.getD (i / 8) 0).toNat.testBit (i % 8) := by
  have hand : (bytes.getD (i / 8) 0 &&& mask i).toNat =
      ((bytes.getD (i / 8) 0).toNat.testBit (i % 8)).toNat * 2 ^ (i % 8) := by
    rw [UInt8.toNat_and, toNat_mask, Nat.and_two_pow]
  have hne : bytes.getD (i / 8) 0 &&& mask i ≠ 0 ↔
      (bytes.getD (i / 8) 0).toNat.testBit (i % 8) = true := by
    rw [ne_eq, ← UInt8.toNat_inj, hand]
    cases (bytes.getD (i / 8) 0).toNat.testBit (i % 8) <;> simp
  rw [holds, Bool.eq_iff_iff, decide_eq_true_iff]
  exact hne

@[simp] theorem length_empty (n : ℕ) : (empty n).length = (n + 7) / 8 := List.length_replicate

@[simp] theorem length_add (i : ℕ) (bytes : List UInt8) : (add i bytes).length = bytes.length :=
  List.length_modify _ _ _

@[simp] theorem holds_empty (n i : ℕ) : holds (empty n) i = false := by
  have hzero : (empty n).getD (i / 8) 0 = 0 := by
    rw [List.getD_eq_getElem?_getD, empty, List.getElem?_replicate]
    split <;> rfl
  rw [holds_eq_testBit, hzero]
  exact Nat.zero_testBit _

/-- **`holds_add`** — adding a number adds that number only. -/
theorem holds_add {bytes : List UInt8} {i : ℕ} (hi : i < 8 * bytes.length) (j : ℕ) :
    holds (add i bytes) j = true ↔ j = i ∨ holds bytes j = true := by
  have hlt : i / 8 < bytes.length := by omega
  by_cases hbyte : j / 8 = i / 8
  · have hget : (add i bytes).getD (j / 8) 0 = bytes.getD (j / 8) 0 ||| mask i := by
      rw [hbyte, List.getD_eq_getElem?_getD, List.getD_eq_getElem?_getD, add,
        List.getElem?_modify_eq, List.getElem?_eq_getElem hlt]
      rfl
    have hbit : (j = i) ↔ j % 8 = i % 8 := by omega
    rw [holds_eq_testBit, holds_eq_testBit, hget, UInt8.toNat_or, toNat_mask, Nat.testBit_or,
      Nat.testBit_two_pow, Bool.or_eq_true, decide_eq_true_iff, hbit, or_comm]
    exact or_congr_left eq_comm
  · have hget : (add i bytes).getD (j / 8) 0 = bytes.getD (j / 8) 0 := by
      rw [List.getD_eq_getElem?_getD, List.getD_eq_getElem?_getD, add,
        List.getElem?_modify_ne _ _ (Ne.symm hbyte)]
    have hne : j ≠ i := fun h => hbyte (by rw [h])
    rw [holds_eq_testBit, holds_eq_testBit, hget]
    simp [hne]

/-! ## §2 — Hexadecimal text. -/

def encodeHex (bytes : List UInt8) : List Char :=
  bytes.flatMap fun b => [Json.hexDigit (b.toNat / 16), Json.hexDigit (b.toNat % 16)]

def decodeHex : List Char → List UInt8
  | high :: low :: rest =>
    UInt8.ofNat (16 * Json.hexVal high + Json.hexVal low) :: decodeHex rest
  | _ => []

theorem length_encodeHex (bytes : List UInt8) : (encodeHex bytes).length = 2 * bytes.length := by
  induction bytes with
  | nil => rfl
  | cons b rest ih =>
    show (encodeHex rest).length + 1 + 1 = 2 * (rest.length + 1)
    omega

theorem decodeHex_encodeHex (bytes : List UInt8) : decodeHex (encodeHex bytes) = bytes := by
  induction bytes with
  | nil => rfl
  | cons b rest ih =>
    have hb : b.toNat < 256 := b.toNat_lt
    have hhigh := Json.hexDigit_facts (b.toNat / 16) (by omega)
    have hlow := Json.hexDigit_facts (b.toNat % 16) (by omega)
    show UInt8.ofNat (16 * Json.hexVal (Json.hexDigit (b.toNat / 16)) +
      Json.hexVal (Json.hexDigit (b.toNat % 16))) :: decodeHex (encodeHex rest) = b :: rest
    rw [hhigh, hlow, ih, Nat.div_add_mod, UInt8.ofNat_toNat]

end Patwari.Lib.Bitmap
