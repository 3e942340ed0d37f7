/-
# Patwari.Lib.Utf8 — text and its bytes.

A character below 128 is one byte, itself; any other is written in bytes from 128 on. So a byte
below 128 is always a character, and a text all of whose bytes are below 128 can be read byte by
byte. `chars` does that: it is the list of characters of a text, and for such a text it evaluates
without decoding.
-/
import Mathlib.Data.String.Basic
import Mathlib.Tactic

namespace Patwari.Lib

/-- A character below 128 is one byte. -/
theorem utf8EncodeChar_ascii {ch : Char} (h : ch.toNat < 128) :
    String.utf8EncodeChar ch = [UInt8.ofNat ch.toNat] := by
  have hle : ch.val.toNat ≤ 127 := Nat.le_of_lt_succ h
  unfold String.utf8EncodeChar
  rw [if_pos hle]
  rfl

/-- Any other character is written in bytes from 128 on, at least one. -/
theorem utf8EncodeChar_high {ch : Char} (h : 128 ≤ ch.toNat) :
    String.utf8EncodeChar ch ≠ [] ∧ ∀ b ∈ String.utf8EncodeChar ch, 128 ≤ b.toNat := by
  have hgt : ¬ ch.val.toNat ≤ 127 := Nat.not_le.mpr (Nat.lt_of_succ_le h)
  have hmark {n : ℕ} (hlow : 128 ≤ n) (hhigh : n < 256) : 128 ≤ (UInt8.ofNat n).toNat := by
    rwa [UInt8.toNat_ofNat_of_lt' hhigh]
  unfold String.utf8EncodeChar
  rw [if_neg hgt]
  -- two, three or four bytes, each with its mark
  split_ifs
  all_goals
    refine ⟨List.cons_ne_nil _ _, ?_⟩
    simp only [List.forall_mem_cons, List.not_mem_nil, false_imp_iff, implies_true, and_true]
  · exact ⟨hmark (by omega) (by omega), hmark (by omega) (by omega)⟩
  · exact ⟨hmark (by omega) (by omega), hmark (by omega) (by omega), hmark (by omega) (by omega)⟩
  · exact ⟨hmark (by omega) (by omega), hmark (by omega) (by omega), hmark (by omega) (by omega),
      hmark (by omega) (by omega)⟩

/-- The bytes as characters, `none` when one of them is not below 128. -/
def asciiChars : List UInt8 → Option (List Char)
  | [] => some []
  | b :: rest =>
    if b.toNat < 128 then (asciiChars rest).map (Char.ofNat b.toNat :: ·) else none

/-- Reading bytes one by one gives the characters they were written from. -/
theorem asciiChars_encoded {cs ds : List Char}
    (h : asciiChars (cs.flatMap String.utf8EncodeChar) = some ds) : ds = cs := by
  induction cs generalizing ds with
  | nil => exact (Option.some.inj h).symm
  | cons ch cs ih =>
    rw [List.flatMap_cons] at h
    by_cases hascii : ch.toNat < 128
    · have hbyte : (UInt8.ofNat ch.toNat).toNat = ch.toNat :=
        UInt8.toNat_ofNat_of_lt' (Nat.lt_trans hascii (by norm_num))
      rw [utf8EncodeChar_ascii hascii, List.singleton_append, asciiChars, hbyte, if_pos hascii] at h
      obtain ⟨rest, hrest, rfl⟩ := Option.map_eq_some_iff.mp h
      rw [ih hrest, Char.ofNat_toNat]
    · obtain ⟨hne, hhigh⟩ := utf8EncodeChar_high (Nat.not_lt.mp hascii)
      obtain ⟨b, bs, hbs⟩ := List.exists_cons_of_ne_nil hne
      have hb : ¬ b.toNat < 128 := Nat.not_lt.mpr (hhigh b (hbs ▸ List.mem_cons_self))
      rw [hbs, List.cons_append, asciiChars, if_neg hb] at h
      contradiction

/-- **`chars`** — the characters of a text, read off its bytes where they are all below 128. -/
def chars (s : String) : List Char := (asciiChars s.toByteArray.data.toList).getD s.toList

@[simp] theorem chars_eq (s : String) : chars s = s.toList := by
  have hbytes : s.toByteArray.data.toList = s.toList.flatMap String.utf8EncodeChar := by
    conv_lhs => rw [← String.ofList_toList (s := s)]
    exact List.toList_data_toByteArray
  unfold chars
  cases h : asciiChars s.toByteArray.data.toList with
  | none => rfl
  | some ds =>
    rw [hbytes] at h
    exact asciiChars_encoded h

end Patwari.Lib
