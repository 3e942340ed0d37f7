/-
# Patwari.Lib.Base64 — unpadded URL-safe base64.

Three bytes become four characters of a 64-letter alphabet; a last group of one or two bytes
becomes two or three. The decoder takes no padding, rejects any other character and any text with
a stray last character or with set bits after its last byte.
-/
import Mathlib.Tactic

namespace Patwari.Lib.Base64

/-- The URL-safe alphabet. -/
def alphabet : List Char :=
  "ABCDEFGHIJKLMNOPQRSTUVWXYZabcdefghijklmnopqrstuvwxyz0123456789-_".toList

/-- The character of a six-bit value. -/
def encodeSextet (n : ℕ) : Char := alphabet.getD n 'A'

/-- The six-bit value of a character. -/
def decodeSextet (ch : Char) : Option ℕ :=
  if ch ∈ alphabet then some (alphabet.idxOf ch) else none

/-- The characters of a byte string, three bytes at a time. -/
def encodeList : List UInt8 → List Char
  | a :: b :: c :: rest =>
    encodeSextet (a.toNat / 4) :: encodeSextet (a.toNat % 4 * 16 + b.toNat / 16) ::
      encodeSextet (b.toNat % 16 * 4 + c.toNat / 64) :: encodeSextet (c.toNat % 64) ::
        encodeList rest
  | [a, b] =>
    [encodeSextet (a.toNat / 4), encodeSextet (a.toNat % 4 * 16 + b.toNat / 16),
      encodeSextet (b.toNat % 16 * 4)]
  | [a] => [encodeSextet (a.toNat / 4), encodeSextet (a.toNat % 4 * 16)]
  | [] => []

/-- The bytes of a list of six-bit values. -/
def joinSextets : List ℕ → Option (List UInt8)
  | p :: q :: r :: s :: rest =>
    (joinSextets rest).map fun tail =>
      UInt8.ofNat (p * 4 + q / 16) :: UInt8.ofNat (q % 16 * 16 + r / 4) ::
        UInt8.ofNat (r % 4 * 64 + s) :: tail
  | [p, q, r] =>
    if r % 4 = 0 then
      some [UInt8.ofNat (p * 4 + q / 16), UInt8.ofNat (q % 16 * 16 + r / 4)]
    else none
  | [p, q] => if q % 16 = 0 then some [UInt8.ofNat (p * 4 + q / 16)] else none
  | [_] => none
  | [] => some []

def encode (bytes : List UInt8) : String := String.ofList (encodeList bytes)

def decode (text : String) : Option (List UInt8) :=
  (text.toList.mapM decodeSextet).bind joinSextets

/-! ## Reading back. -/

theorem sextet_facts : ∀ n < 64,
    decodeSextet (encodeSextet n) = some n ∧ (encodeSextet n).toNat < 128 := by
  decide

theorem decodeSextet_encodeSextet {n : ℕ} (h : n < 64) :
    decodeSextet (encodeSextet n) = some n :=
  (sextet_facts n h).1

/-- The six-bit values of a byte string. -/
def sextets : List UInt8 → List ℕ
  | a :: b :: c :: rest =>
    a.toNat / 4 :: (a.toNat % 4 * 16 + b.toNat / 16) :: (b.toNat % 16 * 4 + c.toNat / 64) ::
      c.toNat % 64 :: sextets rest
  | [a, b] => [a.toNat / 4, a.toNat % 4 * 16 + b.toNat / 16, b.toNat % 16 * 4]
  | [a] => [a.toNat / 4, a.toNat % 4 * 16]
  | [] => []

theorem encodeList_eq_map (bytes : List UInt8) :
    encodeList bytes = (sextets bytes).map encodeSextet := by
  fun_induction encodeList bytes with
  | case1 a b c rest ih => simp [sextets, ih]
  | case2 a b => rfl
  | case3 a => rfl
  | case4 => rfl

theorem sextets_lt (bytes : List UInt8) : ∀ n ∈ sextets bytes, n < 64 := by
  fun_induction sextets bytes with
  | case1 a b c rest ih =>
    have ha := a.toNat_lt
    have hb := b.toNat_lt
    have hc := c.toNat_lt
    simp only [List.forall_mem_cons]
    exact ⟨by omega, by omega, by omega, by omega, ih⟩
  | case2 a b =>
    have ha := a.toNat_lt
    have hb := b.toNat_lt
    simp only [List.forall_mem_cons]
    exact ⟨by omega, by omega, by omega, by simp⟩
  | case3 a =>
    have ha := a.toNat_lt
    simp only [List.forall_mem_cons]
    exact ⟨by omega, by omega, by simp⟩
  | case4 => simp

theorem mapM_decodeSextet {ns : List ℕ} (h : ∀ n ∈ ns, n < 64) :
    (ns.map encodeSextet).mapM decodeSextet = some ns := by
  induction ns with
  | nil => rfl
  | cons n ns ih =>
    rw [List.map_cons, List.mapM_cons, decodeSextet_encodeSextet (h n List.mem_cons_self),
      ih fun m hm => h m (List.mem_cons_of_mem _ hm)]
    rfl

theorem joinSextets_sextets (bytes : List UInt8) : joinSextets (sextets bytes) = some bytes := by
  have hbyte : ∀ (b : UInt8) (n : ℕ), n = b.toNat → UInt8.ofNat n = b := by
    rintro b n rfl
    exact UInt8.ofNat_toNat
  fun_induction sextets bytes with
  | case1 a b c rest ih =>
    have ha := a.toNat_lt
    have hb := b.toNat_lt
    have hc := c.toNat_lt
    rw [joinSextets, ih, Option.map_some, hbyte a _ (by omega), hbyte b _ (by omega),
      hbyte c _ (by omega)]
  | case2 a b =>
    have ha := a.toNat_lt
    have hb := b.toNat_lt
    rw [joinSextets, if_pos (by omega), hbyte a _ (by omega), hbyte b _ (by omega)]
  | case3 a =>
    have ha := a.toNat_lt
    rw [joinSextets, if_pos (by omega), hbyte a _ (by omega)]
  | case4 => rfl

/-- **`decode_encode`** — decoding an encoded byte string gives it back. -/
theorem decode_encode (bytes : List UInt8) : decode (encode bytes) = some bytes := by
  rw [decode, encode, String.toList_ofList, encodeList_eq_map,
    mapM_decodeSextet (sextets_lt bytes), Option.bind_some, joinSextets_sextets]

theorem length_sextets (bytes : List UInt8) :
    (sextets bytes).length = (4 * bytes.length + 2) / 3 := by
  fun_induction sextets bytes with
  | case1 a b c rest ih =>
    simp only [List.length_cons, ih]
    omega
  | case2 a b => simp
  | case3 a => simp
  | case4 => rfl

/-- The encoded text is four characters for three bytes, rounded up. -/
theorem length_encodeList (bytes : List UInt8) :
    (encodeList bytes).length = (4 * bytes.length + 2) / 3 := by
  rw [encodeList_eq_map, List.length_map, length_sextets]

theorem encodeList_ascii (bytes : List UInt8) : ∀ ch ∈ encodeList bytes, ch.toNat < 128 := by
  intro ch hch
  rw [encodeList_eq_map] at hch
  obtain ⟨n, hn, rfl⟩ := List.mem_map.mp hch
  exact (sextet_facts n (sextets_lt bytes n hn)).2

end Patwari.Lib.Base64
