/-
# Patwari.Lib.JsonSize — how many bytes the text of a JSON value takes.

The text of a value is never shorter or longer than the sizes of its parts say: `Json.size` adds
them up without writing the text, and `utf8ByteSize_compact` says that the document has that many
bytes.
-/
import Patwari.Lib.Json
import Mathlib.Data.Nat.Log
import Mathlib.Data.String.Basic

namespace Patwari.Lib.Json

/-! ## §1 — Sizes. -/

/-- The bytes a character takes inside a string. -/
def charSize (c : Char) : ℕ :=
  if c.toNat ∈ [8, 9, 10, 12, 13, 34, 92] then 2
  else if c.toNat < 32 then 6
  else c.utf8Size

/-- The bytes of a string with its quotes. -/
def textSize (s : String) : ℕ := (s.toList.map charSize).sum + 2

/-- The digits of a natural number. -/
def natSize (n : ℕ) : ℕ := Nat.log 10 n + 1

def intSize : ℤ → ℕ
  | .ofNat n => natSize n
  | .negSucc n => natSize (n + 1) + 1

@[simp] theorem intSize_natCast (n : ℕ) : intSize n = natSize n := rfl

mutual

/-- **`size`** — the bytes of a value's compact text. -/
def size : Json → ℕ
  | .null => 4
  | .bool true => 4
  | .bool false => 5
  | .num n => intSize n
  | .str s => textSize s
  | .arr [] => 2
  | .arr (x :: xs) => size x + sizeElems xs + 1
  | .obj [] => 2
  | .obj ((k, x) :: fs) => textSize k + size x + sizeFields fs + 2

/-- The elements after the first, each with its comma, and the closing bracket. -/
def sizeElems : List Json → ℕ
  | [] => 1
  | x :: xs => size x + sizeElems xs + 1

/-- The fields after the first, each with its comma and colon, and the closing brace. -/
def sizeFields : List (String × Json) → ℕ
  | [] => 1
  | (k, x) :: fs => textSize k + size x + sizeFields fs + 2

end

/-! ## §2 — Texts have their sizes. -/

theorem charSize_plain {c : Char} (h : PlainChar c) : charSize c = 1 := by
  obtain ⟨hlow, hhigh, hquote, hslash⟩ := h
  have hall : ∀ n < 127, 32 ≤ n → Char.ofNat n ≠ '"' → Char.ofNat n ≠ '\\' →
      charSize (Char.ofNat n) = 1 := by decide +kernel
  rw [← Char.ofNat_toNat c] at hquote hslash ⊢
  exact hall _ hhigh hlow hquote hslash

theorem sum_charSize_plain {cs : List Char} (h : ∀ c ∈ cs, PlainChar c) :
    (cs.map charSize).sum = cs.length := by
  induction cs with
  | nil => rfl
  | cons c cs ih =>
    rw [List.map_cons, List.sum_cons, charSize_plain (h c List.mem_cons_self),
      ih fun x hx => h x (List.mem_cons_of_mem _ hx), List.length_cons]
    omega

theorem utf8Len_ascii {cs : List Char} (h : ∀ c ∈ cs, c.toNat < 128) :
    String.utf8Len cs = cs.length := by
  induction cs with
  | nil => rfl
  | cons c cs ih =>
    have hc : c.utf8Size = 1 := by
      have hlt := h c List.mem_cons_self
      have hval : c.val.toNat < 128 := hlt
      rw [Char.utf8Size_eq_one_iff]
      exact UInt32.le_iff_toNat_le.mpr (by show c.val.toNat ≤ 127; omega)
    rw [String.utf8Len_cons, ih fun x hx => h x (List.mem_cons_of_mem _ hx), hc, List.length_cons]

theorem utf8Len_escape (c : Char) : String.utf8Len (escape c) = charSize c := by
  have hascii : ∀ n < 128,
      String.utf8Len (escape (Char.ofNat n)) = charSize (Char.ofNat n) := by decide +kernel
  by_cases hc : c.toNat < 128
  · rw [← Char.ofNat_toNat c]
    exact hascii _ hc
  · -- beyond ASCII a character stands for itself
    have hne (d : Char) (hd : d.toNat < 128) : c ≠ d := by
      rintro rfl
      exact hc hd
    have hescape : escape c = [c] := by
      simp only [escape, hne '"' (by decide), hne '\\' (by decide), hne (Char.ofNat 8) (by decide),
        hne (Char.ofNat 9) (by decide), hne (Char.ofNat 10) (by decide),
        hne (Char.ofNat 12) (by decide), hne (Char.ofNat 13) (by decide), if_false]
      rw [if_neg (by omega)]
    have hsize : charSize c = c.utf8Size := by
      unfold charSize
      have hlisted : c.toNat ∉ [8, 9, 10, 12, 13, 34, 92] := by
        simp only [List.mem_cons, List.not_mem_nil, or_false]
        omega
      rw [if_neg hlisted, if_neg (by omega)]
    rw [hescape, hsize, String.utf8Len_cons, String.utf8Len_nil, Nat.zero_add]

theorem utf8Len_renderChars (cs : List Char) :
    String.utf8Len (renderChars cs) = (cs.map charSize).sum + 1 := by
  induction cs with
  | nil => rfl
  | cons c cs ih =>
    rw [renderChars, String.utf8Len_append, utf8Len_escape, ih, List.map_cons, List.sum_cons]
    omega

theorem utf8Len_renderString (s : String) : String.utf8Len (renderString s) = textSize s := by
  rw [renderString, chars_eq, String.utf8Len_cons, utf8Len_renderChars]
  rfl

theorem length_renderNat (n : ℕ) : (renderNat n).length = natSize n := by
  unfold renderNat natSize
  split_ifs with h
  · subst h
    rfl
  · rw [List.length_reverse, List.length_map, Nat.length_digits 10 n (by omega) h]

theorem utf8Len_renderInt (n : ℤ) : String.utf8Len (renderInt n) = intSize n := by
  rw [utf8Len_ascii (renderInt_ascii n)]
  cases n with
  | ofNat n => exact length_renderNat n
  | negSucc n =>
    show (renderNat (n + 1)).length + 1 = natSize (n + 1) + 1
    rw [length_renderNat]

mutual

theorem utf8Len_render : ∀ j : Json, String.utf8Len (render j) = size j
  | .null => rfl
  | .bool true => rfl
  | .bool false => rfl
  | .num n => utf8Len_renderInt n
  | .str s => utf8Len_renderString s
  | .arr [] => rfl
  | .arr (x :: xs) => by
    rw [render, size, String.utf8Len_cons, String.utf8Len_append, utf8Len_render x,
      utf8Len_renderElems xs]
    rfl
  | .obj [] => rfl
  | .obj ((k, x) :: fs) => by
    rw [render, size, String.utf8Len_cons, String.utf8Len_append, String.utf8Len_cons,
      String.utf8Len_append, utf8Len_renderString, utf8Len_render x, utf8Len_renderFields fs]
    have hcolon : ':'.utf8Size = 1 := rfl
    have hbrace : '{'.utf8Size = 1 := rfl
    omega

theorem utf8Len_renderElems : ∀ xs : List Json, String.utf8Len (renderElems xs) = sizeElems xs
  | [] => rfl
  | x :: xs => by
    rw [renderElems, sizeElems, String.utf8Len_cons, String.utf8Len_append, utf8Len_render x,
      utf8Len_renderElems xs]
    rfl

theorem utf8Len_renderFields :
    ∀ fs : List (String × Json), String.utf8Len (renderFields fs) = sizeFields fs
  | [] => rfl
  | (k, x) :: fs => by
    rw [renderFields, sizeFields, String.utf8Len_cons, String.utf8Len_append, String.utf8Len_cons,
      String.utf8Len_append, utf8Len_renderString, utf8Len_render x, utf8Len_renderFields fs]
    have hcolon : ':'.utf8Size = 1 := rfl
    have hcomma : ','.utf8Size = 1 := rfl
    omega

end

/-- **`utf8ByteSize_compact`** — the document a serializer writes has the size of its value. -/
theorem utf8ByteSize_compact (j : Json) : (compact j).utf8ByteSize = size j := by
  rw [compact, String.utf8ByteSize_ofList, utf8Len_render]

end Patwari.Lib.Json
