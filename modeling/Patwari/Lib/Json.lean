/-
# Patwari.Lib.Json — JSON values and their compact text.

A JSON value as a tree, the compact text a serializer writes for it (no whitespace, the two-letter
escapes, `\u00xx` for the other control characters), and a reader for exactly that text. An object
keeps its fields in the order they were written, duplicates included: two trees that differ in
field order differ, and so do their texts.

The one result is `Json.parse_compact`: reading back what was written gives the tree. Its
corollary `Json.compact_injective` is what a digest over serialized documents rests on. Readers in
use bound the nesting and the numbers they take; `Json.Within` says that a value keeps to such
bounds.
-/
import Patwari.Lib.Utf8
import Mathlib.Data.Nat.Digits.Lemmas
import Mathlib.Tactic

namespace Patwari.Lib

/-- A JSON value. Numbers are integers. -/
inductive Json where
  | null
  | bool (b : Bool)
  | num (n : ℤ)
  | str (s : String)
  | arr (elems : List Json)
  | obj (fields : List (String × Json))
  deriving Repr

namespace Json

/-! ## §1 — The text of a value. -/

/-- The decimal digits of a natural number, most significant first. -/
def renderNat (n : ℕ) : List Char :=
  if n = 0 then ['0'] else ((Nat.digits 10 n).map Nat.digitChar).reverse

/-- The text of an integer. -/
def renderInt : ℤ → List Char
  | .ofNat n => renderNat n
  | .negSucc n => '-' :: renderNat (n + 1)

/-- One lowercase hexadecimal digit. -/
def hexDigit (n : ℕ) : Char := Nat.digitChar n

/-- The text of one character inside a string. -/
def escape (c : Char) : List Char :=
  if c = '"' then ['\\', '"']
  else if c = '\\' then ['\\', '\\']
  else if c = Char.ofNat 8 then ['\\', 'b']
  else if c = Char.ofNat 9 then ['\\', 't']
  else if c = Char.ofNat 10 then ['\\', 'n']
  else if c = Char.ofNat 12 then ['\\', 'f']
  else if c = Char.ofNat 13 then ['\\', 'r']
  else if c.toNat < 32 then
    ['\\', 'u', '0', '0', hexDigit (c.toNat / 16), hexDigit (c.toNat % 16)]
  else [c]

/-- The body of a string and its closing quote. -/
def renderChars : List Char → List Char
  | [] => ['"']
  | c :: cs => escape c ++ renderChars cs

/-- The text of a string. -/
def renderString (s : String) : List Char := '"' :: renderChars (chars s)

mutual

/-- The compact text of a value. -/
def render : Json → List Char
  | .null => ['n', 'u', 'l', 'l']
  | .bool true => ['t', 'r', 'u', 'e']
  | .bool false => ['f', 'a', 'l', 's', 'e']
  | .num n => renderInt n
  | .str s => renderString s
  | .arr [] => ['[', ']']
  | .arr (x :: xs) => '[' :: (render x ++ renderElems xs)
  | .obj [] => ['{', '}']
  | .obj ((k, x) :: fs) => '{' :: (renderString k ++ ':' :: (render x ++ renderFields fs))

/-- The elements after the first, and the closing bracket. -/
def renderElems : List Json → List Char
  | [] => [']']
  | x :: xs => ',' :: (render x ++ renderElems xs)

/-- The fields after the first, and the closing brace. -/
def renderFields : List (String × Json) → List Char
  | [] => ['}']
  | (k, x) :: fs => ',' :: (renderString k ++ ':' :: (render x ++ renderFields fs))

end

/-- **`compact`** — the document a serializer writes. -/
def compact (j : Json) : String := String.ofList (render j)

/-! ## §2 — Reading the text back. -/

/-- The value of a decimal digit. -/
def digitVal (c : Char) : ℕ := c.toNat - 48

/-- The number a run of decimal digits denotes. -/
def readDigits (cs : List Char) : ℕ := cs.foldl (fun n c => 10 * n + digitVal c) 0

/-- The longest run of decimal digits and what follows it. -/
def spanDigits : List Char → List Char × List Char
  | [] => ([], [])
  | c :: cs => if c.isDigit then ((spanDigits cs).1.cons c, (spanDigits cs).2) else ([], c :: cs)

/-- Reads an unsigned number: at least one digit. -/
def parseNat (cs : List Char) : Option (ℕ × List Char) :=
  match spanDigits cs with
  | ([], _) => none
  | (ds, rest) => some (readDigits ds, rest)

/-- The value of a lowercase hexadecimal digit. -/
def hexVal (c : Char) : ℕ := if c.isDigit then c.toNat - 48 else c.toNat - 87

/-- Reads the body of a string up to its closing quote. -/
def parseChars : List Char → Option (List Char × List Char)
  | [] => none
  | '"' :: rest => some ([], rest)
  | '\\' :: 'u' :: '0' :: '0' :: a :: b :: rest =>
    (parseChars rest).map fun p => (Char.ofNat (16 * hexVal a + hexVal b) :: p.1, p.2)
  | '\\' :: e :: rest =>
    (parseChars rest).map fun p =>
      ((match e with
        | 'b' => Char.ofNat 8
        | 't' => Char.ofNat 9
        | 'n' => Char.ofNat 10
        | 'f' => Char.ofNat 12
        | 'r' => Char.ofNat 13
        | other => other) :: p.1, p.2)
  | c :: rest => (parseChars rest).map fun p => (c :: p.1, p.2)

/-- Reads a string, its opening quote included. -/
def parseString : List Char → Option (String × List Char)
  | '"' :: rest => (parseChars rest).map fun p => (String.ofList p.1, p.2)
  | _ => none

/-- Reads one expected character. -/
def expect (c : Char) : List Char → Option (List Char)
  | d :: rest => if d = c then some rest else none
  | [] => none

/-- Reads a keyword's remaining letters. -/
def expectAll : List Char → List Char → Option (List Char)
  | [], rest => some rest
  | c :: cs, rest => (expect c rest).bind (expectAll cs)

mutual

/-- Reads one value; `fuel` bounds the nesting. -/
def parseValue : ℕ → List Char → Option (Json × List Char)
  | 0, _ => none
  | _ + 1, [] => none
  | fuel + 1, c :: cs =>
    if c = 'n' then (expectAll ['u', 'l', 'l'] cs).map fun r => (.null, r)
    else if c = 't' then (expectAll ['r', 'u', 'e'] cs).map fun r => (.bool true, r)
    else if c = 'f' then (expectAll ['a', 'l', 's', 'e'] cs).map fun r => (.bool false, r)
    else if c = '"' then (parseChars cs).map fun p => (.str (String.ofList p.1), p.2)
    else if c = '-' then (parseNat cs).map fun p => (.num (-p.1), p.2)
    else if c = '[' then
      match expect ']' cs with
      | some rest => some (.arr [], rest)
      | none => do
        let (x, rest) ← parseValue fuel cs
        let (xs, rest) ← parseElems fuel rest
        some (.arr (x :: xs), rest)
    else if c = '{' then
      match expect '}' cs with
      | some rest => some (.obj [], rest)
      | none => do
        let (k, rest) ← parseString cs
        let rest ← expect ':' rest
        let (x, rest) ← parseValue fuel rest
        let (fs, rest) ← parseFields fuel rest
        some (.obj ((k, x) :: fs), rest)
    else (parseNat (c :: cs)).map fun p => (.num p.1, p.2)

/-- Reads the elements after the first, and the closing bracket. -/
def parseElems : ℕ → List Char → Option (List Json × List Char)
  | 0, _ => none
  | fuel + 1, cs =>
    match expect ']' cs with
    | some rest => some ([], rest)
    | none => do
      let rest ← expect ',' cs
      let (x, rest) ← parseValue fuel rest
      let (xs, rest) ← parseElems fuel rest
      some (x :: xs, rest)

/-- Reads the fields after the first, and the closing brace. -/
def parseFields : ℕ → List Char → Option (List (String × Json) × List Char)
  | 0, _ => none
  | fuel + 1, cs =>
    match expect '}' cs with
    | some rest => some ([], rest)
    | none => do
      let rest ← expect ',' cs
      let (k, rest) ← parseString rest
      let rest ← expect ':' rest
      let (x, rest) ← parseValue fuel rest
      let (fs, rest) ← parseFields fuel rest
      some ((k, x) :: fs, rest)

end

/-- **`parse`** — reads a whole document: one value and nothing after it. -/
def parse (text : String) : Option Json :=
  match parseValue (chars text).length (chars text) with
  | some (j, []) => some j
  | _ => none

/-! ## §3 — Numbers and strings read back. -/

/-- What follows a value in a document never starts with a digit. -/
def NoDigitHead (rest : List Char) : Prop := ∀ c ∈ rest.head?, c.isDigit = false

theorem digitChar_facts : ∀ d < 10,
    (Nat.digitChar d).isDigit = true ∧ digitVal (Nat.digitChar d) = d := by
  decide

theorem hexDigit_facts : ∀ d < 16, hexVal (hexDigit d) = d := by
  decide

theorem renderNat_isDigit (n : ℕ) : ∀ c ∈ renderNat n, c.isDigit = true := by
  intro c hc
  unfold renderNat at hc
  split at hc
  · obtain rfl : c = '0' := by simpa using hc
    rfl
  · obtain ⟨d, hd, rfl⟩ := List.mem_map.mp (List.mem_reverse.mp hc)
    exact (digitChar_facts d (Nat.digits_lt_base (by norm_num) hd)).1

theorem renderNat_ne_nil (n : ℕ) : renderNat n ≠ [] := by
  unfold renderNat
  split
  · simp
  · next h => simpa [Nat.digits_ne_nil_iff_ne_zero] using h

theorem readDigits_renderNat (n : ℕ) : readDigits (renderNat n) = n := by
  unfold readDigits renderNat
  split
  · next h => subst h; rfl
  · rw [List.foldl_reverse, List.foldr_map]
    conv_rhs => rw [← Nat.ofDigits_digits 10 n]
    rw [Nat.ofDigits_eq_foldr]
    have hlt : ∀ d ∈ Nat.digits 10 n, d < 10 := fun d hd => Nat.digits_lt_base (by norm_num) hd
    generalize Nat.digits 10 n = ds at hlt
    induction ds with
    | nil => rfl
    | cons d ds ih =>
      simp only [List.foldr_cons, ih fun x hx => hlt x (List.mem_cons_of_mem _ hx)]
      rw [(digitChar_facts d (hlt d List.mem_cons_self)).2]
      simp only [Nat.cast_id]
      omega

theorem spanDigits_append {ds rest : List Char} (hds : ∀ c ∈ ds, c.isDigit = true)
    (hrest : NoDigitHead rest) : spanDigits (ds ++ rest) = (ds, rest) := by
  induction ds with
  | nil =>
    cases rest with
    | nil => rfl
    | cons c rest => simp [spanDigits, hrest c rfl]
  | cons c ds ih =>
    rw [List.cons_append, spanDigits, if_pos (hds c List.mem_cons_self),
      ih fun x hx => hds x (List.mem_cons_of_mem _ hx)]

theorem parseNat_renderNat (n : ℕ) {rest : List Char} (hrest : NoDigitHead rest) :
    parseNat (renderNat n ++ rest) = some (n, rest) := by
  unfold parseNat
  rw [spanDigits_append (renderNat_isDigit n) hrest]
  cases h : renderNat n with
  | nil => exact absurd h (renderNat_ne_nil n)
  | cons c cs => simp only; rw [← h, readDigits_renderNat]

/-- One escaped character reads back as itself, whatever follows it. -/
theorem parseChars_escape (c : Char) (rest : List Char) :
    parseChars (escape c ++ rest) = (parseChars rest).map fun p => (c :: p.1, p.2) := by
  unfold escape
  split_ifs with h1 h2 h3 h4 h5 h6 h7 h8
  all_goals try (subst_vars; simp [parseChars]; done)
  · have hhi : hexVal (hexDigit (c.toNat / 16)) = c.toNat / 16 := hexDigit_facts _ (by omega)
    have hlo : hexVal (hexDigit (c.toNat % 16)) = c.toNat % 16 := hexDigit_facts _ (by omega)
    have hc : Char.ofNat (16 * (c.toNat / 16) + c.toNat % 16) = c := by
      rw [Nat.div_add_mod, Char.ofNat_toNat]
    simp only [List.cons_append, List.nil_append, parseChars, hhi, hlo, hc]
  · simp only [List.cons_append, List.nil_append]
    rw [parseChars.eq_def]
    split <;> simp_all

theorem parseChars_renderChars (cs rest : List Char) :
    parseChars (renderChars cs ++ rest) = some (cs, rest) := by
  induction cs with
  | nil => simp [renderChars, parseChars]
  | cons c cs ih =>
    rw [renderChars, List.append_assoc, parseChars_escape, ih]
    rfl

theorem parseString_renderString (s : String) (rest : List Char) :
    parseString (renderString s ++ rest) = some (s, rest) := by
  simp [renderString, parseString, parseChars_renderChars]

/-! ## §4 — Documents read back. -/

@[simp] theorem expect_self (c : Char) (rest : List Char) : expect c (c :: rest) = some rest := by
  simp [expect]

@[simp] theorem expect_of_ne {c d : Char} (h : d ≠ c) (rest : List Char) :
    expect c (d :: rest) = none := by
  simp [expect, h]

/-- The number branch: a text that starts with a digit is read as an unsigned number. -/
theorem parseValue_digit {c : Char} (hc : c.isDigit = true) (fuel : ℕ) (cs : List Char) :
    parseValue (fuel + 1) (c :: cs) = (parseNat (c :: cs)).map fun p => (.num p.1, p.2) := by
  have hne : ∀ d : Char, d.isDigit = false → c ≠ d := by
    rintro d hd rfl
    simp [hc] at hd
  simp only [parseValue]
  rw [if_neg (hne 'n' (by decide)), if_neg (hne 't' (by decide)), if_neg (hne 'f' (by decide)),
    if_neg (hne '"' (by decide)), if_neg (hne '-' (by decide)), if_neg (hne '[' (by decide)),
    if_neg (hne '\x7b' (by decide))]

theorem parseValue_renderInt (n : ℤ) (fuel : ℕ) {rest : List Char} (hrest : NoDigitHead rest) :
    parseValue (fuel + 1) (renderInt n ++ rest) = some (.num n, rest) := by
  cases n with
  | ofNat n =>
    obtain ⟨c, cs, hcs⟩ := List.exists_cons_of_ne_nil (renderNat_ne_nil n)
    have hc : c.isDigit = true := renderNat_isDigit n c (by simp [hcs])
    have hread := parseNat_renderNat n hrest
    simp only [renderInt, hcs, List.cons_append] at hread ⊢
    rw [parseValue_digit hc, hread]
    rfl
  | negSucc n =>
    simp only [renderInt, List.cons_append, parseValue]
    rw [parseNat_renderNat (n + 1) hrest]
    simp [Int.negSucc_eq]

/-- No value's text starts with a closing bracket. -/
theorem expect_render (j : Json) (rest : List Char) : expect ']' (render j ++ rest) = none := by
  match j with
  | .null | .bool true | .bool false | .str s => simp [render, renderString]
  | .arr [] | .arr (x :: xs) | .obj [] | .obj ((k, x) :: fs) => simp [render]
  | .num (.negSucc n) => simp [render, renderInt]
  | .num (.ofNat n) =>
    obtain ⟨c, cs, hcs⟩ := List.exists_cons_of_ne_nil (renderNat_ne_nil n)
    have hc : c.isDigit = true := renderNat_isDigit n c (by simp [hcs])
    simp only [render, renderInt, hcs, List.cons_append]
    refine expect_of_ne ?_ _
    rintro rfl
    simp at hc

theorem noDigitHead_nil : NoDigitHead [] := by
  intro c hc
  simp at hc

theorem noDigitHead_renderElems (xs : List Json) (rest : List Char) :
    NoDigitHead (renderElems xs ++ rest) := by
  intro c hc
  cases xs with
  | nil => obtain rfl : ']' = c := by simpa [renderElems] using hc
           rfl
  | cons x xs => obtain rfl : ',' = c := by simpa [renderElems] using hc
                 rfl

theorem noDigitHead_renderFields (fs : List (String × Json)) (rest : List Char) :
    NoDigitHead (renderFields fs ++ rest) := by
  intro c hc
  match fs with
  | [] => obtain rfl : '}' = c := by simpa [renderFields] using hc
          rfl
  | (k, x) :: fs => obtain rfl : ',' = c := by simpa [renderFields] using hc
                    rfl

/-- **`parse_render`** — a reader with enough fuel for a text reads it back and stops after it.
The induction is on the fuel; every nested text is shorter by the bracket or comma before it. -/
theorem parse_render : ∀ fuel : ℕ,
    (∀ j rest, (render j).length ≤ fuel → NoDigitHead rest →
      parseValue fuel (render j ++ rest) = some (j, rest)) ∧
    (∀ xs rest, (renderElems xs).length ≤ fuel →
      parseElems fuel (renderElems xs ++ rest) = some (xs, rest)) ∧
    (∀ fs rest, (renderFields fs).length ≤ fuel →
      parseFields fuel (renderFields fs ++ rest) = some (fs, rest)) := by
  intro fuel
  induction fuel with
  | zero =>
    refine ⟨fun j rest hlen => ?_, fun xs rest hlen => ?_, fun fs rest hlen => ?_⟩
    · match j with
      | .null | .bool true | .bool false | .str s => simp [render, renderString] at hlen
      | .arr [] | .arr (x :: xs) | .obj [] | .obj ((k, x) :: fs) => simp [render] at hlen
      | .num (.negSucc n) => simp [render, renderInt] at hlen
      | .num (.ofNat n) =>
        exact absurd (List.length_eq_zero_iff.mp (Nat.le_zero.mp hlen)) (renderNat_ne_nil n)
    · cases xs <;> simp [renderElems] at hlen
    · cases fs <;> simp [renderFields] at hlen
  | succ fuel ih =>
    obtain ⟨ihValue, ihElems, ihFields⟩ := ih
    refine ⟨fun j rest hlen hrest => ?_, fun xs rest hlen => ?_, fun fs rest hlen => ?_⟩
    · match j with
      | .null | .bool true | .bool false => simp [render, parseValue, expectAll]
      | .num n => exact parseValue_renderInt n fuel hrest
      | .str s => simp [render, renderString, parseValue, parseChars_renderChars]
      | .arr [] | .obj [] => simp [render, parseValue]
      | .arr (x :: xs) =>
        simp only [render, List.length_cons, List.length_append] at hlen
        simp only [render, List.cons_append, List.append_assoc, parseValue, expect_render]
        rw [ihValue x _ (by omega) (noDigitHead_renderElems xs rest)]
        simp [ihElems xs rest (by omega)]
      | .obj ((k, x) :: fs) =>
        simp only [render, List.length_cons, List.length_append] at hlen
        simp only [render, List.cons_append, List.append_assoc, parseValue]
        have hquote : ∀ r, expect '}' (renderString k ++ r) = none := fun r => by
          simp [renderString]
        simp [hquote, parseString_renderString, ihFields fs rest (by omega),
          ihValue x _ (by omega) (noDigitHead_renderFields fs rest)]
    · cases xs with
      | nil => simp [renderElems, parseElems]
      | cons x xs =>
        simp only [renderElems, List.length_cons, List.length_append] at hlen
        simp [renderElems, parseElems, ihElems xs rest (by omega),
          ihValue x _ (by omega) (noDigitHead_renderElems xs rest)]
    · match fs with
      | [] => simp [renderFields, parseFields]
      | (k, x) :: fs =>
        simp only [renderFields, List.length_cons, List.length_append] at hlen
        simp [renderFields, parseFields, parseString_renderString, ihFields fs rest (by omega),
          ihValue x _ (by omega) (noDigitHead_renderFields fs rest)]

/-- **`parse_compact`** — reading a document back gives the value it was written from. -/
theorem parse_compact (j : Json) : parse (compact j) = some j := by
  have h := (parse_render (render j).length).1 j [] le_rfl noDigitHead_nil
  rw [List.append_nil] at h
  simp [parse, compact, h]

/-- **`compact_injective`** — the document determines the value, field order included. -/
theorem compact_injective : Function.Injective compact := by
  intro j k h
  have hj := parse_compact j
  rw [h, parse_compact k] at hj
  exact (Option.some.inj hj).symm

/-! ## §5 — The length of plain text. -/

/-- A character a string shows as itself in one byte: printable ASCII that needs no escape. -/
def PlainChar (c : Char) : Prop := 32 ≤ c.toNat ∧ c.toNat < 127 ∧ c ≠ '"' ∧ c ≠ '\\'

instance (c : Char) : Decidable (PlainChar c) := inferInstanceAs (Decidable (_ ∧ _))

-- a condition on the characters of a list is decided along the list, never over all characters
instance (priority := high) decidableForallChars {P : Char → Prop} [DecidablePred P]
    (l : List Char) : Decidable (∀ c ∈ l, P c) := List.decidableBAll P l

instance (priority := high) decidableForallChar {P : Char → Prop} [DecidablePred P]
    (o : Option Char) : Decidable (∀ c ∈ o, P c) := Option.decidableForallMem o

theorem escape_plain {c : Char} (h : PlainChar c) : escape c = [c] := by
  obtain ⟨hlo, -, hquote, hslash⟩ := h
  have hne : ∀ d : Char, d.toNat < 32 → c ≠ d := by
    rintro d hd rfl
    omega
  unfold escape
  rw [if_neg hquote, if_neg hslash, if_neg (hne _ (by decide)), if_neg (hne _ (by decide)),
    if_neg (hne _ (by decide)), if_neg (hne _ (by decide)), if_neg (hne _ (by decide)),
    if_neg (not_lt.mpr hlo)]

theorem renderString_plain {s : String} (h : ∀ c ∈ s.toList, PlainChar c) :
    renderString s = '"' :: (s.toList ++ ['"']) := by
  rw [renderString, chars_eq]
  congr 1
  generalize s.toList = cs at h
  induction cs with
  | nil => rfl
  | cons c cs ih =>
    rw [renderChars, escape_plain (h c List.mem_cons_self),
      ih fun x hx => h x (List.mem_cons_of_mem _ hx)]
    rfl

theorem length_renderString {s : String} (h : ∀ c ∈ s.toList, PlainChar c) :
    (renderString s).length = s.length + 2 := by
  rw [renderString_plain h, List.length_cons, List.length_append, String.length_toList]
  rfl

theorem renderString_ascii {s : String} (h : ∀ c ∈ s.toList, PlainChar c) :
    ∀ c ∈ renderString s, c.toNat < 128 := by
  intro c hc
  simp only [renderString_plain h, List.mem_cons, List.mem_append, List.not_mem_nil, or_false] at hc
  rcases hc with rfl | hc | rfl
  · decide
  · exact (h c hc).2.1.trans (by norm_num)
  · decide

theorem length_renderInt_le {n : ℤ} {k : ℕ} (hk : 1 ≤ k) (h : n.natAbs < 10 ^ k) :
    (renderInt n).length ≤ k + 1 := by
  have hnat : ∀ m < 10 ^ k, (renderNat m).length ≤ k := by
    intro m hm
    unfold renderNat
    split
    · simpa using hk
    · rw [List.length_reverse, List.length_map]
      exact (Nat.digits_length_le_iff (by norm_num) m).mpr hm
  cases n with
  | ofNat n => exact (hnat n h).trans (Nat.le_succ k)
  | negSucc n => exact Nat.succ_le_succ (hnat (n + 1) h)

theorem renderInt_ascii (n : ℤ) : ∀ c ∈ renderInt n, c.toNat < 128 := by
  have hnat : ∀ m, ∀ c ∈ renderNat m, c.toNat < 128 := by
    intro m c hc
    have hdigit := renderNat_isDigit m c hc
    simp only [Char.isDigit, Bool.and_eq_true, decide_eq_true_eq, UInt32.le_iff_toNat_le] at hdigit
    exact hdigit.2.trans_lt (by decide)
  cases n with
  | ofNat n => exact hnat n
  | negSucc n =>
    intro c hc
    rcases List.mem_cons.mp hc with rfl | hc
    · decide
    · exact hnat _ c hc

/-! ## §6 — Reading a record out of a value. -/

/-- **`structFields`** — the values of a record's fields, as a derived deserializer finds them.
`names` lists the fields in declaration order, each with whether it has a default. An object may
name each field at most once and no other (unknown fields are denied); a field it does not name
reads as `none`. A sequence is read positionally, and may stop early only before fields that all
have defaults. -/
def structFields (names : List (String × Bool)) : Json → Option (List (Option Json))
  | .obj fields =>
    if (fields.all fun f => (names.map Prod.fst).contains f.1) &&
        decide ((fields.map Prod.fst).Nodup) then
      some (names.map fun n => fields.lookup n.1)
    else none
  | .arr elems =>
    if decide (elems.length ≤ names.length) && (names.drop elems.length).all Prod.snd then
      some (elems.map some ++ (names.drop elems.length).map fun _ => none)
    else none
  | _ => none

/-- A text field. -/
def asString : Json → Option String
  | .str s => some s
  | _ => none

/-- An integer field with the range of its machine type. -/
def asInt (lo hi : ℤ) : Json → Option ℤ
  | .num n => if lo ≤ n ∧ n ≤ hi then some n else none
  | _ => none

/-- A signed field of `width` bits. -/
def asSigned (width : ℕ) (j : Json) : Option ℤ :=
  asInt (-2 ^ (width - 1)) (2 ^ (width - 1) - 1) j

/-- An unsigned field of `width` bits. -/
def asUnsigned (width : ℕ) (j : Json) : Option ℕ := (asInt 0 (2 ^ width - 1) j).map Int.toNat

/-- A field whose absence and whose `null` both read as `none`. -/
def asOption {α : Type} (read : Json → Option α) : Option Json → Option (Option α)
  | none | some .null => some none
  | some j => (read j).map some

@[simp] theorem asString_str (s : String) : asString (.str s) = some s := rfl

theorem asInt_num {lo hi n : ℤ} (hlo : lo ≤ n) (hhi : n ≤ hi) : asInt lo hi (.num n) = some n := by
  simp [asInt, hlo, hhi]

theorem asSigned_num {width : ℕ} {n : ℤ} (h : n.natAbs < 2 ^ (width - 1)) :
    asSigned width (.num n) = some n := by
  have hcast : ((2 ^ (width - 1) : ℕ) : ℤ) = 2 ^ (width - 1) := by norm_num
  exact asInt_num (by omega) (by omega)

theorem asUnsigned_num {width n : ℕ} (h : n < 2 ^ width) :
    asUnsigned width (.num n) = some n := by
  have hhi : (n : ℤ) ≤ 2 ^ width - 1 := by
    have : (n : ℤ) < 2 ^ width := by exact_mod_cast h
    omega
  simp [asUnsigned, asInt_num (Int.natCast_nonneg n) hhi]

/-! ## §7 — Values within bounds. -/

/-- **`Within lo hi depth j`** — no more than `depth` brackets are open at once, and every number is
at least `lo` and below `hi`. -/
inductive Within (lo hi : ℤ) : ℕ → Json → Prop where
  | null {depth : ℕ} : Within lo hi depth .null
  | bool {depth : ℕ} (b : Bool) : Within lo hi depth (.bool b)
  | num {depth : ℕ} {n : ℤ} (low : lo ≤ n) (high : n < hi) : Within lo hi depth (.num n)
  | str {depth : ℕ} (s : String) : Within lo hi depth (.str s)
  | arr {depth : ℕ} {elems : List Json} (elements : ∀ j ∈ elems, Within lo hi depth j) :
      Within lo hi (depth + 1) (.arr elems)
  | obj {depth : ℕ} {fields : List (String × Json)}
      (values : ∀ f ∈ fields, Within lo hi depth f.2) : Within lo hi (depth + 1) (.obj fields)

end Json

end Patwari.Lib
