/-
# Patwari.Crates — what the archive service uses from outside its own source.

The server calls third-party code for hashing, RFC 3339 time, Zstandard and JSON reading. None of it
is in the repository, so it enters the development as one record `Crates` of functions, and
everything the service relies on is a named, separate assumption about them, stated from the
documented behaviour of the crate in question. Nothing here is assumed globally: a theorem lists the
assumptions it uses.

What is small and fully documented is concrete instead: base64 and the writing of JSON are library
modules, and UUID text, the shapes `Uuid::parse_str` accepts and the canonical text `to_string`
writes, is a few lines of list matching.
-/
import Patwari.Lib.Base64
import Patwari.Lib.Json

namespace Patwari

open Lib (Json)

/-- Raw bytes: a request body, a file, the input of a hash. -/
abbrev Bytes := List UInt8

/-- The UTF-8 bytes of a text. -/
def utf8 (s : String) : Bytes := s.toByteArray.data.toList

theorem utf8_ofList (cs : List Char) :
    utf8 (String.ofList cs) = cs.flatMap String.utf8EncodeChar := by
  show (List.flatMap String.utf8EncodeChar cs).toByteArray.data.toList = _
  rw [List.toList_data_toByteArray]

theorem length_utf8 (s : String) : (utf8 s).length = s.utf8ByteSize := rfl

theorem utf8_injective : Function.Injective utf8 := by
  intro s t h
  exact String.toByteArray_inj.mp (ByteArray.ext (Array.toList_inj.mp h))

/-- A text of ASCII characters has one byte for each. -/
theorem length_utf8_ascii {cs : List Char} (h : ∀ ch ∈ cs, ch.toNat < 128) :
    (utf8 (String.ofList cs)).length = cs.length := by
  rw [utf8_ofList]
  induction cs with
  | nil => rfl
  | cons ch cs ih =>
    have hsize : ch.utf8Size = 1 := by
      rw [Char.utf8Size_eq_one_iff, UInt32.le_iff_toNat_le]
      exact Nat.lt_succ_iff.mp (h ch List.mem_cons_self)
    rw [List.flatMap_cons, List.length_append, String.length_utf8EncodeChar, hsize,
      ih fun x hx => h x (List.mem_cons_of_mem _ hx), List.length_cons, Nat.add_comm]

/-- `serde_json::to_vec` of a document. -/
def jsonToVec (j : Json) : Bytes := utf8 (Json.compact j)

theorem jsonToVec_injective : Function.Injective jsonToVec :=
  utf8_injective.comp Json.compact_injective

/-- What the JSON reader keeps to: integers from `i64::MIN` to `u64::MAX`, and a limit on the arrays
and objects inside one another. -/
abbrev Readable (depth : ℕ) (j : Json) : Prop := j.Within (-2 ^ 63) (2 ^ 64) depth

/-! ## §1 — UUID text. -/

/-- The lowercase form of a hexadecimal digit, `none` for any other character. -/
def lowerHex (c : Char) : Option Char :=
  if c.isDigit || ('a' ≤ c && c ≤ 'f') then some c
  else if 'A' ≤ c && c ≤ 'F' then some c.toLower
  else none

/-- The hyphenated text of 32 lowercase hexadecimal digits. -/
def hyphenate (digits : List Char) : List Char :=
  digits.take 8 ++ '-' :: ((digits.drop 8).take 4 ++ '-' :: ((digits.drop 12).take 4 ++
    '-' :: ((digits.drop 16).take 4 ++ '-' :: digits.drop 20)))

/-- 32 hexadecimal digits without hyphens. -/
def parseSimple (cs : List Char) : Option (List Char) :=
  (cs.mapM lowerHex).map hyphenate

/-- The 36-character hyphenated form. -/
def parseHyphenated (cs : List Char) : Option (List Char) :=
  if cs[8]? = some '-' ∧ cs[13]? = some '-' ∧ cs[18]? = some '-' ∧ cs[23]? = some '-' then
    parseSimple (cs.take 8 ++ (cs.drop 9).take 4 ++ (cs.drop 14).take 4 ++ (cs.drop 19).take 4 ++
      cs.drop 24)
  else none

/-- **`parseUuid`** — `Uuid::parse_str` followed by `to_string`: the canonical lowercase
hyphenated text. The simple, hyphenated, braced and URN forms are accepted, told apart by their
length. -/
def parseUuid (s : String) : Option String :=
  let cs := Lib.chars s
  let parsed :=
    if cs.length = 32 then parseSimple cs
    else if cs.length = 36 then parseHyphenated cs
    else if cs.length = 38 ∧ cs.head? = some '\x7b' ∧ cs.getLast? = some '\x7d' then
      parseHyphenated ((cs.drop 1).take 36)
    else if cs.length = 45 ∧ cs.take 9 = "urn:uuid:".toList then parseHyphenated (cs.drop 9)
    else none
  parsed.map String.ofList

/-- `Uuid::get_version_num` of a canonical text: the high nibble of byte 6. -/
def uuidVersionNum (canonical : String) : ℕ :=
  Json.hexVal ((Lib.chars canonical).getD 14 '0')

/-- The text of an identifier the server generates: `Uuid::now_v7().to_string()`. -/
def IsUuidV7 (id : String) : Prop := parseUuid id = some id ∧ uuidVersionNum id = 7

instance (id : String) : Decidable (IsUuidV7 id) := inferInstanceAs (Decidable (_ ∧ _))

/-- Every element of a successful `mapM` comes from an element of the input. -/
theorem mem_mapM_some {α β : Type} {f : α → Option β} {xs : List α} {ys : List β}
    (h : xs.mapM f = some ys) : ys.length = xs.length ∧ ∀ y ∈ ys, ∃ x ∈ xs, f x = some y := by
  induction xs generalizing ys with
  | nil =>
    obtain rfl : ys = [] := by simpa using h.symm
    simp
  | cons x xs ih =>
    simp only [List.mapM_cons, Option.bind_eq_bind, Option.bind_eq_some_iff] at h
    obtain ⟨y, hy, ys', hys', hout⟩ := h
    obtain rfl : ys = y :: ys' := by simpa using hout.symm
    obtain ⟨hlen, hmem⟩ := ih hys'
    refine ⟨by simp [hlen], fun z hz => ?_⟩
    rcases List.mem_cons.mp hz with rfl | hz
    · exact ⟨x, List.mem_cons_self, hy⟩
    · obtain ⟨x', hx', hfx⟩ := hmem z hz
      exact ⟨x', List.mem_cons_of_mem _ hx', hfx⟩

theorem lowerHex_plain {ch d : Char} (h : lowerHex ch = some d) : Json.PlainChar d := by
  have hall : ∀ n < 128, ∀ d, lowerHex (Char.ofNat n) = some d → Json.PlainChar d := by
    have hdec : ∀ n < 128, ∀ d ∈ lowerHex (Char.ofNat n), Json.PlainChar d := by decide +kernel
    exact fun n hn d hd => hdec n hn d hd
  have hascii : ch.toNat < 128 := by
    unfold lowerHex at h
    by_contra hge
    have hbig : ∀ e : Char, e.toNat < 128 → ¬ ch ≤ e := by
      intro e he hle
      have hle' : ch.toNat ≤ e.toNat := UInt32.le_iff_toNat_le.mp (Char.le_def.mp hle)
      omega
    have hdigit : ch.isDigit = false := by
      simp only [Char.isDigit, Bool.and_eq_false_iff, decide_eq_false_iff_not]
      exact Or.inr fun hle => hbig '9' (by decide) (Char.le_def.mpr hle)
    simp [hdigit, hbig 'f' (by decide), hbig 'F' (by decide)] at h
  rw [← Char.ofNat_toNat ch] at h
  exact hall _ hascii d h

theorem hyphenate_plain {digits : List Char} (hlen : digits.length = 32)
    (h : ∀ d ∈ digits, Json.PlainChar d) :
    (hyphenate digits).length = 36 ∧ ∀ d ∈ hyphenate digits, Json.PlainChar d := by
  have hyphen : Json.PlainChar '-' := by decide
  refine ⟨by simp [hyphenate, hlen], ?_⟩
  intro d hd
  simp only [hyphenate, List.mem_append, List.mem_cons] at hd
  rcases hd with hd | rfl | hd | rfl | hd | rfl | hd | rfl | hd
  · exact h d (List.mem_of_mem_take hd)
  · exact hyphen
  · exact h d (List.mem_of_mem_drop (List.mem_of_mem_take hd))
  · exact hyphen
  · exact h d (List.mem_of_mem_drop (List.mem_of_mem_take hd))
  · exact hyphen
  · exact h d (List.mem_of_mem_drop (List.mem_of_mem_take hd))
  · exact hyphen
  · exact h d (List.mem_of_mem_drop hd)

theorem parseSimple_plain {cs out : List Char} (hlen : cs.length = 32)
    (h : parseSimple cs = some out) : out.length = 36 ∧ ∀ d ∈ out, Json.PlainChar d := by
  unfold parseSimple at h
  obtain ⟨digits, hdigits, rfl⟩ := Option.map_eq_some_iff.mp h
  obtain ⟨hlen', hmem⟩ := mem_mapM_some hdigits
  refine hyphenate_plain (hlen'.trans hlen) ?_
  intro d hd
  obtain ⟨ch, -, hch⟩ := hmem d hd
  exact lowerHex_plain hch

theorem parseHyphenated_plain {cs out : List Char} (hlen : cs.length = 36)
    (h : parseHyphenated cs = some out) : out.length = 36 ∧ ∀ d ∈ out, Json.PlainChar d := by
  unfold parseHyphenated at h
  split at h
  · exact parseSimple_plain (by simp [hlen]) h
  · simp at h

/-- Canonical UUID text is 36 plain characters. -/
theorem parseUuid_plain {s t : String} (h : parseUuid s = some t) :
    t.length = 36 ∧ ∀ d ∈ t.toList, Json.PlainChar d := by
  simp only [parseUuid, Lib.chars_eq] at h
  obtain ⟨out, hout, rfl⟩ := Option.map_eq_some_iff.mp h
  have hplain : out.length = 36 ∧ ∀ d ∈ out, Json.PlainChar d := by
    split_ifs at hout with h1 h2 h3 h4
    · exact parseSimple_plain h1 hout
    · exact parseHyphenated_plain h2 hout
    · exact parseHyphenated_plain (by simp [h3.1]) hout
    · exact parseHyphenated_plain (by simp [h4.1]) hout
  simpa using hplain

/-! ## §2 — The crates. -/

/-- A point in time with the offset it is shown in. -/
structure OffsetDateTime where
  /-- Signed nanoseconds since the Unix epoch (`unix_timestamp_nanos`). -/
  nanos : ℤ
  offsetSeconds : ℤ
  deriving DecidableEq, Repr

/-- A reading of the server's clock, which is always in UTC. -/
def OffsetDateTime.utc (nanos : ℤ) : OffsetDateTime := ⟨nanos, 0⟩

/-- `to_offset(UtcOffset::UTC)`. `none` is its panic: the time in UTC is not in the years -9999
to 9999. -/
def OffsetDateTime.toUtc (t : OffsetDateTime) : Option OffsetDateTime :=
  if -377705116800000000000 ≤ t.nanos ∧ t.nanos < 253402300800000000000 then some (.utc t.nanos)
  else none

@[simp] theorem OffsetDateTime.toUtc_eq_some {t u : OffsetDateTime} :
    t.toUtc = some u ↔ (-377705116800000000000 ≤ t.nanos ∧ t.nanos < 253402300800000000000) ∧
      .utc t.nanos = u := by
  simp [toUtc]

@[simp] theorem OffsetDateTime.nanos_utc (nanos : ℤ) : (utc nanos).nanos = nanos := rfl

/-- The functions of third-party crates the service calls. -/
structure Crates where
  /-- `Sha256::digest` as lowercase hexadecimal text. -/
  sha256Hex : Bytes → String
  /-- A whole Zstandard stream decoded, `none` when the decoder fails. -/
  zstdDecode : Bytes → Option Bytes
  /-- `serde_json::from_slice` up to the value tree; `none` for a syntax error. -/
  jsonFromSlice : Bytes → Option Json
  /-- `OffsetDateTime::parse(_, &Rfc3339)`. -/
  parseRfc3339 : String → Option OffsetDateTime
  /-- `format(&Rfc3339)`; fails outside the years RFC 3339 can write. -/
  formatRfc3339 : OffsetDateTime → Option String
  /-- `parse::<mime::Mime>` succeeds. -/
  mimeParses : String → Bool
  /-- `HeaderValue::from_str` succeeds; the value it makes holds the bytes of the text. -/
  headerValueParses : String → Bool

namespace Crates

variable (c : Crates)

/-- `serde_json::from_str`. -/
def jsonFromStr (text : String) : Option Json := c.jsonFromSlice (utf8 text)

/-- The JSON reader reads what the JSON writer wrote, when it is not nested too deep. -/
structure JsonReads : Prop where
  fromSlice : ∀ j : Json, Readable 127 j → c.jsonFromSlice (jsonToVec j) = some j

/-- RFC 3339 text reads back as the time it was written from. In UTC it is at most 30 characters
of digits, separators and a closing `Z`, and only the years 0 to 9999 can be written. -/
structure Rfc3339Reads : Prop where
  parse_format : ∀ t s, c.formatRfc3339 t = some s → c.parseRfc3339 s = some t
  length_format : ∀ t s, c.formatRfc3339 (.utc t) = some s → s.length ≤ 30
  chars_format : ∀ t s, c.formatRfc3339 (.utc t) = some s →
    ∀ ch ∈ s.toList, ch.isDigit = true ∨ ch ∈ ['-', ':', '.', 'T', 'Z']
  range_format : ∀ t s, c.formatRfc3339 (.utc t) = some s →
    -62167219200000000000 ≤ t ∧ t < 253402300800000000000

/-- SHA-256 has no collision among these inputs. -/
def CollisionFree (docs : Set Bytes) : Prop := Set.InjOn c.sha256Hex docs

/-- `HeaderValue::from_str` takes tabs and every byte from 32 on except 127. -/
structure HeaderValues : Prop where
  fromStr : ∀ text, c.headerValueParses text = true ↔ ∀ b ∈ utf8 text, b = 9 ∨ 32 ≤ b ∧ b ≠ 127

/-! ## §3 — The assumptions hold together. -/

/-- Five consecutive seconds and their RFC 3339 text. -/
def sampleTimes : List (ℤ × String) :=
  (List.range 5).map fun (k : ℕ) =>
    (1767225600000000000 + 1000000000 * (k : ℤ),
      String.ofList ("2026-01-01T00:00:0".toList ++ [Nat.digitChar k, 'Z']))

/-- The JSON reader of the library behind UTF-8 decoding. -/
def sampleJsonFromSlice (bytes : Bytes) : Option Json :=
  (String.fromUTF8? bytes.toByteArray).bind Json.parse

/-- A concrete set of crates. Time is known at `sampleTimes` only, a digest is the real one for
the inputs `digests` lists and an encoding of the input elsewhere, and no frame decodes. -/
def sample (digests : List (Bytes × String)) : Crates where
  sha256Hex bytes :=
    match digests.lookup bytes with
    | some digest => digest
    | none => "base64:" ++ Lib.Base64.encode bytes
  zstdDecode _ := none
  jsonFromSlice := sampleJsonFromSlice
  parseRfc3339 text := ((sampleTimes.map Prod.swap).lookup text).map .utc
  formatRfc3339 t := if t.offsetSeconds = 0 then sampleTimes.lookup t.nanos else none
  mimeParses text := decide (text ∈ ["application/json", "application/octet-stream", "text/plain"])
  headerValueParses text := (utf8 text).all fun b => decide (b = 9 ∨ 32 ≤ b ∧ b ≠ 127)

/-- The digest of an input the table lists. -/
theorem sample_sha256Hex {digests : List (Bytes × String)} {bytes : Bytes} {digest : String}
    (h : digests.lookup bytes = some digest) : (sample digests).sha256Hex bytes = digest := by
  simp only [sample, h]

/-- The stand-in for the digest of any other input. -/
theorem sample_sha256Hex_unlisted {digests : List (Bytes × String)} {bytes : Bytes}
    (h : digests.lookup bytes = none) :
    (sample digests).sha256Hex bytes = "base64:" ++ Lib.Base64.encode bytes := by
  simp only [sample, h]

/-- A value a table yields is an entry of the table. -/
theorem mem_of_lookup {α β : Type} [BEq α] [LawfulBEq α] {table : List (α × β)} {a : α} {b : β}
    (h : table.lookup a = some b) : (a, b) ∈ table := by
  obtain ⟨l, r, rfl, -⟩ := List.lookup_eq_some_iff.mp h
  simp

theorem fromUTF8_utf8 (s : String) : String.fromUTF8? (utf8 s).toByteArray = some s := by
  have hbytes : (utf8 s).toByteArray = s.toByteArray := by
    apply ByteArray.ext
    apply Array.toList_inj.mp
    exact List.toList_data_toByteArray
  rw [hbytes, String.fromUTF8?, dif_pos s.isValidUTF8]
  rfl

/-- The sample reader reads every document, however deep. -/
theorem sample_jsonFromSlice (digests : List (Bytes × String)) (j : Json) :
    (sample digests).jsonFromSlice (jsonToVec j) = some j := by
  show sampleJsonFromSlice (jsonToVec j) = some j
  rw [sampleJsonFromSlice, jsonToVec, fromUTF8_utf8, Option.bind_some, Json.parse_compact]

theorem sample_jsonReads (digests : List (Bytes × String)) : (sample digests).JsonReads where
  fromSlice j _ := sample_jsonFromSlice digests j

theorem sample_headerValues (digests : List (Bytes × String)) :
    (sample digests).HeaderValues where
  fromStr text := by
    show ((utf8 text).all fun b => decide (b = 9 ∨ 32 ≤ b ∧ b ≠ 127)) = true ↔ _
    simp

theorem sample_rfc3339Reads (digests : List (Bytes × String)) :
    (sample digests).Rfc3339Reads := by
  have hentries : ∀ p ∈ sampleTimes, (sampleTimes.map Prod.swap).lookup p.2 = some p.1 ∧
      p.2.length ≤ 30 ∧
      (∀ ch ∈ p.2.toList, ch.isDigit = true ∨ ch ∈ ['-', ':', '.', 'T', 'Z']) ∧
      -62167219200000000000 ≤ p.1 ∧ p.1 < 253402300800000000000 := by
    decide +kernel
  have hall := fun t s (h : (sample digests).formatRfc3339 (.utc t) = some s) =>
    hentries (t, s) (mem_of_lookup h)
  have hparse : ∀ t s, (sample digests).formatRfc3339 t = some s →
      (sample digests).parseRfc3339 s = some t := by
    rintro ⟨nanos, offset⟩ s h
    have hoffset : offset = 0 := by
      by_contra hne
      simp [sample, hne] at h
    subst hoffset
    exact congrArg (Option.map OffsetDateTime.utc) (hall nanos s h).1
  exact
    { parse_format := hparse
      length_format := fun t s h => (hall t s h).2.1
      chars_format := fun t s h => (hall t s h).2.2.1
      range_format := fun t s h => (hall t s h).2.2.2 }

end Crates

end Patwari
