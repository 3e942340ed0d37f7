/-
# Patwari.Pagination — the opaque keyset cursor and the traversal it drives.

Every paginated collection of the service shares one page protocol: a request carries a limit and
an opaque cursor, the server reads `limit + 1` rows below the cursor's two bounds in descending
`(sort_key, id)` order, keeps `limit` of them, and hands out a cursor when the extra row exists.
§1 to §4 are that protocol as the source computes it, the cursor's text and its validation
included. §5 connects a page served to a page of `Patwari.Lib.Keyset`, and §6 is the exactness of
a whole traversal over a collection that changes between pages.
-/
import Patwari.Crates
import Patwari.Lib.Keyset
import Mathlib.Data.Prod.Lex
import Mathlib.Data.String.Basic

namespace Patwari

open Lib (Json Keyset.Pages)

/-! ## §0 — Errors. -/

/-- The error document of the HTTP API: status, stable code and message. -/
structure ApiError where
  status : ℕ
  code : String
  message : String
  deriving DecidableEq, Repr

namespace ApiError

def invalid (message : String) : ApiError := ⟨422, "validation_error", message⟩

def conflict (code message : String) : ApiError := ⟨409, code, message⟩

def forbidden (code message : String) : ApiError := ⟨403, code, message⟩

def notFound (code message : String) : ApiError := ⟨404, code, message⟩

def internal : ApiError :=
  ⟨500, "internal_error", "archive operation could not be completed"⟩

def storage : ApiError :=
  ⟨500, "storage_error", "archive storage could not be used"⟩

/-- The artifact exists in metadata but cannot be proven to match its manifest and blob. -/
def artifactIntegrity : ApiError :=
  ⟨409, "artifact_integrity_failure", "artifact integrity verification failed"⟩

def database : ApiError :=
  ⟨500, "metadata_error", "archive metadata could not be used"⟩

/-- `classify_database_error` on a busy database. -/
def busy : ApiError :=
  ⟨409, "upload_completion_contended",
    "archive metadata was busy completing a concurrent request; retry the completion"⟩

end ApiError

/-- `?` on an `Option` with the error to report. -/
def okOr {α ε : Type} (x : Option α) (e : ε) : Except ε α :=
  match x with
  | some a => .ok a
  | none => .error e

@[simp] theorem okOr_some {α ε : Type} (a : α) (e : ε) : okOr (some a) e = .ok a := rfl

section Results

variable {ε α β : Type} {e : ε} {a b : α}

@[simp] theorem okOr_eq_ok {x : Option α} : okOr x e = .ok a ↔ x = some a := by
  cases x <;> simp [okOr]

@[simp] theorem throw_eq_ok : (throw e : Except ε α) = .ok a ↔ False := by
  simp [throw, throwThe, MonadExceptOf.throw]

@[simp] theorem pure_eq_ok : (pure a : Except ε α) = .ok b ↔ a = b := Except.ok.injEq a b ▸ Iff.rfl

/-- A sequence succeeds when both of its parts do. -/
@[simp] theorem bind_eq_ok {x : Except ε α} {f : α → Except ε β} {r : β} :
    (x >>= f) = .ok r ↔ ∃ a, x = .ok a ∧ f a = .ok r := by
  cases x <;> simp [bind, Except.bind]

@[simp] theorem throw_bind {f : α → Except ε β} : (throw e : Except ε α) >>= f = throw e := rfl

@[simp] theorem map_throw {f : α → β} : f <$> (throw e : Except ε α) = throw e := rfl

@[simp] theorem map_eq_ok {x : Except ε α} {f : α → β} {r : β} :
    f <$> x = .ok r ↔ ∃ a, x = .ok a ∧ f a = r := by
  cases x <;> simp [Functor.map, Except.map]

/-- A check that throws is passed. -/
@[simp] theorem ite_throw_eq_ok {p : Prop} [Decidable p] {x : Except ε α} :
    (if p then throw e else x) = .ok a ↔ ¬ p ∧ x = .ok a := by
  by_cases hp : p <;> simp [hp]

end Results

/-! ## §1 — Boundaries and cursors. -/

def defaultPageLimit : ℕ := 50
def maxPageLimit : ℕ := 100
def maxCursorBytes : ℕ := 2048
def cursorVersion : ℕ := 1

/-- A row's place in the order: its numeric key, the timestamp shown for it, and its id. Only
`sortKey` and `id` are ever compared. -/
structure SortBoundary where
  sortKey : ℤ
  timestamp : String
  id : String
  deriving DecidableEq, Repr

/-- The ordering key of a boundary: numeric first, the id text breaking ties. -/
def SortBoundary.key (b : SortBoundary) : ℤ ×ₗ String := toLex (b.sortKey, b.id)

structure OpaqueCursor where
  version : ℕ
  kind : String
  filterHash : String
  highWatermark : SortBoundary
  after : SortBoundary
  deriving DecidableEq, Repr

structure PageRequest where
  limit : ℕ
  cursor : Option OpaqueCursor
  deriving Repr

/-- `sort_key_from_timestamp`: microseconds, division truncating toward zero. -/
def sortKeyFromTimestamp (t : OffsetDateTime) : ℤ := t.nanos.tdiv 1000

variable (c : Crates)

/-- `sort_key_from_rfc3339`. -/
def sortKeyFromRfc3339 (value : String) : Option ℤ :=
  (c.parseRfc3339 value).map sortKeyFromTimestamp

def normalizeTimestamp (value message : String) : Except ApiError String := do
  let instant ← okOr (c.parseRfc3339 value) (.invalid message)
  -- the source panics here and the request gets no answer; an internal error stands for that
  let inUtc ← okOr instant.toUtc .internal
  okOr (c.formatRfc3339 inUtc) .internal

/-- A boundary a client sends back is one this server could have written: normalized timestamp,
the numeric key derived from it, canonical version 7 id. -/
def validateBoundary (b : SortBoundary) : Except ApiError Unit := do
  let normalized ← normalizeTimestamp c b.timestamp "cursor is invalid"
  if normalized ≠ b.timestamp then throw (.invalid "cursor is invalid")
  let expectedSortKey ← okOr (sortKeyFromRfc3339 c b.timestamp) (.invalid "cursor is invalid")
  if b.sortKey ≠ expectedSortKey then throw (.invalid "cursor is invalid")
  let id ← okOr (parseUuid b.id) (.invalid "cursor is invalid")
  if id ≠ b.id ∨ uuidVersionNum id ≠ 7 then throw (.invalid "cursor is invalid")

def isAtOrBefore (left right : SortBoundary) : Bool :=
  decide (left.sortKey < right.sortKey) ||
    (decide (left.sortKey = right.sortKey) && decide (left.id ≤ right.id))

/-! ## §2 — The cursor's text. -/

def SortBoundary.toJson (b : SortBoundary) : Json :=
  .obj [("sort_key", .num b.sortKey), ("timestamp", .str b.timestamp), ("id", .str b.id)]

def SortBoundary.fromJson (j : Json) : Option SortBoundary := do
  match ← j.structFields [("sort_key", false), ("timestamp", false), ("id", false)] with
  | [some sortKey, some timestamp, some id] =>
    some ⟨← sortKey.asSigned 64, ← timestamp.asString, ← id.asString⟩
  | _ => none

def OpaqueCursor.toJson (cursor : OpaqueCursor) : Json :=
  .obj [("version", .num cursor.version), ("kind", .str cursor.kind),
    ("filter_hash", .str cursor.filterHash), ("high_watermark", cursor.highWatermark.toJson),
    ("after", cursor.after.toJson)]

def OpaqueCursor.fromJson (j : Json) : Option OpaqueCursor := do
  match ← j.structFields [("version", false), ("kind", false), ("filter_hash", false),
      ("high_watermark", false), ("after", false)] with
  | [some version, some kind, some filterHash, some highWatermark, some after] =>
    some ⟨← version.asUnsigned 8, ← kind.asString, ← filterHash.asString,
      ← SortBoundary.fromJson highWatermark, ← SortBoundary.fromJson after⟩
  | _ => none

def encodeCursor (kind filterHash : String) (highWatermark after : SortBoundary) : String :=
  Lib.Base64.encode (jsonToVec
    (OpaqueCursor.toJson ⟨cursorVersion, kind, filterHash, highWatermark, after⟩))

/-- `parse_page`: the limit's range, then the cursor's text, kind, filters, boundaries and the
order of its two boundaries. -/
def parsePage (limit : Option ℕ) (cursor : Option String) (kind filterHash : String) :
    Except ApiError PageRequest := do
  let limit := limit.getD defaultPageLimit
  if ¬ (1 ≤ limit ∧ limit ≤ maxPageLimit) then
    throw (.invalid "page limit must be between 1 and 100")
  match cursor with
  | none => pure ⟨limit, none⟩
  | some text =>
    if text.utf8ByteSize > maxCursorBytes then throw (.invalid "cursor is invalid")
    let bytes ← okOr (Lib.Base64.decode text) (.invalid "cursor is invalid")
    let cursor ← okOr ((c.jsonFromSlice bytes).bind OpaqueCursor.fromJson)
      (.invalid "cursor is invalid")
    if cursor.version ≠ cursorVersion ∨ cursor.kind ≠ kind ∨ cursor.filterHash ≠ filterHash then
      throw (.invalid "cursor does not match this collection and filters")
    validateBoundary c cursor.highWatermark
    validateBoundary c cursor.after
    if ¬ isAtOrBefore cursor.after cursor.highWatermark then
      throw (.invalid "cursor is invalid")
    pure ⟨limit, some cursor⟩

/-! ## §3 — The rows of a page. -/

/-- The condition `append_descending_bounds` writes and `bind_descending_bounds` fills in: at or
below the high watermark, strictly below `after`. A first page adds nothing. -/
def descendingBounds (page : PageRequest) (sortKey : ℤ) (id : String) : Bool :=
  match page.cursor with
  | none => true
  | some cursor =>
    (decide (sortKey < cursor.highWatermark.sortKey) ||
      (decide (sortKey = cursor.highWatermark.sortKey) && decide (id ≤ cursor.highWatermark.id))) &&
    (decide (sortKey < cursor.after.sortKey) ||
      (decide (sortKey = cursor.after.sortKey) && decide (id < cursor.after.id)))

/-- The rows a list query fetches: the bounds in the `WHERE` clause, `ORDER BY` key and id
descending, one row more than the page keeps. -/
def fetchRows {τ : Type} (page : PageRequest) (rows : List (τ × SortBoundary)) :
    List (τ × SortBoundary) :=
  (Lib.Keyset.descending (fun r => r.2.key)
    (rows.filter fun r => descendingBounds page r.2.sortKey r.2.id)).take (page.limit + 1)

/-- What the documents show of a boundary. -/
structure PageHighWatermark where
  timestamp : String
  id : String
  deriving DecidableEq, Repr

structure PaginatedResponse (τ : Type) where
  items : List τ
  nextCursor : Option String
  highWatermark : Option PageHighWatermark
  deriving DecidableEq, Repr

def SortBoundary.shown (b : SortBoundary) : PageHighWatermark := ⟨b.timestamp, b.id⟩

def pageFromRows {τ : Type} (rows : List (τ × SortBoundary)) (page : PageRequest)
    (kind filterHash : String) : Except ApiError (PaginatedResponse τ) := do
  let highWatermark := (page.cursor.map (·.highWatermark)).or (rows.head?.map Prod.snd)
  let hasNext := decide (page.limit < rows.length)
  let rows := rows.take page.limit
  let nextCursor ←
    if hasNext then do
      let after ← okOr (rows.getLast?.map Prod.snd) .internal
      let highWatermark ← okOr highWatermark .internal
      pure (some (encodeCursor kind filterHash highWatermark after))
    else pure none
  pure ⟨rows.map Prod.fst, nextCursor, highWatermark.map SortBoundary.shown⟩

/-- One list request over the rows the collection holds when the query runs. -/
def listPage {τ : Type} (kind filterHash : String) (rows : List (τ × SortBoundary))
    (limit : Option ℕ) (cursor : Option String) : Except ApiError (PaginatedResponse τ) := do
  let page ← parsePage c limit cursor kind filterHash
  pageFromRows (fetchRows page rows) page kind filterHash

/-! ## §4 — A client following cursors. -/

/-- **`Traversal`** — the pages a client reads from request `n` on, sending each `next_cursor`
back until it is null. `serve n` answers the client's `n`th request. -/
inductive Traversal {τ : Type} (serve : ℕ → Option String → Except ApiError (PaginatedResponse τ)) :
    ℕ → Option String → List (PaginatedResponse τ) → Prop
  | last {n : ℕ} {cursor : Option String} {page : PaginatedResponse τ}
      (hserve : serve n cursor = .ok page) (hend : page.nextCursor = none) :
      Traversal serve n cursor [page]
  | next {n : ℕ} {cursor : Option String} {page : PaginatedResponse τ} {text : String}
      {rest : List (PaginatedResponse τ)}
      (hserve : serve n cursor = .ok page) (hnext : page.nextCursor = some text)
      (hrest : Traversal serve (n + 1) (some text) rest) :
      Traversal serve n cursor (page :: rest)

/-! ## §5 — A cursor the server wrote is a cursor the server accepts. -/

/-- A boundary as the service's queries produce it: the timestamp is the UTC text of an instant
whose microseconds are the numeric key, the id a generated identifier. -/
structure SortBoundary.Stamped (b : SortBoundary) : Prop where
  instant : ∃ t, c.formatRfc3339 (.utc t) = some b.timestamp ∧
    b.sortKey = sortKeyFromTimestamp (.utc t)
  id : IsUuidV7 b.id

/-- The collections of the service, by the `kind` their cursors carry. -/
def cursorKinds : List String :=
  ["tombstones", "sessions", "session_captures", "session_snapshots", "snapshot_captures",
    "captures", "snapshots", "manifests", "artifacts"]

/-- The text `filter_hash` produces: 64 hexadecimal digits. -/
def IsHexDigest (s : String) : Prop :=
  s.length = 64 ∧ ∀ ch ∈ s.toList, lowerHex ch = some ch

variable {c}

theorem isAtOrBefore_iff (left right : SortBoundary) :
    isAtOrBefore left right = true ↔ left.key ≤ right.key := by
  simp [isAtOrBefore, SortBoundary.key, Prod.Lex.toLex_le_toLex]

/-- A server-written timestamp passes the normalization check. -/
theorem normalizeTimestamp_stamped (hc : c.Rfc3339Reads) {t : ℤ} {s : String}
    (h : c.formatRfc3339 (.utc t) = some s) (message : String) :
    normalizeTimestamp c s message = .ok s := by
  obtain ⟨hlo, hhi⟩ := hc.range_format t s h
  have hutc : (OffsetDateTime.utc t).toUtc = some (.utc t) := by simp; omega
  simp [normalizeTimestamp, hc.parse_format _ s h, hutc, h, bind, Except.bind]

theorem validateBoundary_stamped (hc : c.Rfc3339Reads) {b : SortBoundary} (hb : b.Stamped c) :
    validateBoundary c b = .ok () := by
  obtain ⟨⟨t, hformat, hkey⟩, hparse, hversion⟩ := hb
  simp [validateBoundary, normalizeTimestamp_stamped hc hformat, sortKeyFromRfc3339,
    hc.parse_format _ _ hformat, hkey, hparse, hversion, bind, Except.bind, pure, Except.pure]

theorem sortKey_bounds (hc : c.Rfc3339Reads) {b : SortBoundary} (hb : b.Stamped c) :
    b.sortKey.natAbs < 10 ^ 18 := by
  obtain ⟨⟨t, hformat, hkey⟩, -⟩ := hb
  obtain ⟨hlo, hhi⟩ := hc.range_format t _ hformat
  have habs : t.natAbs / 1000 < 10 ^ 18 := by omega
  rwa [hkey, sortKeyFromTimestamp, OffsetDateTime.nanos_utc, Int.natAbs_tdiv]

@[simp] theorem SortBoundary.fromJson_toJson {b : SortBoundary}
    (h : b.sortKey.natAbs < 10 ^ 18) : SortBoundary.fromJson b.toJson = some b := by
  have hkey : Json.asSigned 64 (.num b.sortKey) = some b.sortKey :=
    Json.asSigned_num (h.trans (by norm_num))
  simp [SortBoundary.fromJson, SortBoundary.toJson, Json.structFields, List.lookup_cons, hkey]

@[simp] theorem OpaqueCursor.fromJson_toJson {cursor : OpaqueCursor}
    (hversion : cursor.version < 2 ^ 8) (hhw : cursor.highWatermark.sortKey.natAbs < 10 ^ 18)
    (hafter : cursor.after.sortKey.natAbs < 10 ^ 18) :
    OpaqueCursor.fromJson cursor.toJson = some cursor := by
  simp only [OpaqueCursor.fromJson, OpaqueCursor.toJson, Json.structFields]
  simp [List.lookup_cons, Json.asUnsigned_num hversion, SortBoundary.fromJson_toJson hhw,
    SortBoundary.fromJson_toJson hafter]

/-- A cursor of timestamps that can be written can be read. -/
theorem OpaqueCursor.toJson_readable {cursor : OpaqueCursor} (hversion : cursor.version < 2 ^ 8)
    (hhw : cursor.highWatermark.sortKey.natAbs < 10 ^ 18)
    (hafter : cursor.after.sortKey.natAbs < 10 ^ 18) : Readable 127 cursor.toJson := by
  have hboundary {b : SortBoundary} (h : b.sortKey.natAbs < 10 ^ 18) :
      Readable 126 b.toJson := by
    refine .obj ?_
    simp only [List.forall_mem_cons]
    exact ⟨.num (by omega) (by omega), .str _, .str _, by simp⟩
  refine .obj ?_
  simp only [List.forall_mem_cons]
  exact ⟨.num (by omega) (by omega), .str _, .str _, hboundary hhw, hboundary hafter, by simp⟩

theorem IsHexDigest.plain {s : String} (h : IsHexDigest s) : ∀ ch ∈ s.toList, Json.PlainChar ch :=
  fun ch hch => lowerHex_plain (h.2 ch hch)

/-- Timestamps are written in digits and separators. -/
theorem timestamp_plain (hc : c.Rfc3339Reads) {t : ℤ} {s : String}
    (h : c.formatRfc3339 (.utc t) = some s) : ∀ ch ∈ s.toList, Json.PlainChar ch := by
  intro ch hch
  rcases hc.chars_format t s h ch hch with hdigit | hsep
  · have hself : lowerHex ch = some ch := by simp [lowerHex, hdigit]
    exact lowerHex_plain hself
  · have hall : ∀ d ∈ ['-', ':', '.', 'T', 'Z'], Json.PlainChar d := by decide
    exact hall ch hsep

/-- The length and the alphabet of a stamped boundary's text. -/
theorem render_boundary (hc : c.Rfc3339Reads) {b : SortBoundary} (hb : b.Stamped c) :
    (Json.render b.toJson).length ≤ 130 ∧ ∀ ch ∈ Json.render b.toJson, ch.toNat < 128 := by
  obtain ⟨t, hformat, -⟩ := hb.instant
  have hts := timestamp_plain hc hformat
  have htslen := hc.length_format t _ hformat
  have hid := parseUuid_plain hb.id.1
  have hkey := Json.length_renderInt_le (by norm_num) (sortKey_bounds hc hb)
  simp only [SortBoundary.toJson, Json.render, Json.renderFields]
  constructor
  · have hsortKey : (Json.renderString "sort_key").length = 10 := by decide
    have htimestamp : (Json.renderString "timestamp").length = 11 := by decide
    have hidName : (Json.renderString "id").length = 4 := by decide
    simp only [List.length_cons, List.length_append, List.length_nil, Json.length_renderString hts,
      Json.length_renderString hid.2, hsortKey, htimestamp, hidName, hid.1]
    omega
  · simp only [List.forall_mem_cons, List.forall_mem_append]
    exact ⟨by decide, by decide, by decide, Json.renderInt_ascii _, by decide, by decide, by decide,
      Json.renderString_ascii hts, by decide, by decide, by decide, Json.renderString_ascii hid.2,
      by decide, by simp⟩

/-- A cursor over stamped boundaries fits the 2048 byte limit of `parse_page`. -/
theorem length_encodeCursor (hc : c.Rfc3339Reads)
    {kind filterHash : String} (hkind : kind ∈ cursorKinds) (hhash : IsHexDigest filterHash)
    {highWatermark after : SortBoundary} (hhw : highWatermark.Stamped c)
    (hafter : after.Stamped c) :
    (encodeCursor kind filterHash highWatermark after).utf8ByteSize ≤ maxCursorBytes := by
  have hkindFacts : ∀ k ∈ cursorKinds, k.length ≤ 17 ∧ ∀ ch ∈ k.toList, Json.PlainChar ch := by
    decide
  obtain ⟨hkindLen, hkindPlain⟩ := hkindFacts kind hkind
  obtain ⟨hhwLen, hhwAscii⟩ := render_boundary hc hhw
  obtain ⟨hafterLen, hafterAscii⟩ := render_boundary hc hafter
  have hversion : Json.renderInt ((cursorVersion : ℕ) : ℤ) = ['1'] := by decide
  have hascii : ∀ ch ∈ Json.render (OpaqueCursor.toJson
      ⟨cursorVersion, kind, filterHash, highWatermark, after⟩), ch.toNat < 128 := by
    simp only [OpaqueCursor.toJson, Json.render, Json.renderFields, hversion,
      List.forall_mem_cons, List.forall_mem_append]
    exact ⟨by decide, by decide, by decide, ⟨by decide, by simp⟩, by decide, by decide, by decide,
      Json.renderString_ascii hkindPlain, by decide, by decide, by decide,
      Json.renderString_ascii hhash.plain, by decide, by decide, by decide, hhwAscii, by decide,
      by decide, by decide, hafterAscii, by decide, by simp⟩
  rw [encodeCursor, Lib.Base64.encode, ← length_utf8,
    length_utf8_ascii (Lib.Base64.encodeList_ascii _), Lib.Base64.length_encodeList, jsonToVec,
    Json.compact, length_utf8_ascii hascii]
  have hnames : (Json.renderString "version").length = 9 ∧ (Json.renderString "kind").length = 6 ∧
      (Json.renderString "filter_hash").length = 13 ∧
      (Json.renderString "high_watermark").length = 16 ∧
      (Json.renderString "after").length = 7 := by decide
  simp only [OpaqueCursor.toJson, Json.render, Json.renderFields, hversion, List.length_cons,
    List.length_append, List.length_nil, Json.length_renderString hkindPlain,
    Json.length_renderString hhash.plain, hnames.1, hnames.2.1, hnames.2.2.1, hnames.2.2.2.1,
    hnames.2.2.2.2, hhash.1, maxCursorBytes]
  omega

/-- **`parsePage_encodeCursor`** — sending a cursor back to the collection and filters it was
written for is accepted, and yields exactly the two boundaries it was written with. -/
theorem parsePage_encodeCursor (hc : c.Rfc3339Reads) (hjson : c.JsonReads)
    {kind filterHash : String} (hkind : kind ∈ cursorKinds) (hhash : IsHexDigest filterHash)
    {highWatermark after : SortBoundary} (hhw : highWatermark.Stamped c) (hafter : after.Stamped c)
    (hle : after.key ≤ highWatermark.key) {limit : Option ℕ}
    (hlimit : 1 ≤ limit.getD defaultPageLimit ∧ limit.getD defaultPageLimit ≤ maxPageLimit) :
    parsePage c limit (some (encodeCursor kind filterHash highWatermark after)) kind filterHash =
      .ok ⟨limit.getD defaultPageLimit,
        some ⟨cursorVersion, kind, filterHash, highWatermark, after⟩⟩ := by
  have hlen := length_encodeCursor hc hkind hhash hhw hafter
  have hread : (c.jsonFromSlice (jsonToVec (OpaqueCursor.toJson
      ⟨cursorVersion, kind, filterHash, highWatermark, after⟩))).bind OpaqueCursor.fromJson =
      some ⟨cursorVersion, kind, filterHash, highWatermark, after⟩ := by
    have hversion : cursorVersion < 2 ^ 8 := by norm_num [cursorVersion]
    have hhwKey := sortKey_bounds hc hhw
    have hafterKey := sortKey_bounds hc hafter
    rw [hjson.fromSlice _ (OpaqueCursor.toJson_readable hversion hhwKey hafterKey)]
    exact OpaqueCursor.fromJson_toJson hversion hhwKey hafterKey
  have horder := (isAtOrBefore_iff after highWatermark).mpr hle
  rw [encodeCursor] at hlen
  simp only [parsePage, hlimit, and_self, not_true_eq_false, ↓reduceIte, not_lt.mpr hlen,
    encodeCursor, Lib.Base64.decode_encode, okOr_some, bind, Except.bind, hread]
  simp [validateBoundary_stamped hc hhw, validateBoundary_stamped hc hafter, horder, pure,
    Except.pure]

/-! ## §6 — A served page is a page of the keyset library. -/

/-- The two boundaries a cursor text stands for: none for a first page, else a stamped watermark
and a stamped `after` at or below it, as the server encoded them. -/
inductive Denotes (c : Crates) (kind filterHash : String) :
    Option String → Option (SortBoundary × SortBoundary) → Prop
  | first : Denotes c kind filterHash none none
  | next {highWatermark after : SortBoundary} (hhw : highWatermark.Stamped c)
      (hafter : after.Stamped c) (hle : after.key ≤ highWatermark.key) :
      Denotes c kind filterHash (some (encodeCursor kind filterHash highWatermark after))
        (some (highWatermark, after))

/-- The key of a fetched row. -/
def rowKey {τ : Type} (r : τ × SortBoundary) : ℤ ×ₗ String := r.2.key

/-- The keys of a pair of boundaries. -/
def boundKeys (bounds : Option (SortBoundary × SortBoundary)) :
    Option ((ℤ ×ₗ String) × (ℤ ×ₗ String)) :=
  bounds.map fun b => (b.1.key, b.2.key)

/-- The page request a cursor's boundaries amount to. -/
def requestOf (kind filterHash : String) (limit : ℕ)
    (bounds : Option (SortBoundary × SortBoundary)) : PageRequest :=
  ⟨limit, bounds.map fun b => ⟨cursorVersion, kind, filterHash, b.1, b.2⟩⟩

/-- The watermark a page reports, as a boundary. -/
def watermarkBoundary {τ : Type} (bounds : Option (SortBoundary × SortBoundary))
    (rows : List (τ × SortBoundary)) : Option SortBoundary :=
  (bounds.map Prod.fst).or (rows.head?.map Prod.snd)

section Serve

variable {τ : Type} {kind filterHash : String} {rows : List (τ × SortBoundary)}
  {bounds : Option (SortBoundary × SortBoundary)}

theorem watermark_boundary (bounds : Option (SortBoundary × SortBoundary))
    (m : List (τ × SortBoundary)) :
    Lib.Keyset.watermark rowKey (boundKeys bounds) m =
      (watermarkBoundary bounds m).map SortBoundary.key := by
  cases bounds with
  | some b => rfl
  | none => cases m <;> rfl

/-- The SQL bounds are the window of the keyset library. -/
theorem descendingBounds_requestOf (limit : ℕ) (b : SortBoundary) :
    descendingBounds (requestOf kind filterHash limit bounds) b.sortKey b.id =
      Lib.Keyset.inWindow (boundKeys bounds) b.key := by
  cases bounds with
  | none => rfl
  | some pair =>
    rw [Bool.eq_iff_iff]
    simp [descendingBounds, requestOf, boundKeys, SortBoundary.key, Lib.Keyset.inWindow,
      Prod.Lex.toLex_le_toLex, Prod.Lex.toLex_lt_toLex]

theorem fetchRows_requestOf (limit : ℕ) :
    fetchRows (requestOf kind filterHash limit bounds) rows =
      (Lib.Keyset.matching rowKey (boundKeys bounds) rows).take (limit + 1) := by
  simp only [fetchRows, descendingBounds_requestOf]
  rfl

/-- A page whose window holds no more rows than its limit: all of them, and no cursor. -/
theorem pageFromRows_last (m : List (τ × SortBoundary)) {limit : ℕ} (hlen : m.length ≤ limit) :
    pageFromRows (m.take (limit + 1)) (requestOf kind filterHash limit bounds) kind filterHash =
      .ok ⟨m.map Prod.fst, none, (watermarkBoundary bounds m).map SortBoundary.shown⟩ := by
  rw [List.take_of_length_le (hlen.trans (Nat.le_succ limit))]
  simp only [pageFromRows, requestOf, not_lt.mpr hlen, decide_false, Bool.false_eq_true, ↓reduceIte,
    List.take_of_length_le hlen, watermarkBoundary, Option.map_map]
  rfl

/-- A page with a look-ahead row: the first `limit` rows, and a cursor at the last of them. -/
theorem pageFromRows_next (m : List (τ × SortBoundary)) {limit : ℕ} (hlen : limit < m.length)
    {r : τ × SortBoundary} (hr : (m.take limit).getLast? = some r) {hw : SortBoundary}
    (hhw : watermarkBoundary bounds m = some hw) :
    pageFromRows (m.take (limit + 1)) (requestOf kind filterHash limit bounds) kind filterHash =
      .ok ⟨(m.take limit).map Prod.fst, some (encodeCursor kind filterHash hw r.2),
        some hw.shown⟩ := by
  have hhead : (m.take (limit + 1)).head? = m.head? := by
    cases m with
    | nil => rfl
    | cons x xs => rfl
  have hwm : ((requestOf kind filterHash limit bounds).cursor.map (·.highWatermark)).or
      ((m.take (limit + 1)).head?.map Prod.snd) = some hw := by
    rw [hhead, ← hhw]
    cases bounds <;> rfl
  have hmin : limit < (m.take (limit + 1)).length := by
    rw [List.length_take]
    omega
  have htake : (m.take (limit + 1)).take limit = m.take limit := by
    rw [List.take_take, min_eq_left (Nat.le_succ limit)]
  have hlimit : (requestOf kind filterHash limit bounds).limit = limit := rfl
  simp only [pageFromRows, hwm, hlimit, hmin, decide_true, ↓reduceIte, htake, hr]
  rfl

/-- **`listPage_cut`** — one request of a traversal, at the boundaries its cursor stands for:
either it ends the traversal, or it cuts the window after `limit` rows and hands out a cursor that
stands for the watermark and the last row kept. -/
theorem listPage_cut (hc : c.Rfc3339Reads) (hjson : c.JsonReads)
    (hkind : kind ∈ cursorKinds) (hhash : IsHexDigest filterHash)
    (hrows : ∀ r ∈ rows, r.2.Stamped c) (hkeys : (rows.map rowKey).Nodup) {limit : Option ℕ}
    (hlimit : 1 ≤ limit.getD defaultPageLimit ∧ limit.getD defaultPageLimit ≤ maxPageLimit)
    {cursor : Option String} (hcursor : Denotes c kind filterHash cursor bounds) :
    let m := Lib.Keyset.matching rowKey (boundKeys bounds) rows
    let l := limit.getD defaultPageLimit
    (m.length ≤ l ∧ listPage c kind filterHash rows limit cursor =
        .ok ⟨m.map Prod.fst, none, (watermarkBoundary bounds m).map SortBoundary.shown⟩) ∨
    (l < m.length ∧ ∃ r hw, (m.take l).getLast? = some r ∧ watermarkBoundary bounds m = some hw ∧
      listPage c kind filterHash rows limit cursor =
        .ok ⟨(m.take l).map Prod.fst, some (encodeCursor kind filterHash hw r.2),
          some hw.shown⟩ ∧
      Denotes c kind filterHash (some (encodeCursor kind filterHash hw r.2))
        (some (hw, r.2))) := by
  intro m l
  have hserve : listPage c kind filterHash rows limit cursor =
      pageFromRows (m.take (l + 1)) (requestOf kind filterHash l bounds) kind filterHash := by
    have hparse : parsePage c limit cursor kind filterHash =
        .ok (requestOf kind filterHash l bounds) := by
      cases hcursor with
      | first => simp [parsePage, hlimit, requestOf, l, pure, Except.pure]
      | next hhw hafter hle =>
        exact parsePage_encodeCursor hc hjson hkind hhash hhw hafter hle hlimit
    simp only [listPage, hparse, bind, Except.bind]
    rw [fetchRows_requestOf]
  rw [hserve]
  by_cases hlen : m.length ≤ l
  · exact Or.inl ⟨hlen, pageFromRows_last m hlen⟩
  · rw [not_le] at hlen
    have hne : m.take l ≠ [] := by
      intro hnil
      have hzero := congrArg List.length hnil
      rw [List.length_take, List.length_nil] at hzero
      omega
    obtain ⟨r, hr⟩ := Option.ne_none_iff_exists'.mp
      (fun hnone => hne (List.getLast?_eq_none_iff.mp hnone))
    have hrm : r ∈ m := List.mem_of_mem_take (List.mem_of_getLast? hr)
    obtain ⟨hw, hhw, hstamped⟩ : ∃ hw, watermarkBoundary bounds m = some hw ∧ hw.Stamped c := by
      cases hcursor with
      | next hhw _ _ => exact ⟨_, rfl, hhw⟩
      | first =>
        obtain ⟨x, hx⟩ := Option.ne_none_iff_exists'.mp
          (fun hnone => (List.ne_nil_of_mem hrm) (List.head?_eq_none_iff.mp hnone))
        have hxm : x ∈ m := List.mem_of_mem_head? hx
        exact ⟨x.2, by simp [watermarkBoundary, hx],
          hrows x ((Lib.Keyset.mem_matching rowKey).mp hxm).1⟩
    have hle : r.2.key ≤ hw.key :=
      Lib.Keyset.le_watermark hkeys (by rw [watermark_boundary, hhw]; rfl) hrm
    exact Or.inr ⟨hlen, r, hw, hr, hhw, pageFromRows_next m hlen hr hhw,
      Denotes.next hstamped (hrows r ((Lib.Keyset.mem_matching rowKey).mp hrm).1) hle⟩

end Serve

/-! ## §7 — A whole traversal. -/

/-- What pagination relies on from the time and JSON crates. -/
structure Crates.CursorReads (c : Crates) : Prop where
  time : c.Rfc3339Reads
  json : c.JsonReads

/-- The watermark a first page establishes: the boundary of the greatest key present. -/
def firstWatermark {τ : Type} (rows : List (τ × SortBoundary)) : Option SortBoundary :=
  ((Lib.Keyset.descending rowKey rows).head?).map Prod.snd

/-- **`ExactTraversal`** — what following cursors to the end returned. `pages` are the rows behind
the items of `responses`, and `coll n` is what the collection held when page `n` was served. -/
structure ExactTraversal {τ : Type} (coll : ℕ → List (τ × SortBoundary))
    (responses : List (PaginatedResponse τ)) (pages : List (List (τ × SortBoundary))) : Prop where
  /-- The items are those rows, page by page. -/
  items : responses.map (·.items) = pages.map (List.map Prod.fst)
  /-- Every row returned was there when its page was served. -/
  stored : ∀ i page, pages[i]? = some page → ∀ r ∈ page, r ∈ coll i
  /-- Keys descend strictly across all pages. -/
  descending : pages.flatten.Pairwise fun a b => rowKey b < rowKey a
  /-- No row is returned twice. -/
  noRepeat : (pages.flatten.map rowKey).Nodup
  /-- No row above the first page's watermark is returned. -/
  belowWatermark : ∀ hw, firstWatermark (coll 0) = some hw →
    ∀ r ∈ pages.flatten, rowKey r ≤ hw.key
  /-- A key present whenever a page was served is returned exactly once. -/
  complete : ∀ k, (∀ n < pages.length, k ∈ (coll n).map rowKey) →
    (pages.flatten.map rowKey).count k = 1
  /-- Every page reports the watermark of the first. -/
  sameWatermark : ∀ response ∈ responses,
    response.highWatermark = (firstWatermark (coll 0)).map SortBoundary.shown

section Traversal

variable {τ : Type} {kind filterHash : String} {coll : ℕ → List (τ × SortBoundary)}
  {limit : ℕ → Option ℕ}

/-- The rows behind a traversal's responses form a run of the keyset library, and every response
reports the watermark the run carries. -/
theorem pages_of_traversal (hc : c.CursorReads) (hkind : kind ∈ cursorKinds)
    (hhash : IsHexDigest filterHash) (hrows : ∀ n, ∀ r ∈ coll n, r.2.Stamped c)
    (hkeys : ∀ n, ((coll n).map rowKey).Nodup)
    (hlimit : ∀ n, 1 ≤ (limit n).getD defaultPageLimit ∧
      (limit n).getD defaultPageLimit ≤ maxPageLimit)
    {n : ℕ} {cursor : Option String} {responses : List (PaginatedResponse τ)}
    (h : Traversal (fun n cursor => listPage c kind filterHash (coll n) (limit n) cursor)
      n cursor responses) :
    ∀ {bounds}, Denotes c kind filterHash cursor bounds →
      ∃ pages, Lib.Keyset.Pages rowKey coll (fun n => (limit n).getD defaultPageLimit) n
          (boundKeys bounds) pages ∧
        responses.map (·.items) = pages.map (List.map Prod.fst) ∧
        ∀ response ∈ responses, response.highWatermark =
          (watermarkBoundary bounds (Lib.Keyset.matching rowKey (boundKeys bounds) (coll n))).map
            SortBoundary.shown := by
  induction h with
  | @last n cursor page hserve hend =>
    intro bounds hbounds
    rcases listPage_cut hc.time hc.json hkind hhash (hrows n) (hkeys n) (hlimit n)
      hbounds with ⟨hlen, heq⟩ | ⟨-, r, hw, -, -, heq, -⟩
    · obtain rfl := Except.ok.inj (heq.symm.trans hserve)
      refine ⟨_, Lib.Keyset.Pages.last hlen, rfl, fun response hresponse => ?_⟩
      rw [List.mem_singleton.mp hresponse]
    · obtain rfl := Except.ok.inj (heq.symm.trans hserve)
      simp at hend
  | @next n cursor page text rest hserve hnext _ ih =>
    intro bounds hbounds
    rcases listPage_cut hc.time hc.json hkind hhash (hrows n) (hkeys n) (hlimit n)
      hbounds with ⟨-, heq⟩ | ⟨hlen, r, hw, hr, hhw, heq, hdenotes⟩
    · obtain rfl := Except.ok.inj (heq.symm.trans hserve)
      simp at hnext
    · obtain rfl := Except.ok.inj (heq.symm.trans hserve)
      obtain rfl := Option.some.inj hnext
      obtain ⟨pages, hpages, hitems, hwater⟩ := ih hdenotes
      have hwkey : Lib.Keyset.watermark rowKey (boundKeys bounds)
          (Lib.Keyset.matching rowKey (boundKeys bounds) (coll n)) = some hw.key := by
        rw [watermark_boundary, hhw]
        rfl
      refine ⟨_, Lib.Keyset.Pages.more hlen hwkey hr hpages, ?_, fun response hresponse => ?_⟩
      · simp only [List.map_cons, hitems]
      · rw [hhw]
        rcases List.mem_cons.mp hresponse with rfl | hrest
        · rfl
        · exact hwater response hrest

/-- A run of the keyset library is served as a traversal. -/
theorem traversal_of_pages (hc : c.CursorReads) (hkind : kind ∈ cursorKinds)
    (hhash : IsHexDigest filterHash) (hrows : ∀ n, ∀ r ∈ coll n, r.2.Stamped c)
    (hkeys : ∀ n, ((coll n).map rowKey).Nodup)
    (hlimit : ∀ n, 1 ≤ (limit n).getD defaultPageLimit ∧
      (limit n).getD defaultPageLimit ≤ maxPageLimit)
    {n : ℕ} {keys : Option ((ℤ ×ₗ String) × (ℤ ×ₗ String))}
    {pages : List (List (τ × SortBoundary))}
    (h : Lib.Keyset.Pages rowKey coll (fun n => (limit n).getD defaultPageLimit) n keys pages) :
    ∀ {cursor bounds}, Denotes c kind filterHash cursor bounds → boundKeys bounds = keys →
      ∃ responses, Traversal
        (fun n cursor => listPage c kind filterHash (coll n) (limit n) cursor)
        n cursor responses := by
  induction h with
  | @last n keys hlen =>
    rintro cursor bounds hbounds rfl
    rcases listPage_cut hc.time hc.json hkind hhash (hrows n) (hkeys n) (hlimit n)
      hbounds with ⟨-, heq⟩ | ⟨hlt, -⟩
    · exact ⟨_, Traversal.last heq rfl⟩
    · exact absurd hlen (not_le.mpr hlt)
  | @more n keys hwKey r rest hlen hhwKey hr _ ih =>
    rintro cursor bounds hbounds rfl
    rcases listPage_cut hc.time hc.json hkind hhash (hrows n) (hkeys n) (hlimit n)
      hbounds with ⟨hle, -⟩ | ⟨-, r', hw, hr', hhw, heq, hdenotes⟩
    · exact absurd hle (not_le.mpr hlen)
    · obtain rfl : r = r' := Option.some.inj (hr.symm.trans hr')
      have hwkey : hw.key = hwKey := by
        rw [watermark_boundary, hhw] at hhwKey
        exact Option.some.inj hhwKey
      obtain ⟨responses, hresponses⟩ := ih hdenotes (by simp [boundKeys, hwkey, rowKey])
      exact ⟨_, Traversal.next heq rfl hresponses⟩

end Traversal

/-- **`keysetTraversal_exact`** — over a collection whose rows appear only above the first page's
watermark and disappear freely, with a limit of its own for every page, following `next_cursor`
from a first page ends, and what it returned is exact. -/
theorem keysetTraversal_exact (c : Crates) (hc : c.CursorReads) (kind filterHash : String)
    (hkind : kind ∈ cursorKinds) (hhash : IsHexDigest filterHash) {τ : Type}
    (coll : ℕ → List (τ × SortBoundary)) (limit : ℕ → Option ℕ)
    (hrows : ∀ n, ∀ r ∈ coll n, r.2.Stamped c) (hkeys : ∀ n, ((coll n).map rowKey).Nodup)
    (hlimit : ∀ n, 1 ≤ (limit n).getD defaultPageLimit ∧
      (limit n).getD defaultPageLimit ≤ maxPageLimit)
    (hinsert : ∀ hw, firstWatermark (coll 0) = some hw →
      ∀ n, ∀ r ∈ coll (n + 1), rowKey r ≤ hw.key → rowKey r ∈ (coll n).map rowKey) :
    (∃ responses, Traversal
      (fun n cursor => listPage c kind filterHash (coll n) (limit n) cursor) 0 none responses) ∧
    ∀ responses, Traversal
      (fun n cursor => listPage c kind filterHash (coll n) (limit n) cursor) 0 none responses →
      ∃ pages, ExactTraversal coll responses pages := by
  have hfirst : Lib.Keyset.watermark rowKey none (Lib.Keyset.matching rowKey none (coll 0)) =
      (firstWatermark (coll 0)).map SortBoundary.key := by
    rw [Lib.Keyset.matching_none]
    exact watermark_boundary none _
  constructor
  · obtain ⟨pages, hpages⟩ : ∃ pages, Lib.Keyset.Pages rowKey coll
        (fun n => (limit n).getD defaultPageLimit) 0 none pages := by
      refine Lib.Keyset.Pages.exists_of_antitone hkeys (fun n => (hlimit n).1) ?_
      intro k hk
      rw [hfirst] at hk
      obtain ⟨hw, hhw, rfl⟩ := Option.map_eq_some_iff.mp hk
      exact hinsert hw hhw
    exact traversal_of_pages hc hkind hhash hrows hkeys hlimit hpages Denotes.first rfl
  · intro responses hresponses
    obtain ⟨pages, hpages, hitems, hwater⟩ :=
      pages_of_traversal hc hkind hhash hrows hkeys hlimit hresponses Denotes.first
    refine ⟨pages, hitems, ?_, hpages.descending hkeys, hpages.nodup_keys hkeys, ?_, ?_, ?_⟩
    · intro i page hpage r hr
      rw [← Nat.zero_add i]
      exact hpages.mem_coll hpage hr
    · intro hw hhw
      refine hpages.le_watermark hkeys ?_
      exact hfirst.trans (by rw [hhw]; rfl)
    · intro k hk
      refine List.count_eq_one_of_mem (hpages.nodup_keys hkeys) (List.mem_map.mpr ?_)
      exact hpages.covers hkeys rfl fun n _ hn => List.mem_map.mp (hk n (by omega))
    · intro response hresponse
      rw [hwater response hresponse]
      have hboundary : watermarkBoundary none (Lib.Keyset.matching rowKey none (coll 0)) =
          firstWatermark (coll 0) := by
        rw [Lib.Keyset.matching_none]
        rfl
      exact congrArg _ hboundary

/-- Two rows, one of them deleted and a newer one inserted after the first page. -/
def sampleCollection : ℕ → List (String × SortBoundary)
  | 0 => [("older",
      ⟨1767225601000000, "2026-01-01T00:00:01Z", "019b76da-a800-7000-8000-000000000001"⟩),
      ("newer", ⟨1767225602000000, "2026-01-01T00:00:02Z", "019b76da-a800-7000-8000-000000000002"⟩)]
  | _ + 1 =>
    [("older", ⟨1767225601000000, "2026-01-01T00:00:01Z", "019b76da-a800-7000-8000-000000000001"⟩),
      ("newest", ⟨1767225603000000, "2026-01-01T00:00:03Z",
        "019b76da-a800-7000-8000-000000000003"⟩)]

theorem keysetTraversal_exact_sample :
    (∃ responses, Traversal (fun n cursor => listPage (.sample []) "snapshots"
      "e3b0c44298fc1c149afbf4c8996fb92427ae41e4649b934ca495991b7852b855" (sampleCollection n)
      (some 1) cursor) 0 none responses) ∧
    ∀ responses, Traversal (fun n cursor => listPage (.sample []) "snapshots"
      "e3b0c44298fc1c149afbf4c8996fb92427ae41e4649b934ca495991b7852b855" (sampleCollection n)
      (some 1) cursor) 0 none responses →
      ∃ pages, ExactTraversal sampleCollection responses pages := by
  have hstamped : ∀ r ∈ sampleCollection 0 ++ sampleCollection 1, r.2.Stamped (.sample []) := by
    intro r hr
    have hall : ∀ r ∈ sampleCollection 0 ++ sampleCollection 1,
        (∃ p ∈ Crates.sampleTimes, (Crates.sample []).formatRfc3339 (.utc p.1) =
          some r.2.timestamp ∧
          r.2.sortKey = sortKeyFromTimestamp (.utc p.1)) ∧ IsUuidV7 r.2.id := by decide +kernel
    obtain ⟨⟨p, -, hformat, hkey⟩, hid⟩ := hall r hr
    exact ⟨⟨p.1, hformat, hkey⟩, hid⟩
  have hwm : firstWatermark (sampleCollection 0) =
      some ⟨1767225602000000, "2026-01-01T00:00:02Z", "019b76da-a800-7000-8000-000000000002"⟩ := by
    decide +kernel
  refine keysetTraversal_exact (.sample [])
    ⟨Crates.sample_rfc3339Reads [], Crates.sample_jsonReads []⟩ _ _ (by decide)
    ⟨by decide, by decide +kernel⟩ sampleCollection (fun _ => some 1) ?_ ?_
    (fun _ => by decide) ?_
  · rintro (_ | n) r hr
    · exact hstamped r (List.mem_append_left _ hr)
    · exact hstamped r (List.mem_append_right _ hr)
  · rintro (_ | n)
    · show ((sampleCollection 0).map rowKey).Nodup
      decide +kernel
    · show ((sampleCollection 1).map rowKey).Nodup
      decide +kernel
  · intro hw hhw n
    obtain rfl := Option.some.inj (hwm.symm.trans hhw)
    rcases n with _ | n
    · show ∀ r ∈ sampleCollection 1, _ → rowKey r ∈ (sampleCollection 0).map rowKey
      decide +kernel
    · show ∀ r ∈ sampleCollection 1, _ → rowKey r ∈ (sampleCollection 1).map rowKey
      decide +kernel

end Patwari
