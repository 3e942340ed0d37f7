/-
# Patwari.Cursors — cursors belong to one collection and one set of filters.

§1 lists the collections a cursor can come from with the document `filter_hash` digests for each,
and shows that the document determines collection and filters. §2 says what `parse_page` accepts. §3
puts the two together: a cursor a page was answered with leads to the next page of the same list,
and to no page of another.
-/
import Patwari.Fingerprint
import Patwari.Server

namespace Patwari

open Lib (Json)

/-! ## §1 — The filters a cursor is bound to. -/

/-- `CaptureFilters`. -/
structure CaptureFilters where
  clientId : Option String
  sessionId : Option String
  snapshotId : Option String
  sourceAgent : Option String
  repository : Option String
  project : Option String
  branch : Option String
  sourceAgentVersion : Option String
  artifactSetVersion : Option UInt16
  activityFrom : Option ℤ
  activityTo : Option ℤ

def CaptureFilters.jsonFields (f : CaptureFilters) : List (String × Json) :=
  [("client_id", optionJson f.clientId), ("session_id", optionJson f.sessionId),
    ("snapshot_id", optionJson f.snapshotId), ("source_agent", optionJson f.sourceAgent),
    ("repository", optionJson f.repository), ("project", optionJson f.project),
    ("branch", optionJson f.branch),
    ("source_agent_version", optionJson f.sourceAgentVersion),
    ("artifact_set_version", optionNumJson (f.artifactSetVersion.map fun v => (v.toNat : ℤ))),
    ("activity_from", optionNumJson f.activityFrom), ("activity_to", optionNumJson f.activityTo)]

/-- `ArtifactFilters`. -/
structure ArtifactFilters where
  snapshotId : Option String
  sessionId : Option String
  originalSha256 : Option String
  storedSha256 : Option String

/-- A field left out when it has no value. -/
def presentField (name : String) : Option String → List (String × Json)
  | none => []
  | some value => [(name, .str value)]

def ArtifactFilters.jsonFields (f : ArtifactFilters) : List (String × Json) :=
  [("snapshot_id", optionJson f.snapshotId), ("session_id", optionJson f.sessionId)] ++
    -- the digests came later, and cursors from before them stay valid
    presentField "original_sha256" f.originalSha256 ++ presentField "stored_sha256" f.storedSha256

/-- The filters of `list_session_snapshots`: those of the snapshots with the session of its path. -/
def sessionOnly (sessionId : String) : SnapshotFilters :=
  { sourceAgent := none, repository := none, project := none, branch := none,
    sourceAgentVersion := none, artifactSetVersion := none, clientId := none, activityFrom := none,
    activityTo := none, sessionId := some sessionId }

/-- A collection and the filters of one list of it. -/
inductive PageFilters
  | tombstones
  | sessions (filters : SessionFilters)
  | sessionCaptures (sessionId : String)
  | sessionSnapshots (sessionId : String)
  | snapshotCaptures (snapshotId : String)
  | captures (filters : CaptureFilters)
  | snapshots (filters : SnapshotFilters)
  | manifests (sessionId : Option String)
  | artifacts (filters : ArtifactFilters)

namespace PageFilters

def kind : PageFilters → String
  | tombstones => "tombstones"
  | sessions _ => "sessions"
  | sessionCaptures _ => "session_captures"
  | sessionSnapshots _ => "session_snapshots"
  | snapshotCaptures _ => "snapshot_captures"
  | captures _ => "captures"
  | snapshots _ => "snapshots"
  | manifests _ => "manifests"
  | artifacts _ => "artifacts"

def json : PageFilters → Json
  | tombstones => .null
  | sessions filters => .obj filters.jsonFields
  | sessionCaptures sessionId => .obj [("session_id", .str sessionId)]
  | sessionSnapshots sessionId => .obj (sessionOnly sessionId).jsonFields
  | snapshotCaptures snapshotId => .obj [("snapshot_id", .str snapshotId)]
  | captures filters => .obj filters.jsonFields
  | snapshots filters => .obj filters.jsonFields
  | manifests sessionId => .obj [("session_id", optionJson sessionId)]
  | artifacts filters => .obj filters.jsonFields

/-- The pair `filter_hash` serializes. -/
def document (filters : PageFilters) : Bytes := jsonToVec (.arr [.str filters.kind, filters.json])

/-- `filter_hash`. -/
def hash (c : Crates) (filters : PageFilters) : String := c.sha256Hex filters.document

theorem hash_sessions (c : Crates) (filters : SessionFilters) :
    (sessions filters).hash c = filterHash c "sessions" filters.jsonFields := rfl

theorem hash_snapshots (c : Crates) (filters : SnapshotFilters) :
    (snapshots filters).hash c = filterHash c "snapshots" filters.jsonFields := rfl

theorem kind_mem (filters : PageFilters) : filters.kind ∈ cursorKinds := by
  cases filters <;> simp [kind, cursorKinds]

end PageFilters

theorem optionNumJson_injective : Function.Injective optionNumJson := by
  intro a b h
  cases a <;> cases b <;> simp_all [optionNumJson]

theorem versionJson_injective :
    Function.Injective fun v : Option UInt16 => optionNumJson (v.map fun v => (v.toNat : ℤ)) := by
  intro a b h
  refine Option.map_injective (fun v w hvw => ?_) (optionNumJson_injective h)
  exact UInt16.toNat_inj.mp (Int.ofNat.inj hvw)

theorem SessionFilters.jsonFields_injective : Function.Injective SessionFilters.jsonFields := by
  rintro ⟨⟩ ⟨⟩ h
  simp only [jsonFields, List.cons.injEq, Prod.mk.injEq, true_and, and_true] at h
  obtain ⟨h1, h2, h3, h4, h5, h6, h7, h8, h9⟩ := h
  obtain rfl := optionJson_injective h1
  obtain rfl := optionJson_injective h2
  obtain rfl := optionJson_injective h3
  obtain rfl := optionJson_injective h4
  obtain rfl := optionJson_injective h5
  obtain rfl := versionJson_injective h6
  obtain rfl := optionJson_injective h7
  obtain rfl := optionNumJson_injective h8
  obtain rfl := optionNumJson_injective h9
  rfl

theorem SnapshotFilters.jsonFields_injective : Function.Injective SnapshotFilters.jsonFields := by
  rintro ⟨f, sessionId⟩ ⟨g, sessionId'⟩ h
  simp only [jsonFields, List.cons.injEq, Prod.mk.injEq, true_and] at h
  obtain ⟨hsession, hfields⟩ := h
  obtain rfl := optionJson_injective hsession
  obtain rfl := SessionFilters.jsonFields_injective hfields
  rfl

theorem CaptureFilters.jsonFields_injective : Function.Injective CaptureFilters.jsonFields := by
  rintro ⟨⟩ ⟨⟩ h
  simp only [jsonFields, List.cons.injEq, Prod.mk.injEq, true_and, and_true] at h
  obtain ⟨h1, h2, h3, h4, h5, h6, h7, h8, h9, h10, h11⟩ := h
  obtain rfl := optionJson_injective h1
  obtain rfl := optionJson_injective h2
  obtain rfl := optionJson_injective h3
  obtain rfl := optionJson_injective h4
  obtain rfl := optionJson_injective h5
  obtain rfl := optionJson_injective h6
  obtain rfl := optionJson_injective h7
  obtain rfl := optionJson_injective h8
  obtain rfl := versionJson_injective h9
  obtain rfl := optionNumJson_injective h10
  obtain rfl := optionNumJson_injective h11
  rfl

/-- The two skipped fields are told apart by their names. -/
theorem ArtifactFilters.jsonFields_injective : Function.Injective ArtifactFilters.jsonFields := by
  rintro ⟨snapshotId, sessionId, original, stored⟩ ⟨snapshotId', sessionId', original', stored'⟩ h
  simp only [jsonFields, List.cons_append, List.nil_append, List.cons.injEq, Prod.mk.injEq,
    true_and] at h
  obtain ⟨h1, h2, hdigests⟩ := h
  obtain rfl := optionJson_injective h1
  obtain rfl := optionJson_injective h2
  cases original <;> cases stored <;> cases original' <;> cases stored' <;>
    simp_all [presentField]

/-- **`PageFilters.document_injective`** — the digested document determines collection and
filters. -/
theorem PageFilters.document_injective : Function.Injective PageFilters.document := by
  intro f g h
  have hvalue := Json.compact_injective (utf8_injective h)
  simp only [Json.arr.injEq, List.cons.injEq, Json.str.injEq, and_true] at hvalue
  obtain ⟨hkind, hjson⟩ := hvalue
  -- two collections have two kinds
  cases f <;> cases g <;> try (simp [kind] at hkind; done)
  case tombstones.tombstones => rfl
  case sessions.sessions f g =>
    obtain rfl := SessionFilters.jsonFields_injective (Json.obj.inj hjson)
    rfl
  case sessionCaptures.sessionCaptures id id' =>
    simp only [json, Json.obj.injEq, List.cons.injEq, Prod.mk.injEq, Json.str.injEq, true_and,
      and_true] at hjson
    rw [hjson]
  case sessionSnapshots.sessionSnapshots id id' =>
    have hfilters := SnapshotFilters.jsonFields_injective (Json.obj.inj hjson)
    have hid : some id = some id' := congrArg SnapshotFilters.sessionId hfilters
    rw [Option.some.inj hid]
  case snapshotCaptures.snapshotCaptures id id' =>
    simp only [json, Json.obj.injEq, List.cons.injEq, Prod.mk.injEq, Json.str.injEq, true_and,
      and_true] at hjson
    rw [hjson]
  case captures.captures f g =>
    obtain rfl := CaptureFilters.jsonFields_injective (Json.obj.inj hjson)
    rfl
  case snapshots.snapshots f g =>
    obtain rfl := SnapshotFilters.jsonFields_injective (Json.obj.inj hjson)
    rfl
  case manifests.manifests id id' =>
    simp only [json, Json.obj.injEq, List.cons.injEq, Prod.mk.injEq, true_and, and_true] at hjson
    rw [optionJson_injective hjson]
  case artifacts.artifacts f g =>
    obtain rfl := ArtifactFilters.jsonFields_injective (Json.obj.inj hjson)
    rfl

/-! ## §2 — What `parse_page` accepts. -/

variable {c : Crates}

/-- A boundary the server would not have written is refused. -/
theorem validateBoundary_ok (hc : c.Rfc3339Reads) {b : SortBoundary}
    (h : validateBoundary c b = .ok ()) :
    b.Stamped c ∧ sortKeyFromRfc3339 c b.timestamp = some b.sortKey := by
  unfold validateBoundary normalizeTimestamp at h
  simp only [bind_eq_ok, throw_bind, ite_throw_eq_ok, okOr_eq_ok, not_not, not_or] at h
  obtain ⟨normalized, ⟨instant, hparse, inUtc, hutc, hformat⟩, rfl, key, hkey, hsortKey, id, hid,
    ⟨rfl, hversion⟩, -⟩ := h
  obtain ⟨-, rfl⟩ := OffsetDateTime.toUtc_eq_some.mp hutc
  have hreads := hc.parse_format _ _ hformat
  rw [hparse] at hreads
  have hinstant := Option.some.inj hreads
  have hsame : sortKeyFromRfc3339 c b.timestamp = some (sortKeyFromTimestamp instant) := by
    rw [sortKeyFromRfc3339, hparse, Option.map_some]
  rw [hsame] at hkey
  obtain rfl := Option.some.inj hkey
  refine ⟨⟨⟨instant.nanos, hformat, hsortKey⟩, hid, hversion⟩, ?_⟩
  rw [hsame, hsortKey]

/-- What an accepted cursor carries. -/
structure Accepted (c : Crates) (kind filterHash : String) (cursor : OpaqueCursor) : Prop where
  version : cursor.version = cursorVersion
  kind : cursor.kind = kind
  filterHash : cursor.filterHash = filterHash
  highWatermark : cursor.highWatermark.Stamped c
  after : cursor.after.Stamped c
  order : cursor.after.key ≤ cursor.highWatermark.key
  highWatermarkKey : sortKeyFromRfc3339 c cursor.highWatermark.timestamp =
    some cursor.highWatermark.sortKey
  afterKey : sortKeyFromRfc3339 c cursor.after.timestamp = some cursor.after.sortKey

/-- **`parsePage_ok`** — the limit is in range, and what was decoded from a cursor's text has been
checked. -/
theorem parsePage_ok (hc : c.Rfc3339Reads) {limit : Option ℕ} {text : Option String}
    {kind filterHash : String} {page : PageRequest}
    (h : parsePage c limit text kind filterHash = .ok page) :
    page.limit = limit.getD defaultPageLimit ∧ 1 ≤ page.limit ∧ page.limit ≤ maxPageLimit ∧
      (text = none ↔ page.cursor = none) ∧
      (∀ t, text = some t → ∃ cursor, page.cursor = some cursor ∧
        ∃ bytes, Lib.Base64.decode t = some bytes ∧
          (c.jsonFromSlice bytes).bind OpaqueCursor.fromJson = some cursor) ∧
      ∀ cursor, page.cursor = some cursor → Accepted c kind filterHash cursor := by
  unfold parsePage at h
  simp only [throw_bind, ite_throw_eq_ok, not_not] at h
  obtain ⟨⟨hlow, hhigh⟩, h⟩ := h
  cases text with
  | none =>
    obtain rfl := pure_eq_ok.mp h
    exact ⟨rfl, hlow, hhigh, by simp, by simp, by simp⟩
  | some t =>
    simp only [ite_throw_eq_ok, bind_eq_ok, okOr_eq_ok, not_or, not_not, pure_eq_ok] at h
    obtain ⟨-, bytes, hbytes, cursor, hcursor, ⟨hversion, hkind, hhash⟩, _, hhw, _, hafter, horder,
      rfl⟩ := h
    obtain ⟨hhwStamped, hhwKey⟩ := validateBoundary_ok hc hhw
    obtain ⟨hafterStamped, hafterKey⟩ := validateBoundary_ok hc hafter
    refine ⟨rfl, hlow, hhigh, by simp, ?_, ?_⟩
    · intro t' ht
      obtain rfl := Option.some.inj ht
      exact ⟨cursor, rfl, bytes, hbytes, hcursor⟩
    · intro cursor' heq
      obtain rfl := Option.some.inj heq
      exact ⟨hversion, hkind, hhash, hhwStamped, hafterStamped,
        (isAtOrBefore_iff _ _).mp horder, hhwKey, hafterKey⟩

/-! ## §3 — The next page of the same list. -/

variable {τ : Type} {rows : List (τ × SortBoundary)} {page : PageRequest}

/-- What the cursor of an answered page was made from. -/
theorem pageFromRows_cursor {kind filterHash next : String} {response : PaginatedResponse τ}
    (h : pageFromRows rows page kind filterHash = .ok response)
    (hnext : response.nextCursor = some next) :
    response.items = (rows.take page.limit).map Prod.fst ∧ ∃ highWatermark after,
      (page.cursor.map (·.highWatermark)).or (rows.head?.map Prod.snd) = some highWatermark ∧
      (rows.take page.limit).getLast?.map Prod.snd = some after ∧
      next = encodeCursor kind filterHash highWatermark after := by
  unfold pageFromRows at h
  by_cases hmore : page.limit < rows.length
  · simp only [hmore, decide_true, if_true, bind_eq_ok, okOr_eq_ok, pure_bind, pure_eq_ok] at h
    obtain ⟨after, hafter, highWatermark, hhw, rfl⟩ := h
    exact ⟨rfl, highWatermark, after, hhw, hafter, (Option.some.inj hnext).symm⟩
  · -- without another row there is no cursor
    simp only [hmore, decide_false, Bool.false_eq_true, if_false, pure_bind, pure_eq_ok] at h
    subst h
    exact absurd hnext (by simp)

/-- A row within the page's bounds is at or before the page's watermark. -/
theorem key_le_of_bounds {cursor : OpaqueCursor} (hcursor : page.cursor = some cursor)
    {b : SortBoundary} (h : descendingBounds page b.sortKey b.id = true) :
    b.key ≤ cursor.highWatermark.key := by
  rw [← isAtOrBefore_iff]
  unfold descendingBounds at h
  simp only [hcursor, Bool.and_eq_true] at h
  exact h.1

/-- The watermark of a page is stamped, and no row of the page is above it. -/
theorem watermark_of_page (hc : c.Rfc3339Reads) {kind filterHash : String} {limit : Option ℕ}
    {text : Option String} (hpage : parsePage c limit text kind filterHash = .ok page)
    (hdescending : rows.Pairwise fun a b => rowKey b < rowKey a)
    (hstamped : ∀ r ∈ rows, r.2.Stamped c)
    (hbounds : ∀ r ∈ rows, descendingBounds page r.2.sortKey r.2.id = true) {hw : SortBoundary}
    (h : (page.cursor.map (·.highWatermark)).or (rows.head?.map Prod.snd) = some hw) :
    hw.Stamped c ∧ ∀ r ∈ rows, r.2.key ≤ hw.key := by
  obtain ⟨-, -, -, -, -, haccepted⟩ := parsePage_ok hc hpage
  cases hcursor : page.cursor with
  | some cursor =>
    rw [hcursor] at h
    obtain rfl := Option.some.inj h
    exact ⟨(haccepted cursor hcursor).highWatermark,
      fun r hr => key_le_of_bounds hcursor (hbounds r hr)⟩
  | none =>
    rw [hcursor] at h
    cases rows with
    | nil => simp at h
    | cons first rest =>
      -- on a first page the watermark is the first row
      obtain rfl : first.2 = hw := by simpa using h
      refine ⟨hstamped first List.mem_cons_self, fun r hr => ?_⟩
      rcases List.mem_cons.mp hr with rfl | hrest
      · exact le_rfl
      · exact ((List.pairwise_cons.mp hdescending).1 r hrest).le

/-- **`parsePage_other`** — a cursor is no cursor of another list, unless the two digests
collide. -/
theorem parsePage_other {filters other : PageFilters} (hne : other ≠ filters)
    (hcollision : other.hash c = filters.hash c → other.document = filters.document)
    (hc : c.CursorReads) {hw after : SortBoundary} (hhw : hw.Stamped c) (hafter : after.Stamped c)
    (limit : Option ℕ) (page : PageRequest) :
    parsePage c limit (some (encodeCursor filters.kind (filters.hash c) hw after)) other.kind
      (other.hash c) ≠ .ok page := by
  intro h
  obtain ⟨-, -, -, -, hdecoded, haccepted⟩ := parsePage_ok hc.time h
  obtain ⟨cursor, hcursor, bytes, hbytes, hread⟩ := hdecoded _ rfl
  rw [encodeCursor, Lib.Base64.decode_encode] at hbytes
  obtain rfl := Option.some.inj hbytes
  have hversion : cursorVersion < 2 ^ 8 := by norm_num [cursorVersion]
  have hhwKey := sortKey_bounds hc.time hhw
  have hafterKey := sortKey_bounds hc.time hafter
  rw [hc.json.fromSlice _ (OpaqueCursor.toJson_readable hversion hhwKey hafterKey),
    Option.bind_some,
    OpaqueCursor.fromJson_toJson hversion hhwKey hafterKey] at hread
  obtain rfl := Option.some.inj hread
  have hhash : filters.hash c = other.hash c := (haccepted _ hcursor).filterHash
  exact hne (PageFilters.document_injective (hcollision hhash.symm))

/-- **`cursor_codec`** — the cursor an answered page carries leads back to the page's watermark and
its last row, for this list only; and whatever cursor is accepted names two rows in order, with the
keys of their timestamps. -/
theorem cursor_codec (c : Crates) (hc : c.CursorReads)
    (hhex : ∀ bytes, IsHexDigest (c.sha256Hex bytes)) :
    (∀ {τ : Type} (filters : PageFilters) (limit : Option ℕ) (text : Option String)
      (page : PageRequest) (rows : List (τ × SortBoundary)) (response : PaginatedResponse τ)
      (next : String),
      parsePage c limit text filters.kind (filters.hash c) = .ok page →
      rows.Pairwise (fun a b => rowKey b < rowKey a) → (∀ r ∈ rows, r.2.Stamped c) →
      (∀ r ∈ rows, descendingBounds page r.2.sortKey r.2.id = true) →
      pageFromRows rows page filters.kind (filters.hash c) = .ok response →
      response.nextCursor = some next →
      (∃ highWatermark after,
        (page.cursor.map (·.highWatermark)).or (rows.head?.map Prod.snd) = some highWatermark ∧
        (rows.take page.limit).getLast?.map Prod.snd = some after ∧
        response.items = (rows.take page.limit).map Prod.fst ∧
        ∀ limit' : Option ℕ, 1 ≤ limit'.getD defaultPageLimit →
          limit'.getD defaultPageLimit ≤ maxPageLimit →
          parsePage c limit' (some next) filters.kind (filters.hash c) =
            .ok ⟨limit'.getD defaultPageLimit,
              some ⟨cursorVersion, filters.kind, filters.hash c, highWatermark, after⟩⟩) ∧
      ∀ other : PageFilters, other ≠ filters →
        (other.hash c = filters.hash c → other.document = filters.document) →
        ∀ limit' page', parsePage c limit' (some next) other.kind (other.hash c) ≠ .ok page') ∧
    ∀ (limit : Option ℕ) (text kind filterHash : String) (page : PageRequest),
      parsePage c limit (some text) kind filterHash = .ok page →
      ∃ cursor, page.cursor = some cursor ∧ cursor.after.key ≤ cursor.highWatermark.key ∧
        sortKeyFromRfc3339 c cursor.highWatermark.timestamp = some cursor.highWatermark.sortKey ∧
        sortKeyFromRfc3339 c cursor.after.timestamp = some cursor.after.sortKey := by
  constructor
  · intro τ filters limit text page rows response next hpage hdescending hstamped hbounds hresponse
      hnext
    obtain ⟨hitems, hw, after, hhw, hafter, rfl⟩ := pageFromRows_cursor hresponse hnext
    obtain ⟨hhwStamped, hbelow⟩ :=
      watermark_of_page hc.time hpage hdescending hstamped hbounds hhw
    obtain ⟨r, hr, rfl⟩ := Option.map_eq_some_iff.mp hafter
    have hmem : r ∈ rows := List.mem_of_mem_take (List.mem_of_getLast? hr)
    have hafterStamped := hstamped r hmem
    refine ⟨⟨hw, r.2, hhw, hafter, hitems, fun limit' hlow hhigh => ?_⟩,
      fun other hne hcollision => ?_⟩
    · exact parsePage_encodeCursor hc.time hc.json filters.kind_mem (hhex _) hhwStamped
        hafterStamped (hbelow r hmem) ⟨hlow, hhigh⟩
    · exact parsePage_other hne hcollision hc hhwStamped hafterStamped
  · intro limit text kind filterHash page hpage
    obtain ⟨-, -, -, -, hdecoded, haccepted⟩ := parsePage_ok hc.time hpage
    obtain ⟨cursor, hcursor, -⟩ := hdecoded text rfl
    have h := haccepted cursor hcursor
    exact ⟨cursor, hcursor, h.order, h.highWatermarkKey, h.afterKey⟩

/-- The digests of the documents of two lists, `["tombstones",null]` and
`["manifests",{"session_id":null}]`. -/
def cursorDigests : List (Bytes × String) :=
  [(PageFilters.tombstones.document,
      "25c42595d7389f9e7048e56d5ce9ea9cfdc3a8130dec2a79ce9989ea8bbe859f"),
    ((PageFilters.manifests none).document,
      "333dfd7788ba08ba8c5ff7533403cd6a2767949a51e0304bfca8a63c2c018bdb")]

/-- Crates with these digests. -/
def cursorCrates : Crates :=
  { Crates.sample [] with sha256Hex := fun bytes => (cursorDigests.lookup bytes).getD emptyDigest }

/-- Two manifests, the newer first. -/
def cursorRows : List (String × SortBoundary) :=
  [("newer", ⟨1767225602000000, "2026-01-01T00:00:02Z", "019b76da-a800-7000-8000-000000000002"⟩),
    ("older", ⟨1767225601000000, "2026-01-01T00:00:01Z", "019b76da-a800-7000-8000-000000000001"⟩)]

theorem cursor_codec_sample :
    ∃ next, (pageFromRows cursorRows ⟨1, none⟩ (PageFilters.manifests none).kind
        ((PageFilters.manifests none).hash cursorCrates)).toOption.bind (·.nextCursor) = some next ∧
      (∃ page, parsePage cursorCrates none (some next) (PageFilters.manifests none).kind
        ((PageFilters.manifests none).hash cursorCrates) = .ok page) ∧
      ∀ page, parsePage cursorCrates none (some next) PageFilters.tombstones.kind
        (PageFilters.tombstones.hash cursorCrates) ≠ .ok page := by
  have hreads : cursorCrates.CursorReads :=
    ⟨{ parse_format := (Crates.sample_rfc3339Reads []).parse_format
       length_format := (Crates.sample_rfc3339Reads []).length_format
       chars_format := (Crates.sample_rfc3339Reads []).chars_format
       range_format := (Crates.sample_rfc3339Reads []).range_format },
      ⟨(Crates.sample_jsonReads []).fromSlice⟩⟩
  have hdigests : ∀ digest ∈ emptyDigest :: cursorDigests.map Prod.snd, digest.length = 64 ∧
      ∀ ch ∈ digest.toList, lowerHex ch = some ch := by
    decide +kernel
  have hhex : ∀ bytes, IsHexDigest (cursorCrates.sha256Hex bytes) := by
    intro bytes
    refine hdigests _ ?_
    show (cursorDigests.lookup bytes).getD emptyDigest ∈ _
    cases hfound : cursorDigests.lookup bytes with
    | none => exact List.mem_cons_self
    | some digest =>
        exact List.mem_cons_of_mem _ (List.mem_map_of_mem (Crates.mem_of_lookup hfound))
  have hstamped : ∀ r ∈ cursorRows, r.2.Stamped cursorCrates := by
    intro r hr
    have hall : ∀ r ∈ cursorRows, (∃ p ∈ Crates.sampleTimes,
        cursorCrates.formatRfc3339 (.utc p.1) = some r.2.timestamp ∧
          r.2.sortKey = sortKeyFromTimestamp (.utc p.1)) ∧ IsUuidV7 r.2.id := by decide +kernel
    obtain ⟨⟨p, -, hformat, hkey⟩, hid⟩ := hall r hr
    exact ⟨⟨p.1, hformat, hkey⟩, hid⟩
  have hnext : (pageFromRows cursorRows ⟨1, none⟩ (PageFilters.manifests none).kind
      ((PageFilters.manifests none).hash cursorCrates)).toOption.bind (·.nextCursor) ≠ none := by
    decide +kernel
  obtain ⟨next, hcursor⟩ := Option.ne_none_iff_exists'.mp hnext
  obtain ⟨response, hresponse, hresponseNext⟩ := Option.bind_eq_some_iff.mp hcursor
  have hok : pageFromRows cursorRows ⟨1, none⟩ (PageFilters.manifests none).kind
      ((PageFilters.manifests none).hash cursorCrates) = .ok response := by
    revert hresponse
    cases pageFromRows cursorRows ⟨1, none⟩ (PageFilters.manifests none).kind
      ((PageFilters.manifests none).hash cursorCrates) with
    | ok r => exact fun h => congrArg _ (Option.some.inj h)
    | error e => exact fun h => absurd h (by simp [Except.toOption])
  obtain ⟨⟨hw, after, -, -, -, haccepted⟩, hrejected⟩ :=
    (cursor_codec cursorCrates hreads hhex).1 (.manifests none) (some 1) none ⟨1, none⟩ cursorRows
      response next (by rfl) (by decide +kernel) hstamped (fun _ _ => rfl) hok hresponseNext
  refine ⟨next, hcursor, ⟨_, haccepted none (by decide) (by decide)⟩, ?_⟩
  exact hrejected .tombstones (by simp) (fun hhash => absurd hhash (by decide +kernel)) none

end Patwari
