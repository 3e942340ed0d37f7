/-
# Patwari.Filters — the queries behind three lists.

`list_sessions`, `query_snapshot_rows` and `list_captures` put a statement together in two chains of
conditionals, one for its text and one for the values bound to it. §1 gives the tables their columns
and the shared pieces of the chains, §2 to §4 the three statements as the source assembles them:
what the text says, which value each placeholder gets, and which rows are selected. §5 shows that
asking some capture of a snapshot about its context asks the snapshot itself.
-/
import Patwari.Cursors
import Patwari.Lib.Sql
import Patwari.Contexts

namespace Patwari

open Lib.Sql
open Lib (UniqueOn)

/-! ## §1 — Tables and cursor bounds. -/

def SessionRow.columns (r : SessionRow) : Row :=
  [("id", some (.text r.id)), ("source_agent", some (.text r.sourceAgent)),
    ("source_session_id", some (.text r.sourceSessionId)),
    ("created_at", some (.text r.createdAt)), ("updated_at", some (.text r.updatedAt))]

def SessionLatestContextRow.columns (r : SessionLatestContextRow) : Row :=
  [("session_id", some (.text r.sessionId)), ("snapshot_id", some (.text r.snapshotId)),
    ("completed_at", some (.text r.completedAt)),
    ("completed_at_seq", some (.int r.completedAtSeq)),
    ("source_agent", some (.text r.sourceAgent)), ("project", r.project.map .text),
    ("repository", r.repository.map .text), ("branch", r.branch.map .text),
    ("source_agent_version", r.sourceAgentVersion.map .text),
    ("artifact_set_version", some (.int r.artifactSetVersion))]

def SnapshotRow.columns (r : SnapshotRow) : Row :=
  [("id", some (.text r.id)), ("session_id", some (.text r.sessionId)),
    ("manifest_id", some (.text r.manifestId)), ("completed_at", some (.text r.completedAt)),
    ("completed_at_seq", some (.int r.completedAtSeq)), ("deleted_at", r.deletedAt.map .text)]

def ManifestRow.columns (r : ManifestRow) : Row :=
  [("id", some (.text r.id)), ("sha256", some (.text r.sha256))]

def CaptureRow.columns (r : CaptureRow) : Row :=
  [("id", some (.text r.id)), ("client_id", some (.text r.clientId)),
    ("session_id", some (.text r.sessionId)), ("snapshot_id", some (.text r.snapshotId)),
    ("manifest_id", some (.text r.manifestId)), ("project", r.project.map .text),
    ("repository", r.repository.map .text), ("branch", r.branch.map .text),
    ("source_agent_version", r.sourceAgentVersion.map .text),
    ("artifact_set_version", some (.int r.artifactSetVersion)),
    ("server_completed_at_seq", some (.int r.serverCompletedAtSeq))]

/-- The tables the three statements read, with the columns they name. -/
def Db.rows (db : Db) (table : String) : List Row :=
  match table with
  | "session_latest_context" => db.sessionLatestContext.map SessionLatestContextRow.columns
  | "sessions" => db.sessions.map SessionRow.columns
  | "snapshots" => db.snapshots.map SnapshotRow.columns
  | "manifests" => db.manifests.map ManifestRow.columns
  | "captures" => db.captures.map CaptureRow.columns
  | _ => []

/-- `append_descending_bounds`. -/
def appendDescendingBounds (sql sortKeyColumn idColumn : String) (page : PageRequest) : String :=
  if page.cursor.isSome then
    sql ++ " AND (" ++ sortKeyColumn ++ " < ? OR (" ++ sortKeyColumn ++ " = ? AND " ++ idColumn ++
      " <= ?))" ++ " AND (" ++ sortKeyColumn ++ " < ? OR (" ++ sortKeyColumn ++ " = ? AND " ++
      idColumn ++ " < ?))"
  else sql

/-- `bind_descending_bounds`. -/
def bindDescendingBounds (page : PageRequest) : List Value :=
  match page.cursor with
  | none => []
  | some cursor =>
    [.int cursor.highWatermark.sortKey, .int cursor.highWatermark.sortKey,
      .text cursor.highWatermark.id, .int cursor.after.sortKey, .int cursor.after.sortKey,
      .text cursor.after.id]

/-- `if filter.is_some() { sql.push_str(text) }`. -/
def push {α : Type} (filter : Option α) (text sql : String) : String :=
  if filter.isSome then sql ++ text else sql

/-- What the bounds say of a row. -/
def boundsConds (key id : Column) : List Cond :=
  [.or (.compare key .lt) (.and (.compare key .eq) (.compare id .le)),
    .or (.compare key .lt) (.and (.compare key .eq) (.compare id .lt))]

/-- The clause of the cursor. -/
def boundsClause (page : PageRequest) (key id : Column) : Clause where
  conds := if page.cursor.isSome then boundsConds key id else []
  values := bindDescendingBounds page
  fits := by
    unfold bindDescendingBounds
    cases page.cursor <;> rfl

section Clauses

variable {α : Type} {page : PageRequest} {tables : String → List Row} {env : Joined}

/-- A push adds the condition its text says. -/
theorem push_eq {filter : Option α} {text sql sql' : String} {cond : Cond} (hsql : sql = sql')
    (htext : text = " AND " ++ cond.render) :
    push filter text sql = sql' ++ renderAll (pushed filter cond) := by
  subst hsql
  cases filter with
  | none => exact String.append_empty.symm
  | some a =>
    show sql ++ text = sql ++ (" AND " ++ cond.render ++ "")
    rw [htext, String.append_empty]

theorem renderAll_boundsConds (key id : Column) : renderAll (boundsConds key id) =
    " AND (" ++ key.render ++ " < ? OR (" ++ key.render ++ " = ? AND " ++ id.render ++ " <= ?))" ++
      " AND (" ++ key.render ++ " < ? OR (" ++ key.render ++ " = ? AND " ++ id.render ++
      " < ?))" := by
  have hrender : renderAll (boundsConds key id) =
      " AND " ++ ("(" ++ (key.render ++ " " ++ "<" ++ " ?") ++ " OR (" ++
        (key.render ++ " " ++ "=" ++ " ?" ++ " AND " ++ (id.render ++ " " ++ "<=" ++ " ?")) ++
        "))") ++ (" AND " ++ ("(" ++ (key.render ++ " " ++ "<" ++ " ?") ++ " OR (" ++
        (key.render ++ " " ++ "=" ++ " ?" ++ " AND " ++ (id.render ++ " " ++ "<" ++ " ?")) ++
        "))") ++ "") := rfl
  rw [hrender, ← String.toList_inj]
  simp only [String.toList_append]
  simp

theorem appendDescendingBounds_eq {sql sql' sortKeyColumn idColumn : String} {key id : Column}
    (hsql : sql = sql') (hkey : sortKeyColumn = key.render) (hid : idColumn = id.render) :
    appendDescendingBounds sql sortKeyColumn idColumn page =
      sql' ++ renderAll (boundsClause page key id).conds := by
  subst hsql hkey hid
  show (if page.cursor.isSome then _ else _) =
    sql ++ renderAll (if page.cursor.isSome then boundsConds key id else [])
  split
  · rw [renderAll_boundsConds]
    simp only [String.append_assoc]
  · exact String.append_empty.symm

/-- The cursor's bounds as the list model has them. -/
theorem holdsAll_boundsClause {key id : Column} {k : ℤ} {i : String}
    (hkey : key.value env = some (.int k)) (hid : id.value env = some (.text i)) :
    holdsAll tables env (boundsClause page key id).conds (boundsClause page key id).values =
      descendingBounds page k i := by
  show holdsAll tables env (if page.cursor.isSome then boundsConds key id else [])
    (bindDescendingBounds page) = _
  unfold bindDescendingBounds descendingBounds
  cases page.cursor with
  | none => rfl
  | some cursor =>
    simp only [Option.isSome_some, if_true, boundsConds, holdsAll, Cond.holds, Cond.placeholders,
      List.drop_succ_cons, List.drop_zero, hkey, hid, Option.any_some, Op.compare, Value.less,
      Value.int.injEq, Value.text.injEq, Bool.and_true]
    have hle : (decide (i < cursor.highWatermark.id) || decide (i = cursor.highWatermark.id)) =
        decide (i ≤ cursor.highWatermark.id) := by
      rw [← Bool.decide_or, decide_eq_decide]
      exact le_iff_lt_or_eq.symm
    rw [hle]

/-- Each of its placeholders gets the key or the identifier it is compared with. -/
def boundsAssigned (page : PageRequest) (key id : Column) : List (Column × Op × Value) :=
  page.cursor.toList.flatMap fun cursor =>
    [(key, .lt, .int cursor.highWatermark.sortKey), (key, .eq, .int cursor.highWatermark.sortKey),
      (id, .le, .text cursor.highWatermark.id), (key, .lt, .int cursor.after.sortKey),
      (key, .eq, .int cursor.after.sortKey), (id, .lt, .text cursor.after.id)]

theorem assignedAll_boundsClause (key id : Column) :
    assignedAll (boundsClause page key id).conds (boundsClause page key id).values =
      boundsAssigned page key id := by
  show assignedAll (if page.cursor.isSome then boundsConds key id else [])
    (bindDescendingBounds page) = _
  unfold bindDescendingBounds boundsAssigned
  cases page.cursor <;> rfl

/-- A filter on a text column. -/
theorem all_text {filter column : Option String} {w : Option Value} (h : w = column.map .text) :
    (filter.all fun a => w.any fun v => Op.eq.compare v (.text a)) =
      passesNullable filter column := by
  subst h
  cases filter <;> cases column <;> simp [passesNullable, Op.compare, eq_comm]

/-- The same for a column that is never `NULL`. -/
theorem all_text_some {filter : Option String} {column : String} {w : Option Value}
    (h : w = some (.text column)) :
    (filter.all fun a => w.any fun v => Op.eq.compare v (.text a)) = passes filter column := by
  subst h
  cases filter <;> simp [passes, Op.compare, eq_comm]

theorem all_version {filter : Option UInt16} {column : ℤ} {w : Option Value}
    (h : w = some (.int column)) :
    (filter.all fun a => w.any fun v => Op.eq.compare v (.int a.toNat)) =
      passes (filter.map fun v => (v.toNat : ℤ)) column := by
  subst h
  cases filter <;> simp [passes, Op.compare, eq_comm]

theorem all_from {filter : Option ℤ} {column : ℤ} {w : Option Value}
    (h : w = some (.int column)) :
    (filter.all fun a => w.any fun v => Op.ge.compare v (.int a)) =
      filter.all fun lo => decide (lo ≤ column) := by
  subst h
  cases filter with
  | none => rfl
  | some lo =>
    show (decide (lo < column) || decide (Value.int column = .int lo)) = decide (lo ≤ column)
    rw [← Bool.decide_or, decide_eq_decide, Value.int.injEq, eq_comm]
    exact le_iff_lt_or_eq.symm

theorem all_to {filter : Option ℤ} {column : ℤ} {w : Option Value} (h : w = some (.int column)) :
    (filter.all fun a => w.any fun v => Op.le.compare v (.int a)) =
      filter.all fun hi => decide (column ≤ hi) := by
  subst h
  cases filter with
  | none => rfl
  | some hi =>
    show (decide (column < hi) || decide (Value.int column = .int hi)) = decide (column ≤ hi)
    rw [← Bool.decide_or, decide_eq_decide, Value.int.injEq]
    exact le_iff_lt_or_eq.symm

end Clauses

/-- A join on a unique key is a lookup. -/
theorem filter_key_eq_find {ρ κ : Type} [DecidableEq κ] {key : ρ → κ} {rows : List ρ}
    (h : UniqueOn key rows) (k : κ) : (rows.filter fun r => decide (key r = k)) =
      (rows.find? fun r => decide (key r = k)).toList := by
  cases hfound : rows.find? fun r => decide (key r = k) with
  | none =>
    rw [Option.toList_none, List.filter_eq_nil_iff]
    exact List.find?_eq_none.mp hfound
  | some r =>
    have hkey : key r = k := by simpa using List.find?_some hfound
    rw [← hkey]
    exact filter_key_eq_singleton h (List.mem_of_find?_eq_some hfound)

/-! ## §2 — `list_sessions`. -/

section Sessions

variable (f : SessionFilters) (page : PageRequest)

def sessionColumnsSql : String :=
  "SELECT s.id AS session_id, s.source_agent, s.source_session_id, s.created_at, s.updated_at, " ++
    "p.snapshot_id, p.completed_at, p.completed_at_seq, p.project, p.repository, p.branch, " ++
    "p.source_agent_version, p.artifact_set_version "

/-- The text `list_sessions` builds, line breaks aside. -/
def listSessionsSql : String :=
  let sql := sessionColumnsSql ++
    ("FROM session_latest_context p JOIN sessions s ON s.id = p.session_id " ++
      "JOIN snapshots snapshot ON snapshot.id = p.snapshot_id WHERE snapshot.deleted_at IS NULL")
  let sql := push f.sourceAgent " AND p.source_agent = ?" sql
  let sql := push f.repository " AND p.repository = ?" sql
  let sql := push f.project " AND p.project = ?" sql
  let sql := push f.branch " AND p.branch = ?" sql
  let sql := push f.sourceAgentVersion " AND p.source_agent_version = ?" sql
  let sql := push f.artifactSetVersion " AND p.artifact_set_version = ?" sql
  let sql := push f.clientId (" AND EXISTS (SELECT 1 FROM captures client_capture WHERE " ++
    "client_capture.snapshot_id = p.snapshot_id AND client_capture.client_id = ?)") sql
  let sql := push f.activityFrom " AND p.completed_at_seq >= ?" sql
  let sql := push f.activityTo " AND p.completed_at_seq <= ?" sql
  let sql := appendDescendingBounds sql "p.completed_at_seq" "p.session_id" page
  sql ++ " ORDER BY p.completed_at_seq DESC, p.session_id DESC LIMIT ?"

/-- The values it binds. -/
def listSessionsBinds : List Value :=
  bound f.sourceAgent .text ++ bound f.repository .text ++ bound f.project .text ++
    bound f.branch .text ++ bound f.sourceAgentVersion .text ++
    bound f.artifactSetVersion (fun value => .int value.toNat) ++ bound f.clientId .text ++
    bound f.activityFrom .int ++ bound f.activityTo .int ++ bindDescendingBounds page ++
    [.int (page.limit + 1)]

/-- The links of the two chains. -/
def sessionClauses : List Clause :=
  [.filter f.sourceAgent (.compare ⟨"p", "source_agent"⟩ .eq) .text (by decide),
    .filter f.repository (.compare ⟨"p", "repository"⟩ .eq) .text (by decide),
    .filter f.project (.compare ⟨"p", "project"⟩ .eq) .text (by decide),
    .filter f.branch (.compare ⟨"p", "branch"⟩ .eq) .text (by decide),
    .filter f.sourceAgentVersion (.compare ⟨"p", "source_agent_version"⟩ .eq) .text (by decide),
    .filter f.artifactSetVersion (.compare ⟨"p", "artifact_set_version"⟩ .eq)
      (fun value => .int value.toNat) (by decide),
    .filter f.clientId (.exists "captures" "client_capture"
      (.and (.same ⟨"client_capture", "snapshot_id"⟩ ⟨"p", "snapshot_id"⟩)
        (.compare ⟨"client_capture", "client_id"⟩ .eq))) .text (by decide),
    .filter f.activityFrom (.compare ⟨"p", "completed_at_seq"⟩ .ge) .int (by decide),
    .filter f.activityTo (.compare ⟨"p", "completed_at_seq"⟩ .le) .int (by decide),
    boundsClause page ⟨"p", "completed_at_seq"⟩ ⟨"p", "session_id"⟩]

def sessionSelect : Select where
  first := ("session_latest_context", "p")
  joins := [("sessions", "s", .same ⟨"s", "id"⟩ ⟨"p", "session_id"⟩),
    ("snapshots", "snapshot", .same ⟨"snapshot", "id"⟩ ⟨"p", "snapshot_id"⟩)]
  base := .null ⟨"snapshot", "deleted_at"⟩
  conds := Clause.textAll (sessionClauses f page)

theorem listSessionsSql_eq : listSessionsSql f page =
    sessionColumnsSql ++ (sessionSelect f page).render ++
      " ORDER BY p.completed_at_seq DESC, p.session_id DESC LIMIT ?" := by
  unfold Select.render
  rw [← String.append_assoc, sessionSelect, ← Clause.foldl_render]
  simp only [sessionClauses, List.foldl_cons, List.foldl_nil, Clause.filter]
  refine congrArg (· ++ _) (appendDescendingBounds_eq ?_ (by decide +kernel) (by decide +kernel))
  iterate 9 refine push_eq ?_ (by decide +kernel)
  decide +kernel

theorem listSessionsBinds_eq : listSessionsBinds f page =
    Clause.valuesAll (sessionClauses f page) ++ [.int (page.limit + 1)] := by
  unfold listSessionsBinds Clause.valuesAll sessionClauses Clause.filter boundsClause
  simp only [List.flatMap_cons, List.flatMap_nil, List.append_nil, List.append_assoc]

/-- What each placeholder of the statement is compared with. -/
def sessionAssigned : List (Column × Op × Value) :=
  given f.sourceAgent ⟨"p", "source_agent"⟩ .eq .text ++
    given f.repository ⟨"p", "repository"⟩ .eq .text ++
    given f.project ⟨"p", "project"⟩ .eq .text ++
    given f.branch ⟨"p", "branch"⟩ .eq .text ++
    given f.sourceAgentVersion ⟨"p", "source_agent_version"⟩ .eq .text ++
    given f.artifactSetVersion ⟨"p", "artifact_set_version"⟩ .eq (fun v => .int v.toNat) ++
    given f.clientId ⟨"client_capture", "client_id"⟩ .eq .text ++
    given f.activityFrom ⟨"p", "completed_at_seq"⟩ .ge .int ++
    given f.activityTo ⟨"p", "completed_at_seq"⟩ .le .int ++
    boundsAssigned page ⟨"p", "completed_at_seq"⟩ ⟨"p", "session_id"⟩

theorem assigned_sessions :
    assignedAll (sessionSelect f page).conds (Clause.valuesAll (sessionClauses f page)) =
      sessionAssigned f page := by
  show assignedAll (Clause.textAll _) _ = _
  rw [Clause.assigned_all]
  simp only [sessionClauses, List.flatMap_cons, List.flatMap_nil, Clause.assignedAll_filter,
    assignedAll_boundsClause, List.append_nil, sessionAssigned, List.append_assoc]
  simp only [given, Cond.assigned, List.head?_cons, Option.toList_some, List.map_cons, List.map_nil,
    List.nil_append, Cond.placeholders, List.drop_zero, ← List.map_eq_flatMap]

/-- The rows of the join, before any filter. -/
def Db.sessionJoin (db : Db) : List (SessionLatestContextRow × SessionRow × SnapshotRow) :=
  db.sessionLatestContext.flatMap fun p =>
    (db.sessions.filter fun s => decide (s.id = p.sessionId)).flatMap fun s =>
      (db.snapshots.filter fun r => decide (r.id = p.snapshotId)).map fun r => (p, s, r)

/-- The same rows under their names in the statement. -/
def joinedSession (x : SessionLatestContextRow × SessionRow × SnapshotRow) : Joined :=
  [("snapshot", x.2.2.columns), ("s", x.2.1.columns), ("p", x.1.columns)]

/-- A live session under all the filters, and within the page's bounds. -/
def SessionFilters.selects (db : Db)
    (x : SessionLatestContextRow × SessionRow × SnapshotRow) : Bool :=
  x.2.2.live && f.contextPasses x.1 &&
    (f.clientId.isNone || db.captures.any fun r =>
      decide (r.snapshotId = x.1.snapshotId) && passes f.clientId r.clientId) &&
    descendingBounds page x.1.completedAtSeq x.1.sessionId

theorem run_sessions (db : Db) :
    (sessionSelect f page).run db.rows (Clause.valuesAll (sessionClauses f page)) =
      (db.sessionJoin.filter (f.selects page db)).map joinedSession := by
  have hsession (p : SessionLatestContextRow) (s : SessionRow) :
      (Cond.same ⟨"s", "id"⟩ ⟨"p", "session_id"⟩).holds db.rows
        [("s", s.columns), ("p", p.columns)] [] = decide (s.id = p.sessionId) := by
    simp [Cond.holds, Column.value, List.lookup_cons, SessionRow.columns,
      SessionLatestContextRow.columns]
  have hsnapshot (p : SessionLatestContextRow) (s : SessionRow) (r : SnapshotRow) :
      (Cond.same ⟨"snapshot", "id"⟩ ⟨"p", "snapshot_id"⟩).holds db.rows
        [("snapshot", r.columns), ("s", s.columns), ("p", p.columns)] [] =
        decide (r.id = p.snapshotId) := by
    simp [Cond.holds, Column.value, List.lookup_cons, SnapshotRow.columns,
      SessionLatestContextRow.columns]
  refine Select.run_typed db.sessionLatestContext rfl ?_ fun x => ?_
  · unfold Db.sessionJoin
    rw [List.map_flatMap]
    refine List.flatMap_congr fun p _ => ?_
    refine (Select.joined_table db.sessions (by rfl) (hsession p)).trans ?_
    rw [List.map_flatMap]
    refine List.flatMap_congr fun s _ => ?_
    refine (Select.joined_table db.snapshots (by rfl) (hsnapshot p s)).trans ?_
    rw [List.map_map]
    exact List.map_eq_flatMap.symm
  · obtain ⟨p, s, r⟩ := x
    have hvalue (name : String) : Column.value ⟨"p", name⟩ (joinedSession (p, s, r)) =
        (p.columns.lookup name).join := by
      simp [Column.value, joinedSession, List.lookup_cons]
    have hlive : (Cond.null ⟨"snapshot", "deleted_at"⟩).holds db.rows (joinedSession (p, s, r)) [] =
        r.live := by
      simp [Cond.holds, Column.value, joinedSession, List.lookup_cons, SnapshotRow.columns,
        SnapshotRow.live]
    have hbounds : holdsAll db.rows (joinedSession (p, s, r))
        (boundsClause page ⟨"p", "completed_at_seq"⟩ ⟨"p", "session_id"⟩).conds
        (boundsClause page ⟨"p", "completed_at_seq"⟩ ⟨"p", "session_id"⟩).values =
        descendingBounds page p.completedAtSeq p.sessionId :=
      holdsAll_boundsClause (by rw [hvalue]; rfl) (by rw [hvalue]; rfl)
    show ((Cond.null _).holds _ _ _ && holdsAll _ _ (Clause.textAll _) _) = _
    rw [Clause.holds_all, hlive]
    simp only [sessionClauses, List.all_cons, List.all_nil, Clause.holdsAll_filter, hbounds,
      Cond.holds_compare, hvalue]
    have hclient : (f.clientId.all fun a => (Cond.exists "captures" "client_capture"
        (.and (.same ⟨"client_capture", "snapshot_id"⟩ ⟨"p", "snapshot_id"⟩)
          (.compare ⟨"client_capture", "client_id"⟩ .eq))).holds db.rows (joinedSession (p, s, r))
          [.text a]) = (f.clientId.isNone || db.captures.any fun r =>
            decide (r.snapshotId = p.snapshotId) && passes f.clientId r.clientId) := by
      cases f.clientId with
      | none => rfl
      | some a =>
        show ((db.captures.map CaptureRow.columns).any _) = _
        rw [List.any_map]
        refine congrArg _ (funext fun capture => ?_)
        simp [Cond.holds, Column.value, joinedSession, List.lookup_cons, CaptureRow.columns,
          Cond.placeholders,
          SessionLatestContextRow.columns, Op.compare, passes, eq_comm]
    rw [hclient,
      all_text_some (show (p.columns.lookup "source_agent").join =
        some (.text p.sourceAgent) from rfl),
      all_text (show (p.columns.lookup "repository").join = p.repository.map .text from rfl),
      all_text (show (p.columns.lookup "project").join = p.project.map .text from rfl),
      all_text (show (p.columns.lookup "branch").join = p.branch.map .text from rfl),
      all_text (show (p.columns.lookup "source_agent_version").join =
        p.sourceAgentVersion.map .text from rfl),
      all_version (show (p.columns.lookup "artifact_set_version").join =
        some (.int p.artifactSetVersion) from rfl),
      all_from (show (p.columns.lookup "completed_at_seq").join = some (.int p.completedAtSeq)
        from rfl),
      all_to (show (p.columns.lookup "completed_at_seq").join = some (.int p.completedAtSeq)
        from rfl)]
    unfold SessionFilters.selects SessionFilters.contextPasses SessionFilters.activity
    ac_rfl

/-- The list of the model holds the rows the statement selects. -/
theorem sessionListRows_eq {db : Db} (hunique : db.Unique) :
    ((db.sessionJoin.filter (f.selects page db)).map fun x => (⟨x.1, x.2.1⟩ : SessionListRow)) =
      (db.sessionListRows f).filter fun row =>
        descendingBounds page row.boundary.sortKey row.boundary.id := by
  unfold Db.sessionJoin Db.sessionListRows
  rw [List.filter_flatMap, List.map_flatMap, List.filter_filterMap, List.filterMap_filter,
    List.filterMap_eq_flatMap_toList]
  refine List.flatMap_congr fun p _ => ?_
  rw [filter_key_eq_find hunique.sessions, filter_key_eq_find hunique.snapshots]
  show List.map _ (List.filter _ ((db.session p.sessionId).toList.flatMap fun s =>
    (db.snapshot p.snapshotId).toList.map fun r => (p, s, r))) = _
  generalize hshown : (f.contextPasses p && (f.clientId.isNone || db.captures.any fun r =>
    decide (r.snapshotId = p.snapshotId) && passes f.clientId r.clientId)) = shown
  cases db.session p.sessionId with
  | none => cases shown <;> rfl
  | some s =>
    cases db.snapshot p.snapshotId with
    | none => cases shown <;> rfl
    | some r =>
      have hselects : f.selects page db (p, s, r) =
          (r.live && shown && descendingBounds page p.completedAtSeq p.sessionId) := by
        rw [← hshown]
        unfold SessionFilters.selects
        ac_rfl
      show List.map _ (List.filter _ [(p, s, r)]) = Option.toList (if shown then
        (if r.live then some ⟨p, s⟩ else none : Option SessionListRow).filter _ else none)
      cases hlive : r.live <;> cases shown <;>
        cases hbounds : descendingBounds page p.completedAtSeq p.sessionId <;>
        simp [hselects, hlive, hbounds, SessionListRow.boundary, Option.filter]

end Sessions

/-! ## §3 — `query_snapshot_rows`. -/

section Snapshots

variable (f : SnapshotFilters) (page : PageRequest)

def snapshotColumnsSql : String :=
  "SELECT s.id, s.session_id, s.fingerprint_sha256, m.id AS manifest_id, " ++
    "m.sha256 AS manifest_sha256, s.completed_at, s.completed_at_seq, s.artifact_count, " ++
    "s.total_original_size_bytes, s.total_stored_size_bytes, " ++
    "(SELECT COUNT(*) FROM captures c WHERE c.snapshot_id = s.id) AS capture_count "

/-- The conditions on one capture, in the order they are pushed. -/
def pushCaptureContext (f : SessionFilters) (sql : String) : String :=
  let sql := push f.repository " AND capture_context.repository = ?" sql
  let sql := push f.project " AND capture_context.project = ?" sql
  let sql := push f.branch " AND capture_context.branch = ?" sql
  let sql := push f.sourceAgentVersion " AND capture_context.source_agent_version = ?" sql
  let sql := push f.artifactSetVersion " AND capture_context.artifact_set_version = ?" sql
  push f.clientId " AND capture_context.client_id = ?" sql

/-- The text `query_snapshot_rows` builds, line breaks aside. -/
def querySnapshotRowsSql : String :=
  let sql := snapshotColumnsSql ++ ("FROM snapshots s JOIN manifests m ON m.id = s.manifest_id " ++
    "JOIN sessions session ON session.id = s.session_id WHERE s.deleted_at IS NULL")
  let sql := push f.sessionId " AND s.session_id = ?" sql
  let sql := push f.sourceAgent " AND session.source_agent = ?" sql
  let sql :=
    if f.hasCaptureContext then
      pushCaptureContext f.toSessionFilters (sql ++ (" AND EXISTS (SELECT 1 FROM captures " ++
        "capture_context WHERE capture_context.snapshot_id = s.id")) ++ ")"
    else sql
  let sql := push f.activityFrom " AND s.completed_at_seq >= ?" sql
  let sql := push f.activityTo " AND s.completed_at_seq <= ?" sql
  let sql := appendDescendingBounds sql "s.completed_at_seq" "s.id" page
  sql ++ " ORDER BY s.completed_at_seq DESC, s.id DESC LIMIT ?"

/-- The values it binds. -/
def querySnapshotRowsBinds : List Value :=
  bound f.sessionId .text ++ bound f.sourceAgent .text ++ bound f.repository .text ++
    bound f.project .text ++ bound f.branch .text ++ bound f.sourceAgentVersion .text ++
    bound f.artifactSetVersion (fun value => .int value.toNat) ++ bound f.clientId .text ++
    bound f.activityFrom .int ++ bound f.activityTo .int ++ bindDescendingBounds page ++
    [.int (page.limit + 1)]

/-- The links inside the condition on a capture. -/
def contextClauses (f : SessionFilters) : List Clause :=
  [.filter f.repository (.compare ⟨"capture_context", "repository"⟩ .eq) .text (by decide),
    .filter f.project (.compare ⟨"capture_context", "project"⟩ .eq) .text (by decide),
    .filter f.branch (.compare ⟨"capture_context", "branch"⟩ .eq) .text (by decide),
    .filter f.sourceAgentVersion (.compare ⟨"capture_context", "source_agent_version"⟩ .eq) .text
      (by decide),
    .filter f.artifactSetVersion (.compare ⟨"capture_context", "artifact_set_version"⟩ .eq)
      (fun value => .int value.toNat) (by decide),
    .filter f.clientId (.compare ⟨"capture_context", "client_id"⟩ .eq) .text (by decide)]

/-- Some capture of the snapshot is as the filters say. -/
def captureContext (f : SessionFilters) : Cond :=
  .exists "captures" "capture_context" (Cond.all
    (.same ⟨"capture_context", "snapshot_id"⟩ ⟨"s", "id"⟩) (Clause.textAll (contextClauses f)))

def contextClause (f : SessionFilters) : Clause where
  conds := if f.hasCaptureContext then [captureContext f] else []
  values := Clause.valuesAll (contextClauses f)
  fits := by
    split
    · rw [Clause.fits_all]
      show _ = (captureContext f).placeholders + 0
      rw [captureContext, Cond.placeholders, Cond.placeholders_all]
      simp [Cond.placeholders]
    · next hnone =>
      -- without a filter on captures nothing is bound for one
      obtain ⟨_, repository, project, branch, version, set, client, _, _⟩ := f
      cases repository <;> cases project <;> cases branch <;> cases version <;> cases set <;>
        cases client <;> first | rfl | exact absurd rfl hnone

def snapshotClauses : List Clause :=
  [.filter f.sessionId (.compare ⟨"s", "session_id"⟩ .eq) .text (by decide),
    .filter f.sourceAgent (.compare ⟨"session", "source_agent"⟩ .eq) .text (by decide),
    contextClause f.toSessionFilters,
    .filter f.activityFrom (.compare ⟨"s", "completed_at_seq"⟩ .ge) .int (by decide),
    .filter f.activityTo (.compare ⟨"s", "completed_at_seq"⟩ .le) .int (by decide),
    boundsClause page ⟨"s", "completed_at_seq"⟩ ⟨"s", "id"⟩]

def snapshotSelect : Select where
  first := ("snapshots", "s")
  joins := [("manifests", "m", .same ⟨"m", "id"⟩ ⟨"s", "manifest_id"⟩),
    ("sessions", "session", .same ⟨"session", "id"⟩ ⟨"s", "session_id"⟩)]
  base := .null ⟨"s", "deleted_at"⟩
  conds := Clause.textAll (snapshotClauses f page)

theorem pushCaptureContext_eq (f : SessionFilters) (sql : String) :
    pushCaptureContext f sql = sql ++ renderAll (Clause.textAll (contextClauses f)) := by
  rw [← Clause.foldl_render]
  simp only [contextClauses, List.foldl_cons, List.foldl_nil, Clause.filter]
  iterate 6 refine push_eq ?_ (by decide +kernel)
  rfl

/-- The nested condition is pushed in pieces, and closed behind the last. -/
theorem contextClause_text {f : SessionFilters} {sql sql' : String} (hsql : sql = sql') :
    (if f.hasCaptureContext then
      pushCaptureContext f (sql ++ (" AND EXISTS (SELECT 1 FROM captures " ++
        "capture_context WHERE capture_context.snapshot_id = s.id")) ++ ")"
    else sql) = sql' ++ renderAll (contextClause f).conds := by
  subst hsql
  show _ = sql ++ renderAll (if f.hasCaptureContext then [captureContext f] else [])
  split
  · have hopen : " AND EXISTS (SELECT 1 FROM captures " ++
        "capture_context WHERE capture_context.snapshot_id = s.id" = " AND " ++
          ("EXISTS (SELECT 1 FROM " ++ "captures" ++ " " ++
        "capture_context" ++ " WHERE ") ++
        (Cond.same ⟨"capture_context", "snapshot_id"⟩ ⟨"s", "id"⟩).render := by decide +kernel
    have hrender : renderAll [captureContext f] = " AND " ++ ("EXISTS (SELECT 1 FROM " ++
        "captures" ++ " " ++ "capture_context" ++ " WHERE " ++ (Cond.all
          (.same ⟨"capture_context", "snapshot_id"⟩ ⟨"s", "id"⟩)
          (Clause.textAll (contextClauses f))).render ++ ")") ++ "" := rfl
    rw [hrender, Cond.render_all, pushCaptureContext_eq, hopen, String.append_empty]
    simp only [String.append_assoc]
  · exact String.append_empty.symm

theorem querySnapshotRowsSql_eq : querySnapshotRowsSql f page =
    snapshotColumnsSql ++ (snapshotSelect f page).render ++
      " ORDER BY s.completed_at_seq DESC, s.id DESC LIMIT ?" := by
  unfold Select.render
  rw [← String.append_assoc, snapshotSelect, ← Clause.foldl_render]
  simp only [snapshotClauses, List.foldl_cons, List.foldl_nil, Clause.filter]
  refine congrArg (· ++ _) (appendDescendingBounds_eq ?_ (by decide +kernel) (by decide +kernel))
  iterate 2 refine push_eq ?_ (by decide +kernel)
  refine contextClause_text ?_
  iterate 2 refine push_eq ?_ (by decide +kernel)
  decide +kernel

theorem querySnapshotRowsBinds_eq : querySnapshotRowsBinds f page =
    Clause.valuesAll (snapshotClauses f page) ++ [.int (page.limit + 1)] := by
  unfold querySnapshotRowsBinds Clause.valuesAll snapshotClauses contextClause Clause.filter
    boundsClause Clause.valuesAll contextClauses Clause.filter
  simp only [List.flatMap_cons, List.flatMap_nil, List.append_nil, List.append_assoc]

/-- What each placeholder of the statement is compared with. -/
def snapshotAssigned : List (Column × Op × Value) :=
  given f.sessionId ⟨"s", "session_id"⟩ .eq .text ++
    given f.sourceAgent ⟨"session", "source_agent"⟩ .eq .text ++
    given f.repository ⟨"capture_context", "repository"⟩ .eq .text ++
    given f.project ⟨"capture_context", "project"⟩ .eq .text ++
    given f.branch ⟨"capture_context", "branch"⟩ .eq .text ++
    given f.sourceAgentVersion ⟨"capture_context", "source_agent_version"⟩ .eq .text ++
    given f.artifactSetVersion ⟨"capture_context", "artifact_set_version"⟩ .eq
      (fun v => .int v.toNat) ++
    given f.clientId ⟨"capture_context", "client_id"⟩ .eq .text ++
    given f.activityFrom ⟨"s", "completed_at_seq"⟩ .ge .int ++
    given f.activityTo ⟨"s", "completed_at_seq"⟩ .le .int ++
    boundsAssigned page ⟨"s", "completed_at_seq"⟩ ⟨"s", "id"⟩

/-- The condition on a capture, when it is there, passes its values on. -/
theorem assignedAll_contextClause (f : SessionFilters) :
    assignedAll (contextClause f).conds (contextClause f).values =
      (contextClauses f).flatMap fun clause => assignedAll clause.conds clause.values := by
  show assignedAll (if f.hasCaptureContext then [captureContext f] else [])
    (Clause.valuesAll (contextClauses f)) = _
  rw [← Clause.assigned_all]
  split
  · show (captureContext f).assigned _ ++ [] = _
    rw [List.append_nil, captureContext, Cond.assigned, Cond.assigned_all]
    rfl
  · next hnone =>
    obtain ⟨_, repository, project, branch, version, set, client, _, _⟩ := f
    cases repository <;> cases project <;> cases branch <;> cases version <;> cases set <;>
      cases client <;> first | rfl | exact absurd rfl hnone

theorem assigned_snapshots :
    assignedAll (snapshotSelect f page).conds (Clause.valuesAll (snapshotClauses f page)) =
      snapshotAssigned f page := by
  show assignedAll (Clause.textAll _) _ = _
  rw [Clause.assigned_all]
  simp only [snapshotClauses, contextClauses, List.flatMap_cons, List.flatMap_nil,
    Clause.assignedAll_filter, assignedAll_contextClause, assignedAll_boundsClause,
    List.append_nil, snapshotAssigned, List.append_assoc]
  simp only [given, Cond.assigned, List.head?_cons, Option.toList_some, List.map_cons, List.map_nil,
    ← List.map_eq_flatMap]

/-- The rows of the join, before any filter. -/
def Db.snapshotJoin (db : Db) : List (SnapshotRow × ManifestRow × SessionRow) :=
  db.snapshots.flatMap fun s =>
    (db.manifests.filter fun m => decide (m.id = s.manifestId)).flatMap fun m =>
      (db.sessions.filter fun x => decide (x.id = s.sessionId)).map fun x => (s, m, x)

/-- The same rows under their names in the statement. -/
def joinedSnapshot (x : SnapshotRow × ManifestRow × SessionRow) : Joined :=
  [("session", x.2.2.columns), ("m", x.2.1.columns), ("s", x.1.columns)]

/-- A live snapshot under all the filters, and within the page's bounds. -/
def SnapshotFilters.selects (db : Db) (x : SnapshotRow × ManifestRow × SessionRow) : Bool :=
  x.1.live && passes f.sessionId x.1.sessionId && passes f.sourceAgent x.2.2.sourceAgent &&
    (!f.hasCaptureContext || db.captures.any fun r =>
      decide (r.snapshotId = x.1.id) && f.capturePasses r) &&
    f.activity x.1.completedAtSeq && descendingBounds page x.1.completedAtSeq x.1.id

/-- What the condition on a capture says of one. -/
theorem holdsAll_contextClauses {tables : String → List Row} {env : Joined} (f : SessionFilters)
    (r : CaptureRow) : holdsAll tables (("capture_context", r.columns) :: env)
      (Clause.textAll (contextClauses f)) (Clause.valuesAll (contextClauses f)) =
        f.capturePasses r := by
  have hvalue (name : String) : Column.value ⟨"capture_context", name⟩
      (("capture_context", r.columns) :: env) = (r.columns.lookup name).join := by
    simp [Column.value]
  rw [Clause.holds_all]
  simp only [contextClauses, List.all_cons, List.all_nil, Clause.holdsAll_filter,
    Cond.holds_compare, hvalue]
  rw [all_text (show (r.columns.lookup "repository").join = r.repository.map .text from rfl),
    all_text (show (r.columns.lookup "project").join = r.project.map .text from rfl),
    all_text (show (r.columns.lookup "branch").join = r.branch.map .text from rfl),
    all_text (show (r.columns.lookup "source_agent_version").join =
      r.sourceAgentVersion.map .text from rfl),
    all_version (show (r.columns.lookup "artifact_set_version").join =
      some (.int r.artifactSetVersion) from rfl),
    all_text_some (show (r.columns.lookup "client_id").join = some (.text r.clientId) from rfl)]
  unfold SessionFilters.capturePasses
  ac_rfl

theorem holdsAll_contextClause {db : Db} {x : SnapshotRow × ManifestRow × SessionRow}
    (f : SessionFilters) :
    holdsAll db.rows (joinedSnapshot x) (contextClause f).conds (contextClause f).values =
      (!f.hasCaptureContext || db.captures.any fun r =>
        decide (r.snapshotId = x.1.id) && f.capturePasses r) := by
  show holdsAll db.rows (joinedSnapshot x) (if f.hasCaptureContext then [captureContext f] else [])
    (Clause.valuesAll (contextClauses f)) = _
  cases f.hasCaptureContext with
  | false => rfl
  | true =>
    show ((captureContext f).holds db.rows (joinedSnapshot x) _ && true) = _
    rw [Bool.and_true, captureContext]
    show ((db.captures.map CaptureRow.columns).any _) = _
    rw [List.any_map]
    refine congrArg _ (funext fun r => ?_)
    show Cond.holds db.rows (("capture_context", r.columns) :: joinedSnapshot x) _ _ = _
    rw [Cond.holds_all, holdsAll]
    refine congrArg₂ and ?_ (holdsAll_contextClauses f r)
    simp [Cond.holds, Column.value, joinedSnapshot, List.lookup_cons, CaptureRow.columns,
      SnapshotRow.columns]

theorem run_snapshots (db : Db) :
    (snapshotSelect f page).run db.rows (Clause.valuesAll (snapshotClauses f page)) =
      (db.snapshotJoin.filter (f.selects page db)).map joinedSnapshot := by
  have hmanifest (s : SnapshotRow) (m : ManifestRow) :
      (Cond.same ⟨"m", "id"⟩ ⟨"s", "manifest_id"⟩).holds db.rows
        [("m", m.columns), ("s", s.columns)] [] = decide (m.id = s.manifestId) := by
    simp [Cond.holds, Column.value, List.lookup_cons, ManifestRow.columns, SnapshotRow.columns]
  have hsession (s : SnapshotRow) (m : ManifestRow) (x : SessionRow) :
      (Cond.same ⟨"session", "id"⟩ ⟨"s", "session_id"⟩).holds db.rows
        [("session", x.columns), ("m", m.columns), ("s", s.columns)] [] =
        decide (x.id = s.sessionId) := by
    simp [Cond.holds, Column.value, List.lookup_cons, SessionRow.columns, SnapshotRow.columns]
  refine Select.run_typed db.snapshots rfl ?_ fun x => ?_
  · unfold Db.snapshotJoin
    rw [List.map_flatMap]
    refine List.flatMap_congr fun s _ => ?_
    refine (Select.joined_table db.manifests (by rfl) (hmanifest s)).trans ?_
    rw [List.map_flatMap]
    refine List.flatMap_congr fun m _ => ?_
    refine (Select.joined_table db.sessions (by rfl) (hsession s m)).trans ?_
    rw [List.map_map]
    exact List.map_eq_flatMap.symm
  · obtain ⟨s, m, x⟩ := x
    have hvalue (name : String) : Column.value ⟨"s", name⟩ (joinedSnapshot (s, m, x)) =
        (s.columns.lookup name).join := by
      simp [Column.value, joinedSnapshot, List.lookup_cons]
    have hagent : Column.value ⟨"session", "source_agent"⟩ (joinedSnapshot (s, m, x)) =
        some (.text x.sourceAgent) := by
      simp [Column.value, joinedSnapshot, List.lookup_cons, SessionRow.columns]
    have hlive : (Cond.null ⟨"s", "deleted_at"⟩).holds db.rows (joinedSnapshot (s, m, x)) [] =
        s.live := by
      simp [Cond.holds, Column.value, joinedSnapshot, List.lookup_cons, SnapshotRow.columns,
        SnapshotRow.live]
    have hbounds : holdsAll db.rows (joinedSnapshot (s, m, x))
        (boundsClause page ⟨"s", "completed_at_seq"⟩ ⟨"s", "id"⟩).conds
        (boundsClause page ⟨"s", "completed_at_seq"⟩ ⟨"s", "id"⟩).values =
        descendingBounds page s.completedAtSeq s.id :=
      holdsAll_boundsClause (by rw [hvalue]; rfl) (by rw [hvalue]; rfl)
    show ((Cond.null _).holds _ _ _ && holdsAll _ _ (Clause.textAll _) _) = _
    rw [Clause.holds_all, hlive]
    simp only [snapshotClauses, List.all_cons, List.all_nil, Clause.holdsAll_filter, hbounds,
      holdsAll_contextClause, Cond.holds_compare, hvalue]
    rw [all_text_some (show (s.columns.lookup "session_id").join =
      some (.text s.sessionId) from rfl),
      all_text_some hagent,
      all_from (show (s.columns.lookup "completed_at_seq").join = some (.int s.completedAtSeq)
        from rfl),
      all_to (show (s.columns.lookup "completed_at_seq").join = some (.int s.completedAtSeq)
        from rfl)]
    unfold SnapshotFilters.selects SessionFilters.activity
    ac_rfl

/-- The list of the model holds the rows the statement selects. -/
theorem snapshotListRows_eq {db : Db} (hunique : db.Unique) :
    ((db.snapshotJoin.filter (f.selects page db)).map fun x => (⟨x.1, x.2.1,
        (db.captures.filter fun r => decide (r.snapshotId = x.1.id)).length⟩ : SnapshotListRow)) =
      (db.snapshotListRows f).filter fun row =>
        descendingBounds page row.boundary.sortKey row.boundary.id := by
  unfold Db.snapshotJoin Db.snapshotListRows
  rw [List.filter_flatMap, List.map_flatMap, List.filter_filterMap, List.filterMap_filter,
    List.filterMap_eq_flatMap_toList]
  refine List.flatMap_congr fun s _ => ?_
  rw [filter_key_eq_find hunique.manifestIds, filter_key_eq_find hunique.sessions]
  show List.map _ (List.filter _ ((db.manifest s.manifestId).toList.flatMap fun m =>
    (db.session s.sessionId).toList.map fun x => (s, m, x))) = _
  generalize hshown : (s.live && passes f.sessionId s.sessionId && f.activity s.completedAtSeq &&
    (!f.hasCaptureContext || db.captures.any fun r =>
      decide (r.snapshotId = s.id) && f.capturePasses r)) = shown
  cases db.manifest s.manifestId with
  | none => cases shown <;> rfl
  | some m =>
    cases db.session s.sessionId with
    | none => cases shown <;> rfl
    | some x =>
      have hselects : f.selects page db (s, m, x) = (shown && passes f.sourceAgent x.sourceAgent &&
          descendingBounds page s.completedAtSeq s.id) := by
        rw [← hshown]
        unfold SnapshotFilters.selects
        ac_rfl
      show List.map _ (List.filter _ [(s, m, x)]) = Option.toList (if shown then
        (if passes f.sourceAgent x.sourceAgent then some ⟨s, m, _⟩ else none :
          Option SnapshotListRow).filter _ else none)
      cases shown <;> cases hagent : passes f.sourceAgent x.sourceAgent <;>
        cases hbounds : descendingBounds page s.completedAtSeq s.id <;>
        simp [hselects, hagent, hbounds, SnapshotListRow.boundary, Option.filter]

end Snapshots

/-! ## §4 — `list_captures`. -/

section Captures

variable (f : CaptureFilters) (page : PageRequest)

/-- `capture_select_sql`, up to its tables. -/
def captureColumnsSql : String :=
  "SELECT c.id, c.capture_id, c.client_id, c.session_id, c.upload_id, c.snapshot_id, " ++
    "c.manifest_id, m.sha256 AS manifest_sha256, c.source_captured_at, c.source_cursor, " ++
    "c.source_state_hash, c.source_metadata_json, c.project, c.repository, c.branch, " ++
    "c.source_agent_version, c.artifact_set_version, c.munshi_version, c.server_received_at, " ++
    "c.server_completed_at, c.server_completed_at_seq "

/-- The text `list_captures` builds, line breaks aside. -/
def listCapturesSql : String :=
  let sql := captureColumnsSql ++ ("FROM captures c JOIN manifests m ON m.id = c.manifest_id " ++
    "JOIN snapshots snapshot ON snapshot.id = c.snapshot_id " ++
    "JOIN sessions session ON session.id = c.session_id WHERE snapshot.deleted_at IS NULL")
  let sql := push f.clientId " AND c.client_id = ?" sql
  let sql := push f.sessionId " AND c.session_id = ?" sql
  let sql := push f.snapshotId " AND c.snapshot_id = ?" sql
  let sql := push f.sourceAgent " AND session.source_agent = ?" sql
  let sql := push f.repository " AND c.repository = ?" sql
  let sql := push f.project " AND c.project = ?" sql
  let sql := push f.branch " AND c.branch = ?" sql
  let sql := push f.sourceAgentVersion " AND c.source_agent_version = ?" sql
  let sql := push f.artifactSetVersion " AND c.artifact_set_version = ?" sql
  let sql := push f.activityFrom " AND c.server_completed_at_seq >= ?" sql
  let sql := push f.activityTo " AND c.server_completed_at_seq <= ?" sql
  let sql := appendDescendingBounds sql "c.server_completed_at_seq" "c.id" page
  sql ++ " ORDER BY c.server_completed_at_seq DESC, c.id DESC LIMIT ?"

/-- The values it binds. -/
def listCapturesBinds : List Value :=
  bound f.clientId .text ++ bound f.sessionId .text ++ bound f.snapshotId .text ++
    bound f.sourceAgent .text ++ bound f.repository .text ++ bound f.project .text ++
    bound f.branch .text ++ bound f.sourceAgentVersion .text ++
    bound f.artifactSetVersion (fun value => .int value.toNat) ++ bound f.activityFrom .int ++
    bound f.activityTo .int ++ bindDescendingBounds page ++ [.int (page.limit + 1)]

def captureClauses : List Clause :=
  [.filter f.clientId (.compare ⟨"c", "client_id"⟩ .eq) .text (by decide),
    .filter f.sessionId (.compare ⟨"c", "session_id"⟩ .eq) .text (by decide),
    .filter f.snapshotId (.compare ⟨"c", "snapshot_id"⟩ .eq) .text (by decide),
    .filter f.sourceAgent (.compare ⟨"session", "source_agent"⟩ .eq) .text (by decide),
    .filter f.repository (.compare ⟨"c", "repository"⟩ .eq) .text (by decide),
    .filter f.project (.compare ⟨"c", "project"⟩ .eq) .text (by decide),
    .filter f.branch (.compare ⟨"c", "branch"⟩ .eq) .text (by decide),
    .filter f.sourceAgentVersion (.compare ⟨"c", "source_agent_version"⟩ .eq) .text (by decide),
    .filter f.artifactSetVersion (.compare ⟨"c", "artifact_set_version"⟩ .eq)
      (fun value => .int value.toNat) (by decide),
    .filter f.activityFrom (.compare ⟨"c", "server_completed_at_seq"⟩ .ge) .int (by decide),
    .filter f.activityTo (.compare ⟨"c", "server_completed_at_seq"⟩ .le) .int (by decide),
    boundsClause page ⟨"c", "server_completed_at_seq"⟩ ⟨"c", "id"⟩]

def captureSelect : Select where
  first := ("captures", "c")
  joins := [("manifests", "m", .same ⟨"m", "id"⟩ ⟨"c", "manifest_id"⟩),
    ("snapshots", "snapshot", .same ⟨"snapshot", "id"⟩ ⟨"c", "snapshot_id"⟩),
    ("sessions", "session", .same ⟨"session", "id"⟩ ⟨"c", "session_id"⟩)]
  base := .null ⟨"snapshot", "deleted_at"⟩
  conds := Clause.textAll (captureClauses f page)

theorem listCapturesSql_eq : listCapturesSql f page =
    captureColumnsSql ++ (captureSelect f page).render ++
      " ORDER BY c.server_completed_at_seq DESC, c.id DESC LIMIT ?" := by
  unfold Select.render
  rw [← String.append_assoc, captureSelect, ← Clause.foldl_render]
  simp only [captureClauses, List.foldl_cons, List.foldl_nil, Clause.filter]
  refine congrArg (· ++ _) (appendDescendingBounds_eq ?_ (by decide +kernel) (by decide +kernel))
  iterate 11 refine push_eq ?_ (by decide +kernel)
  decide +kernel

theorem listCapturesBinds_eq : listCapturesBinds f page =
    Clause.valuesAll (captureClauses f page) ++ [.int (page.limit + 1)] := by
  unfold listCapturesBinds Clause.valuesAll captureClauses Clause.filter boundsClause
  simp only [List.flatMap_cons, List.flatMap_nil, List.append_nil, List.append_assoc]

/-- What each placeholder of the statement is compared with. -/
def captureAssigned : List (Column × Op × Value) :=
  given f.clientId ⟨"c", "client_id"⟩ .eq .text ++
    given f.sessionId ⟨"c", "session_id"⟩ .eq .text ++
    given f.snapshotId ⟨"c", "snapshot_id"⟩ .eq .text ++
    given f.sourceAgent ⟨"session", "source_agent"⟩ .eq .text ++
    given f.repository ⟨"c", "repository"⟩ .eq .text ++
    given f.project ⟨"c", "project"⟩ .eq .text ++
    given f.branch ⟨"c", "branch"⟩ .eq .text ++
    given f.sourceAgentVersion ⟨"c", "source_agent_version"⟩ .eq .text ++
    given f.artifactSetVersion ⟨"c", "artifact_set_version"⟩ .eq (fun v => .int v.toNat) ++
    given f.activityFrom ⟨"c", "server_completed_at_seq"⟩ .ge .int ++
    given f.activityTo ⟨"c", "server_completed_at_seq"⟩ .le .int ++
    boundsAssigned page ⟨"c", "server_completed_at_seq"⟩ ⟨"c", "id"⟩

theorem assigned_captures :
    assignedAll (captureSelect f page).conds (Clause.valuesAll (captureClauses f page)) =
      captureAssigned f page := by
  show assignedAll (Clause.textAll _) _ = _
  rw [Clause.assigned_all]
  simp only [captureClauses, List.flatMap_cons, List.flatMap_nil, Clause.assignedAll_filter,
    assignedAll_boundsClause, List.append_nil, captureAssigned, List.append_assoc]
  simp only [given, Cond.assigned, List.head?_cons, Option.toList_some, List.map_cons, List.map_nil,
    ← List.map_eq_flatMap]

/-- The rows of the join, before any filter. -/
def Db.captureJoin (db : Db) : List (CaptureRow × ManifestRow × SnapshotRow × SessionRow) :=
  db.captures.flatMap fun r =>
    (db.manifests.filter fun m => decide (m.id = r.manifestId)).flatMap fun m =>
      (db.snapshots.filter fun s => decide (s.id = r.snapshotId)).flatMap fun s =>
        (db.sessions.filter fun x => decide (x.id = r.sessionId)).map fun x => (r, m, s, x)

/-- The same rows under their names in the statement. -/
def joinedCapture (x : CaptureRow × ManifestRow × SnapshotRow × SessionRow) : Joined :=
  [("session", x.2.2.2.columns), ("snapshot", x.2.2.1.columns), ("m", x.2.1.columns),
    ("c", x.1.columns)]

/-- A capture of a live snapshot under all the filters, and within the page's bounds. -/
def CaptureFilters.selects (x : CaptureRow × ManifestRow × SnapshotRow × SessionRow) : Bool :=
  x.2.2.1.live && passes f.clientId x.1.clientId && passes f.sessionId x.1.sessionId &&
    passes f.snapshotId x.1.snapshotId && passes f.sourceAgent x.2.2.2.sourceAgent &&
    passesNullable f.repository x.1.repository && passesNullable f.project x.1.project &&
    passesNullable f.branch x.1.branch &&
    passesNullable f.sourceAgentVersion x.1.sourceAgentVersion &&
    passes (f.artifactSetVersion.map fun v => (v.toNat : ℤ)) x.1.artifactSetVersion &&
    (f.activityFrom.all fun lo => decide (lo ≤ x.1.serverCompletedAtSeq)) &&
    (f.activityTo.all fun hi => decide (x.1.serverCompletedAtSeq ≤ hi)) &&
    descendingBounds page x.1.serverCompletedAtSeq x.1.id

theorem run_captures (db : Db) :
    (captureSelect f page).run db.rows (Clause.valuesAll (captureClauses f page)) =
      (db.captureJoin.filter (f.selects page)).map joinedCapture := by
  have hmanifest (r : CaptureRow) (m : ManifestRow) :
      (Cond.same ⟨"m", "id"⟩ ⟨"c", "manifest_id"⟩).holds db.rows
        [("m", m.columns), ("c", r.columns)] [] = decide (m.id = r.manifestId) := by
    simp [Cond.holds, Column.value, List.lookup_cons, ManifestRow.columns, CaptureRow.columns]
  have hsnapshot (r : CaptureRow) (m : ManifestRow) (s : SnapshotRow) :
      (Cond.same ⟨"snapshot", "id"⟩ ⟨"c", "snapshot_id"⟩).holds db.rows
        [("snapshot", s.columns), ("m", m.columns), ("c", r.columns)] [] =
        decide (s.id = r.snapshotId) := by
    simp [Cond.holds, Column.value, List.lookup_cons, SnapshotRow.columns, CaptureRow.columns]
  have hsession (r : CaptureRow) (m : ManifestRow) (s : SnapshotRow) (x : SessionRow) :
      (Cond.same ⟨"session", "id"⟩ ⟨"c", "session_id"⟩).holds db.rows
        [("session", x.columns), ("snapshot", s.columns), ("m", m.columns), ("c", r.columns)] [] =
        decide (x.id = r.sessionId) := by
    simp [Cond.holds, Column.value, List.lookup_cons, SessionRow.columns, CaptureRow.columns]
  refine Select.run_typed db.captures rfl ?_ fun x => ?_
  · unfold Db.captureJoin
    rw [List.map_flatMap]
    refine List.flatMap_congr fun r _ => ?_
    refine (Select.joined_table db.manifests (by rfl) (hmanifest r)).trans ?_
    rw [List.map_flatMap]
    refine List.flatMap_congr fun m _ => ?_
    refine (Select.joined_table db.snapshots (by rfl) (hsnapshot r m)).trans ?_
    rw [List.map_flatMap]
    refine List.flatMap_congr fun s _ => ?_
    refine (Select.joined_table db.sessions (by rfl) (hsession r m s)).trans ?_
    rw [List.map_map]
    exact List.map_eq_flatMap.symm
  · obtain ⟨r, m, s, x⟩ := x
    have hvalue (name : String) : Column.value ⟨"c", name⟩ (joinedCapture (r, m, s, x)) =
        (r.columns.lookup name).join := by
      simp [Column.value, joinedCapture, List.lookup_cons]
    have hagent : Column.value ⟨"session", "source_agent"⟩ (joinedCapture (r, m, s, x)) =
        some (.text x.sourceAgent) := by
      simp [Column.value, joinedCapture, List.lookup_cons, SessionRow.columns]
    have hlive : (Cond.null ⟨"snapshot", "deleted_at"⟩).holds db.rows (joinedCapture (r, m, s, x))
        [] = s.live := by
      simp [Cond.holds, Column.value, joinedCapture, List.lookup_cons, SnapshotRow.columns,
        SnapshotRow.live]
    have hbounds : holdsAll db.rows (joinedCapture (r, m, s, x))
        (boundsClause page ⟨"c", "server_completed_at_seq"⟩ ⟨"c", "id"⟩).conds
        (boundsClause page ⟨"c", "server_completed_at_seq"⟩ ⟨"c", "id"⟩).values =
        descendingBounds page r.serverCompletedAtSeq r.id :=
      holdsAll_boundsClause (by rw [hvalue]; rfl) (by rw [hvalue]; rfl)
    show ((Cond.null _).holds _ _ _ && holdsAll _ _ (Clause.textAll _) _) = _
    rw [Clause.holds_all, hlive]
    simp only [captureClauses, List.all_cons, List.all_nil, Clause.holdsAll_filter, hbounds,
      Cond.holds_compare, hvalue]
    rw [all_text_some (show (r.columns.lookup "client_id").join = some (.text r.clientId) from rfl),
      all_text_some (show (r.columns.lookup "session_id").join = some (.text r.sessionId) from rfl),
      all_text_some (show (r.columns.lookup "snapshot_id").join =
        some (.text r.snapshotId) from rfl),
      all_text_some hagent,
      all_text (show (r.columns.lookup "repository").join = r.repository.map .text from rfl),
      all_text (show (r.columns.lookup "project").join = r.project.map .text from rfl),
      all_text (show (r.columns.lookup "branch").join = r.branch.map .text from rfl),
      all_text (show (r.columns.lookup "source_agent_version").join =
        r.sourceAgentVersion.map .text from rfl),
      all_version (show (r.columns.lookup "artifact_set_version").join =
        some (.int r.artifactSetVersion) from rfl),
      all_from (show (r.columns.lookup "server_completed_at_seq").join =
        some (.int r.serverCompletedAtSeq) from rfl),
      all_to (show (r.columns.lookup "server_completed_at_seq").join =
        some (.int r.serverCompletedAtSeq) from rfl)]
    unfold CaptureFilters.selects
    ac_rfl

end Captures

/-! ## §5 — The context of a snapshot. -/

variable {c : Crates} {cfg : Config} {sqlite : SqliteChecks} {m : Moment} {db : Db}

/-- The context filters on the fields a fingerprint covers. -/
def SessionFilters.stablePasses (f : SessionFilters)
    (stable : Option String × Option String × Option String × Option String × ℤ) : Bool :=
  passesNullable f.repository stable.2.1 && passesNullable f.project stable.1 &&
    passesNullable f.branch stable.2.2.1 && passesNullable f.sourceAgentVersion stable.2.2.2.1 &&
    passes (f.artifactSetVersion.map fun v => (v.toNat : ℤ)) stable.2.2.2.2

theorem capturePasses_eq (f : SessionFilters) (r : CaptureRow) :
    f.capturePasses r = (f.stablePasses r.stable && passes f.clientId r.clientId) := rfl

/-- Some capture of the snapshot is as the filters say, when the snapshot's own context is and some
capture is by the client. -/
theorem Db.Browsable.context_iff (hc : c.CollisionFree (db.fingerprinted c)) (hb : db.Browsable c)
    (hids : db.Identities c) (hunique : db.Unique) {snapshot : SnapshotRow}
    (hmem : snapshot ∈ db.snapshots) {manifest : Manifest}
    (hrecorded : manifest.fingerprinted ∈ db.fingerprinted c)
    (hfingerprint : snapshot.fingerprintSha256 = snapshotFingerprint c manifest)
    (f : SessionFilters) :
    (db.captures.any fun r => decide (r.snapshotId = snapshot.id) && f.capturePasses r) =
      (f.stablePasses manifest.capture.stable && db.captures.any fun r =>
        decide (r.snapshotId = snapshot.id) && passes f.clientId r.clientId) := by
  have hstable : ∀ r ∈ db.captures, r.snapshotId = snapshot.id →
      r.stable = manifest.capture.stable := by
    intro r hr hid
    obtain ⟨manifest', hstable', hrecorded', hfingerprint'⟩ := hb.recorded hids hunique hmem hr hid
    rw [hstable']
    exact stable_of_snapshotFingerprint hc hrecorded' hrecorded
      (hfingerprint'.symm.trans hfingerprint)
  rw [Bool.eq_iff_iff, Bool.and_eq_true, List.any_eq_true, List.any_eq_true]
  constructor
  · rintro ⟨r, hr, h⟩
    rw [Bool.and_eq_true, decide_eq_true_eq, capturePasses_eq, Bool.and_eq_true] at h
    obtain ⟨hid, hcontext, hclient⟩ := h
    rw [hstable r hr hid] at hcontext
    exact ⟨hcontext, r, hr, by rw [hclient, Bool.and_true]; exact decide_eq_true hid⟩
  · rintro ⟨hcontext, r, hr, h⟩
    rw [Bool.and_eq_true, decide_eq_true_eq] at h
    refine ⟨r, hr, ?_⟩
    rw [Bool.and_eq_true, decide_eq_true_eq, capturePasses_eq, Bool.and_eq_true,
      hstable r hr h.1]
    exact ⟨h.1, hcontext, h.2⟩

/-- **`Selects`** — a text and the values bound to it: what the text says between its columns and
its order, which column each value is compared with, and the rows selected. The last value is the
limit. -/
structure Selects (db : Db) (page : PageRequest) (columns order text : String)
    (values : List Value) (assigned : List (Column × Op × Value)) (rows : List Joined) : Prop where
  statement : ∃ (s : Select) (own : List Value),
    text = columns ++ s.render ++ (" ORDER BY " ++ order ++ " LIMIT ?") ∧
      values = own ++ [.int (page.limit + 1)] ∧ own.length = placeholdersAll s.conds ∧
      assignedAll s.conds own = assigned ∧ s.run db.rows own = rows

/-- **`filters_exact`** — in each of the three lists every value is compared with the column of its
own filter, and the rows selected are the live rows that meet all filters and the cursor's bounds;
the model's lists are these rows. A snapshot is selected by its captures' context as by its own. -/
theorem filters_exact (hJson : c.JsonReads) (h : Life c cfg sqlite m)
    (hc : c.CollisionFree (m.state.db.fingerprinted c)) (page : PageRequest) :
    (∀ f : SessionFilters,
      Selects m.state.db page sessionColumnsSql "p.completed_at_seq DESC, p.session_id DESC"
        (listSessionsSql f page) (listSessionsBinds f page)
        (sessionAssigned f page)
        ((m.state.db.sessionJoin.filter (f.selects page m.state.db)).map joinedSession) ∧
      ((m.state.db.sessionJoin.filter (f.selects page m.state.db)).map fun x =>
          (⟨x.1, x.2.1⟩ : SessionListRow)) =
        (m.state.db.sessionListRows f).filter fun row =>
          descendingBounds page row.boundary.sortKey row.boundary.id) ∧
    (∀ f : SnapshotFilters,
      Selects m.state.db page snapshotColumnsSql "s.completed_at_seq DESC, s.id DESC"
        (querySnapshotRowsSql f page) (querySnapshotRowsBinds f page)
        (snapshotAssigned f page)
        ((m.state.db.snapshotJoin.filter (f.selects page m.state.db)).map joinedSnapshot) ∧
      ((m.state.db.snapshotJoin.filter (f.selects page m.state.db)).map fun x => (⟨x.1, x.2.1,
          (m.state.db.captures.filter fun r => decide (r.snapshotId = x.1.id)).length⟩ :
            SnapshotListRow)) =
        (m.state.db.snapshotListRows f).filter fun row =>
          descendingBounds page row.boundary.sortKey row.boundary.id) ∧
    (∀ f : CaptureFilters,
      Selects m.state.db page captureColumnsSql "c.server_completed_at_seq DESC, c.id DESC"
        (listCapturesSql f page) (listCapturesBinds f page)
        (captureAssigned f page)
        ((m.state.db.captureJoin.filter (f.selects page)).map joinedCapture)) ∧
    ∀ snapshot ∈ m.state.db.snapshots, snapshot.live = true → ∃ manifest : Manifest,
      snapshot.fingerprintSha256 = snapshotFingerprint c manifest ∧
        ∀ f : SessionFilters,
          (m.state.db.captures.any fun r =>
              decide (r.snapshotId = snapshot.id) && f.capturePasses r) =
            (f.stablePasses manifest.capture.stable && m.state.db.captures.any fun r =>
              decide (r.snapshotId = snapshot.id) && passes f.clientId r.clientId) := by
  obtain ⟨hids, hb⟩ := h.browsable hJson
  have hunique := (Life.good h).archive.inv.unique
  refine ⟨fun f => ⟨⟨?_⟩, sessionListRows_eq f page hunique⟩,
    fun f => ⟨⟨?_⟩, snapshotListRows_eq f page hunique⟩, fun f => ⟨?_⟩,
    fun snapshot hmem hlive => ?_⟩
  · exact ⟨sessionSelect f page, Clause.valuesAll (sessionClauses f page),
      listSessionsSql_eq f page, listSessionsBinds_eq f page, Clause.fits_all _,
      assigned_sessions f page, run_sessions f page _⟩
  · exact ⟨snapshotSelect f page, Clause.valuesAll (snapshotClauses f page),
      querySnapshotRowsSql_eq f page, querySnapshotRowsBinds_eq f page, Clause.fits_all _,
      assigned_snapshots f page, run_snapshots f page _⟩
  · exact ⟨captureSelect f page, Clause.valuesAll (captureClauses f page),
      listCapturesSql_eq f page, listCapturesBinds_eq f page, Clause.fits_all _,
      assigned_captures f page, run_captures f page _⟩
  · obtain ⟨r, hr, hid⟩ := hids.captured snapshot hmem hlive
    obtain ⟨manifest, -, hrecorded, hfingerprint⟩ := hb.recorded hids hunique hmem hr hid
    exact ⟨manifest, hfingerprint, hb.context_iff hc hids hunique hmem hrecorded hfingerprint⟩

/-- The rows a snapshot list selects are those its page lists. -/
theorem selected_ids {f : SnapshotFilters} {page : PageRequest} {db : Db}
    (h : ((db.snapshotJoin.filter (f.selects page db)).map fun x => (⟨x.1, x.2.1,
        (db.captures.filter fun r => decide (r.snapshotId = x.1.id)).length⟩ : SnapshotListRow)) =
      (db.snapshotListRows f).filter fun row =>
        descendingBounds page row.boundary.sortKey row.boundary.id) :
    (db.snapshotJoin.filter (f.selects page db)).map (fun x => x.1.id) = listedIds db f page := by
  have hids := congrArg (List.map fun row : SnapshotListRow => row.snapshot.id) h
  rw [List.map_map] at hids
  exact hids

/-- Over two snapshots: several filters select that of the project, and without the project's filter
the page after it selects the other. -/
theorem filters_exact_sample : ∃ p : Server,
    p.state.db.snapshots.map SnapshotRow.live = [true, true] ∧
      Selects p.state.db firstPage snapshotColumnsSql "s.completed_at_seq DESC, s.id DESC"
        (querySnapshotRowsSql projectFilters firstPage)
        (querySnapshotRowsBinds projectFilters firstPage)
        (snapshotAssigned projectFilters firstPage)
        ((p.state.db.snapshotJoin.filter
          (projectFilters.selects firstPage p.state.db)).map joinedSnapshot) ∧
      (p.state.db.snapshotJoin.filter
        (projectFilters.selects firstPage p.state.db)).map (fun x => x.1.id) = [sampleUuid 89] ∧
      (p.state.db.snapshotJoin.filter
        (SnapshotFilters.selects { projectFilters with project := none } secondPage
          p.state.db)).map (fun x => x.1.id) = [sampleUuid 50] := by
  obtain ⟨p, p', hlife, -, hreport, -⟩ := projectArchive
  obtain ⟨hlive, -, hfirst, hsecond⟩ := ContextReport.mk.inj hreport
  obtain ⟨-, hpage, -⟩ :=
    filters_exact projectCrates_jsonReads hlife projectCrates_injective.injOn firstPage
  obtain ⟨-, hnext, -⟩ :=
    filters_exact projectCrates_jsonReads hlife projectCrates_injective.injOn secondPage
  obtain ⟨hselects, hrows⟩ := hpage projectFilters
  exact ⟨p, hlive, hselects, (selected_ids hrows).trans hfirst,
    (selected_ids (hnext _).2).trans hsecond⟩

end Patwari
