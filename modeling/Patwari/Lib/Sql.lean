/-
# Patwari.Lib.Sql — queries with positional parameters.

A query is text with `?` placeholders and a list of values bound to them by position. `Cond` is what
such text says after `WHERE`: `render` writes it, `holds` is its truth on rows, each placeholder
taking the next value. Text and values are often put together by two separate chains of
conditionals; a `Clause` is one link of both, and §3 shows that chains of fitting links mean the
conjunction of their links, whatever links are present.
-/
import Mathlib.Algebra.Order.Ring.Int
import Mathlib.Data.List.Basic

namespace Patwari.Lib.Sql

/-! ## §1 — Values, rows and conditions. -/

inductive Value
  | int (n : ℤ)
  | text (s : String)
  deriving DecidableEq, Repr

/-- The values of a row's columns; `NULL` is no value. -/
abbrev Row := List (String × Option Value)

/-- The rows of a join, by their aliases. -/
abbrev Joined := List (String × Row)

structure Column where
  table : String
  name : String
  deriving DecidableEq, Repr

def Column.render (c : Column) : String := c.table ++ "." ++ c.name

def Column.value (c : Column) (env : Joined) : Option Value :=
  (env.lookup c.table).bind fun row => (row.lookup c.name).join

inductive Op
  | eq
  | lt
  | le
  | ge
  deriving DecidableEq, Repr

def Op.render : Op → String
  | .eq => "="
  | .lt => "<"
  | .le => "<="
  | .ge => ">="

/-- Numbers come before texts. -/
def Value.less : Value → Value → Bool
  | .int m, .int n => decide (m < n)
  | .int _, .text _ => true
  | .text _, .int _ => false
  | .text s, .text t => decide (s < t)

def Op.compare : Op → Value → Value → Bool
  | .eq, v, w => decide (v = w)
  | .lt, v, w => v.less w
  | .le, v, w => v.less w || decide (v = w)
  | .ge, v, w => w.less v || decide (v = w)

/-- A condition without negation, so that `NULL` need not be told from false. -/
inductive Cond
  | compare (column : Column) (op : Op)
  | null (column : Column)
  | same (left right : Column)
  | and (a b : Cond)
  | or (a b : Cond)
  | exists (table name : String) (body : Cond)
  deriving DecidableEq, Repr

namespace Cond

def render : Cond → String
  | compare column op => column.render ++ " " ++ op.render ++ " ?"
  | null column => column.render ++ " IS NULL"
  | same left right => left.render ++ " = " ++ right.render
  | and a b => a.render ++ " AND " ++ b.render
  | or a b => "(" ++ a.render ++ " OR (" ++ b.render ++ "))"
  | .exists table name body =>
    "EXISTS (SELECT 1 FROM " ++ table ++ " " ++ name ++ " WHERE " ++ body.render ++ ")"

def placeholders : Cond → ℕ
  | compare _ _ => 1
  | null _ => 0
  | same _ _ => 0
  | and a b => a.placeholders + b.placeholders
  | or a b => a.placeholders + b.placeholders
  | .exists _ _ body => body.placeholders

/-- The condition is true of the rows, its placeholders filled from the left. -/
def holds (tables : String → List Row) (env : Joined) : Cond → List Value → Bool
  | compare column op, values =>
    match values with
    | w :: _ => (column.value env).any fun v => op.compare v w
    | [] => false
  | null column, _ => (column.value env).isNone
  | same left right, _ =>
    match left.value env, right.value env with
    | some v, some w => decide (v = w)
    | _, _ => false
  | and a b, values => a.holds tables env values && b.holds tables env (values.drop a.placeholders)
  | or a b, values => a.holds tables env values || b.holds tables env (values.drop a.placeholders)
  | .exists table name body, values =>
    (tables table).any fun row => body.holds tables ((name, row) :: env) values

/-- Which column each value is compared with, in the order of the text. -/
def assigned : Cond → List Value → List (Column × Op × Value)
  | compare column op, values => values.head?.toList.map fun value => (column, op, value)
  | null _, _ => []
  | same _ _, _ => []
  | and a b, values => a.assigned values ++ b.assigned (values.drop a.placeholders)
  | or a b, values => a.assigned values ++ b.assigned (values.drop a.placeholders)
  | .exists _ _ body, values => body.assigned values

end Cond

/-! ## §2 — Conjunctions. -/

/-- What is pushed behind a first condition. -/
def renderAll : List Cond → String
  | [] => ""
  | cond :: rest => " AND " ++ cond.render ++ renderAll rest

def placeholdersAll (conds : List Cond) : ℕ := (conds.map Cond.placeholders).sum

def holdsAll (tables : String → List Row) (env : Joined) : List Cond → List Value → Bool
  | [], _ => true
  | cond :: rest, values =>
    cond.holds tables env values && holdsAll tables env rest (values.drop cond.placeholders)

def assignedAll : List Cond → List Value → List (Column × Op × Value)
  | [], _ => []
  | cond :: rest, values =>
    cond.assigned values ++ assignedAll rest (values.drop cond.placeholders)

/-- A first condition and others behind it. -/
def Cond.all (first : Cond) (rest : List Cond) : Cond := rest.foldl .and first

@[simp] theorem renderAll_append (cs ds : List Cond) :
    renderAll (cs ++ ds) = renderAll cs ++ renderAll ds := by
  induction cs with
  | nil => exact String.empty_append.symm
  | cons c cs ih =>
    rw [List.cons_append, renderAll, renderAll, ih]
    simp only [String.append_assoc]

@[simp] theorem placeholdersAll_append (cs ds : List Cond) :
    placeholdersAll (cs ++ ds) = placeholdersAll cs + placeholdersAll ds := by
  simp [placeholdersAll]

theorem Cond.render_all (first : Cond) (rest : List Cond) :
    (Cond.all first rest).render = first.render ++ renderAll rest := by
  unfold Cond.all
  induction rest generalizing first with
  | nil => exact String.append_empty.symm
  | cons c rest ih =>
    refine (ih (first.and c)).trans ?_
    show first.render ++ " AND " ++ c.render ++ renderAll rest =
      first.render ++ (" AND " ++ c.render ++ renderAll rest)
    simp only [String.append_assoc]

theorem Cond.placeholders_all (first : Cond) (rest : List Cond) :
    (Cond.all first rest).placeholders = first.placeholders + placeholdersAll rest := by
  unfold Cond.all
  induction rest generalizing first with
  | nil => simp [placeholdersAll]
  | cons c rest ih =>
    rw [List.foldl_cons, ih, Cond.placeholders]
    simp only [placeholdersAll, List.map_cons, List.sum_cons]
    omega

variable {tables : String → List Row} {env : Joined}

theorem Cond.holds_compare (column : Column) (op : Op) (w : Value) :
    (Cond.compare column op).holds tables env [w] =
      (column.value env).any fun v => op.compare v w := rfl

/-- Values behind those for the placeholders are not looked at. -/
theorem Cond.holds_append {c : Cond} {vs ws : List Value} (h : c.placeholders ≤ vs.length) :
    c.holds tables env (vs ++ ws) = c.holds tables env vs := by
  induction c generalizing env vs with
  | compare column op =>
    obtain ⟨v, vs, rfl⟩ := List.exists_cons_of_length_pos h
    rfl
  | null column => rfl
  | same left right => rfl
  | and a b iha ihb | or a b iha ihb =>
    simp only [Cond.placeholders] at h
    have hrest : b.placeholders ≤ (vs.drop a.placeholders).length := by
      rw [List.length_drop]
      omega
    simp only [Cond.holds]
    rw [List.drop_append_of_le_length (by omega), iha (by omega), ihb hrest]
  | «exists» table name body ih =>
    simp only [Cond.holds]
    exact congrArg _ (funext fun row => ih h)

theorem Cond.assigned_append {c : Cond} {vs ws : List Value} (h : c.placeholders ≤ vs.length) :
    c.assigned (vs ++ ws) = c.assigned vs := by
  induction c generalizing vs with
  | compare column op =>
    obtain ⟨v, vs, rfl⟩ := List.exists_cons_of_length_pos h
    rfl
  | null column => rfl
  | same left right => rfl
  | and a b iha ihb | or a b iha ihb =>
    simp only [Cond.placeholders] at h
    have hrest : b.placeholders ≤ (vs.drop a.placeholders).length := by
      rw [List.length_drop]
      omega
    simp only [Cond.assigned]
    rw [List.drop_append_of_le_length (by omega), iha (by omega), ihb hrest]
  | «exists» table name body ih => exact ih h

theorem fits_cons {c : Cond} {cs : List Cond} {vs : List Value}
    (h : vs.length = placeholdersAll (c :: cs)) :
    c.placeholders ≤ vs.length ∧ (vs.drop c.placeholders).length = placeholdersAll cs := by
  simp only [placeholdersAll, List.map_cons, List.sum_cons] at h
  refine ⟨by omega, ?_⟩
  rw [List.length_drop, h]
  exact Nat.add_sub_cancel_left ..

/-- The values of the first part are taken from the front. -/
theorem holdsAll_append {cs ds : List Cond} {vs ws : List Value}
    (h : vs.length = placeholdersAll cs) :
    holdsAll tables env (cs ++ ds) (vs ++ ws) =
      (holdsAll tables env cs vs && holdsAll tables env ds ws) := by
  induction cs generalizing vs with
  | nil =>
    obtain rfl := List.length_eq_zero_iff.mp h
    simp [holdsAll]
  | cons c cs ih =>
    obtain ⟨hfront, hrest⟩ := fits_cons h
    rw [List.cons_append, holdsAll, holdsAll, Cond.holds_append hfront,
      List.drop_append_of_le_length hfront, ih hrest, Bool.and_assoc]

theorem assignedAll_append {cs ds : List Cond} {vs ws : List Value}
    (h : vs.length = placeholdersAll cs) :
    assignedAll (cs ++ ds) (vs ++ ws) = assignedAll cs vs ++ assignedAll ds ws := by
  induction cs generalizing vs with
  | nil =>
    obtain rfl := List.length_eq_zero_iff.mp h
    simp [assignedAll]
  | cons c cs ih =>
    obtain ⟨hfront, hrest⟩ := fits_cons h
    rw [List.cons_append, assignedAll, assignedAll, Cond.assigned_append hfront,
      List.drop_append_of_le_length hfront, ih hrest, List.append_assoc]

/-- A conjunction is true when its parts are. -/
theorem Cond.holds_all (first : Cond) (rest : List Cond) (values : List Value) :
    (Cond.all first rest).holds tables env values = holdsAll tables env (first :: rest) values := by
  unfold Cond.all
  induction rest generalizing first with
  | nil => rw [List.foldl_nil, holdsAll, holdsAll, Bool.and_true]
  | cons c rest ih =>
    rw [List.foldl_cons, ih]
    simp only [holdsAll, Cond.holds, Cond.placeholders, List.drop_drop, Bool.and_assoc]

theorem Cond.assigned_all (first : Cond) (rest : List Cond) (values : List Value) :
    (Cond.all first rest).assigned values = assignedAll (first :: rest) values := by
  unfold Cond.all
  induction rest generalizing first with
  | nil => rw [List.foldl_nil, assignedAll, assignedAll, List.append_nil]
  | cons c rest ih =>
    rw [List.foldl_cons, ih]
    simp only [assignedAll, Cond.assigned, Cond.placeholders, List.drop_drop, List.append_assoc]

/-! ## §3 — Clauses. -/

variable {α : Type}

/-- One link of the two chains: what is pushed to the text, and what is bound for it. -/
structure Clause where
  conds : List Cond
  values : List Value
  fits : values.length = placeholdersAll conds

/-- `if filter.is_some() { sql.push_str(..) }`. -/
def pushed (filter : Option α) (cond : Cond) : List Cond := if filter.isSome then [cond] else []

/-- `if let Some(value) = filter { request = request.bind(value) }`. -/
def bound (filter : Option α) (value : α → Value) : List Value := filter.toList.map value

/-- What a filter's placeholder is compared with, when it is there. -/
def given (filter : Option α) (column : Column) (op : Op) (value : α → Value) :
    List (Column × Op × Value) := filter.toList.map fun a => (column, op, value a)

/-- The clause of a filter on one column. -/
def Clause.filter (f : Option α) (cond : Cond) (value : α → Value) (h : cond.placeholders = 1) :
    Clause where
  conds := pushed f cond
  values := bound f value
  fits := by
    cases f with
    | none => rfl
    | some a => simp [pushed, bound, placeholdersAll, h]

def Clause.textAll (clauses : List Clause) : List Cond := clauses.flatMap Clause.conds

def Clause.valuesAll (clauses : List Clause) : List Value := clauses.flatMap Clause.values

theorem Clause.fits_all (clauses : List Clause) :
    (Clause.valuesAll clauses).length = placeholdersAll (Clause.textAll clauses) := by
  induction clauses with
  | nil => rfl
  | cons clause rest ih =>
    simp only [Clause.valuesAll, Clause.textAll, List.flatMap_cons, List.length_append,
      placeholdersAll_append, clause.fits] at ih ⊢
    rw [ih]

/-- The texts of the links, pushed one after another. -/
theorem Clause.foldl_render (clauses : List Clause) (sql : String) :
    clauses.foldl (fun sql clause => sql ++ renderAll clause.conds) sql =
      sql ++ renderAll (Clause.textAll clauses) := by
  induction clauses generalizing sql with
  | nil => exact String.append_empty.symm
  | cons clause rest ih =>
    rw [List.foldl_cons, ih, Clause.textAll, Clause.textAll, List.flatMap_cons, renderAll_append,
      String.append_assoc]

/-- **`Clause.holds_all`** — the two chains together are true of the rows when every link is. -/
theorem Clause.holds_all (clauses : List Clause) :
    holdsAll tables env (Clause.textAll clauses) (Clause.valuesAll clauses) =
      clauses.all fun clause => holdsAll tables env clause.conds clause.values := by
  induction clauses with
  | nil => rfl
  | cons clause rest ih =>
    rw [Clause.textAll, Clause.valuesAll, List.flatMap_cons, List.flatMap_cons,
      holdsAll_append clause.fits, List.all_cons]
    exact congrArg _ ih

/-- Every placeholder gets the value of its own link. -/
theorem Clause.assigned_all (clauses : List Clause) :
    assignedAll (Clause.textAll clauses) (Clause.valuesAll clauses) =
      clauses.flatMap fun clause => assignedAll clause.conds clause.values := by
  induction clauses with
  | nil => rfl
  | cons clause rest ih =>
    rw [Clause.textAll, Clause.valuesAll, List.flatMap_cons, List.flatMap_cons,
      assignedAll_append clause.fits, List.flatMap_cons]
    exact congrArg _ ih

@[simp] theorem Clause.holdsAll_filter (f : Option α) (cond : Cond) (value : α → Value)
    (h : cond.placeholders = 1) :
    holdsAll tables env (Clause.filter f cond value h).conds (Clause.filter f cond value h).values =
      f.all fun a => cond.holds tables env [value a] := by
  cases f with
  | none => rfl
  | some a => simp [Clause.filter, pushed, bound, holdsAll]

@[simp] theorem Clause.assignedAll_filter (f : Option α) (cond : Cond) (value : α → Value)
    (h : cond.placeholders = 1) :
    assignedAll (Clause.filter f cond value h).conds (Clause.filter f cond value h).values =
      f.toList.flatMap fun a => cond.assigned [value a] := by
  cases f with
  | none => rfl
  | some a => simp [Clause.filter, pushed, bound, assignedAll]

/-! ## §4 — Joins. -/

/-- `FROM .. JOIN .. ON .. WHERE ..`: the tables under their names, each with the condition it is
joined on, and the conditions behind `WHERE`. -/
structure Select where
  first : String × String
  joins : List (String × String × Cond)
  base : Cond
  conds : List Cond

namespace Select

def renderJoins : List (String × String × Cond) → String
  | [] => ""
  | (table, name, on) :: rest =>
    " JOIN " ++ table ++ " " ++ name ++ " ON " ++ on.render ++ renderJoins rest

def render (s : Select) : String :=
  "FROM " ++ s.first.1 ++ " " ++ s.first.2 ++ renderJoins s.joins ++ " WHERE " ++ s.base.render ++
    renderAll s.conds

/-- The joined rows, the last table varying fastest. -/
def joined (tables : String → List Row) : List (String × String × Cond) → Joined → List Joined
  | [], env => [env]
  | (table, name, on) :: rest, env =>
    ((tables table).filter fun row => on.holds tables ((name, row) :: env) []).flatMap fun row =>
      joined tables rest ((name, row) :: env)

/-- The rows a statement selects under these values. -/
def run (tables : String → List Row) (s : Select) (values : List Value) : List Joined :=
  ((tables s.first.1).flatMap fun row => joined tables s.joins [(s.first.2, row)]).filter fun env =>
    s.base.holds tables env [] && holdsAll tables env s.conds values

variable {ρ : Type} (rows : List ρ) {columns : ρ → Row}

/-- Joining a table of typed rows. -/
theorem joined_table {table name : String} {on : Cond} {rest : List (String × String × Cond)}
    {keep : ρ → Bool} (htable : tables table = rows.map columns)
    (hon : ∀ r, on.holds tables ((name, columns r) :: env) [] = keep r) :
    joined tables ((table, name, on) :: rest) env =
      (rows.filter keep).flatMap fun r => joined tables rest ((name, columns r) :: env) := by
  rw [joined, htable, List.filter_map, List.flatMap_map]
  refine congrArg (List.flatMap _) (List.filter_congr fun r _ => hon r)

/-- A statement selects the rows of the typed join that the typed condition keeps. -/
theorem run_typed {s : Select} {values : List Value} {τ : Type} {join : List τ} {row : τ → Joined}
    {keep : τ → Bool} (htable : tables s.first.1 = rows.map columns)
    (hjoin : (rows.flatMap fun r => joined tables s.joins [(s.first.2, columns r)]) = join.map row)
    (hkeep : ∀ x, (s.base.holds tables (row x) [] && holdsAll tables (row x) s.conds values) =
      keep x) : s.run tables values = (join.filter keep).map row := by
  unfold run
  rw [htable, List.flatMap_map, hjoin, List.filter_map]
  exact congrArg (List.map row) (List.filter_congr fun x _ => hkeep x)

end Select

end Patwari.Lib.Sql
