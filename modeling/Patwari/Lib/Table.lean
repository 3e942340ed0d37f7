/-
# Patwari.Lib.Table — tables as lists of rows.

A relational table is a list of rows with a key column. What a unique index guarantees is that no
two rows share a key; this file says so (`UniqueOn`), says which changes keep it, and reads a row
back by its key.
-/
import Mathlib.Data.List.Nodup
import Mathlib.Tactic

namespace Patwari.Lib

variable {ρ κ : Type*} {key : ρ → κ} {rows : List ρ}

/-- No two rows carry the same key. -/
def UniqueOn (key : ρ → κ) (rows : List ρ) : Prop := (rows.map key).Nodup

namespace UniqueOn

theorem nil : UniqueOn key ([] : List ρ) := List.nodup_nil

theorem eq_of_mem (h : UniqueOn key rows) {a b : ρ} (ha : a ∈ rows) (hb : b ∈ rows)
    (hab : key a = key b) : a = b :=
  List.inj_on_of_nodup_map h ha hb hab

/-- Inserting a row under a key no row has. -/
theorem append (h : UniqueOn key rows) {r : ρ} (hr : ∀ x ∈ rows, key x ≠ key r) :
    UniqueOn key (rows ++ [r]) := by
  unfold UniqueOn at *
  rw [List.map_append, List.nodup_append]
  refine ⟨h, by simp, ?_⟩
  rintro a ha b hb rfl
  obtain ⟨x, hx, rfl⟩ := List.mem_map.mp ha
  have hkey : key x = key r := by simpa using hb
  exact hr x hx hkey

/-- Deleting rows. -/
theorem filter (h : UniqueOn key rows) (p : ρ → Bool) : UniqueOn key (rows.filter p) :=
  h.sublist (List.filter_sublist.map key)

/-- Updating rows without touching their keys. -/
theorem map (h : UniqueOn key rows) {f : ρ → ρ} (hf : ∀ r ∈ rows, key (f r) = key r) :
    UniqueOn key (rows.map f) := by
  unfold UniqueOn at *
  have hmap : (rows.map f).map key = rows.map key := by
    rw [List.map_map]
    exact List.map_congr_left hf
  rwa [hmap]

end UniqueOn

/-- The row a unique key reads is the row that carries it. -/
theorem find?_unique [DecidableEq κ] (h : UniqueOn key rows) {r : ρ} (hr : r ∈ rows) :
    rows.find? (fun x => decide (key x = key r)) = some r := by
  cases hfind : rows.find? (fun x => decide (key x = key r)) with
  | none =>
    have hnone := List.find?_eq_none.mp hfind r hr
    simp at hnone
  | some x =>
    have hkey : key x = key r := by simpa using List.find?_some hfind
    rw [h.eq_of_mem (List.mem_of_find?_eq_some hfind) hr hkey]

/-- Updates the rows that satisfy a condition. -/
def updateWhere (p : ρ → Bool) (f : ρ → ρ) (rows : List ρ) : List ρ :=
  rows.map fun r => if p r then f r else r

/-- A row after an update is an old row, changed if the condition selected it. -/
theorem mem_updateWhere {p : ρ → Bool} {f : ρ → ρ} {r : ρ} :
    r ∈ updateWhere p f rows ↔ ∃ x ∈ rows, (if p x then f x else x) = r :=
  List.mem_map

/-- A row the condition does not select stays. -/
theorem mem_updateWhere_of_not {p : ρ → Bool} {f : ρ → ρ} {r : ρ} (hr : r ∈ rows)
    (hp : p r = false) : r ∈ updateWhere p f rows :=
  mem_updateWhere.mpr ⟨r, hr, by simp [hp]⟩

/-- The first row found after an update that keeps what is searched for. -/
theorem find?_updateWhere {p q : ρ → Bool} {f : ρ → ρ} (h : ∀ r ∈ rows, q (f r) = q r) :
    (updateWhere p f rows).find? q = (rows.find? q).map fun r => if p r then f r else r := by
  induction rows with
  | nil => rfl
  | cons r rest ih =>
    have hrest := ih fun x hx => h x (List.mem_cons_of_mem _ hx)
    have hq : q (if p r then f r else r) = q r := by
      split
      · exact h r List.mem_cons_self
      · rfl
    show ((if p r then f r else r) :: updateWhere p f rest).find? q = _
    rw [List.find?_cons, List.find?_cons, hq, hrest]
    cases q r <;> rfl

theorem UniqueOn.updateWhere (h : UniqueOn key rows) {p : ρ → Bool} {f : ρ → ρ}
    (hf : ∀ r ∈ rows, key (f r) = key r) : UniqueOn key (updateWhere p f rows) := by
  refine UniqueOn.map h fun r hr => ?_
  split
  · exact hf r hr
  · rfl

end Patwari.Lib
