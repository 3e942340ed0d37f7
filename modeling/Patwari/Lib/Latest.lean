/-
# Patwari.Lib.Latest — the greatest item of every group.

A materialized view often keeps, of every group of items, the one that ranks highest. This file says
what such a table is (`Latest`) and that it is unique up to order. It shows which maintenance keeps
it: an upsert that only moves a group's row up when an item comes in (`Raised`), a rebuild of one
group when items of it went away, and a rebuild of all groups at once.
-/
import Patwari.Lib.Table

namespace Patwari.Lib

variable {ρ κ τ : Type*} [LinearOrder τ] {group : ρ → κ} {rank : ρ → τ} {items items' : Set ρ}
  {table table' : List ρ} {row : ρ} {k : κ}

section Definitions

variable (group) (rank)

/-- The item ranks highest in its group. -/
def Greatest (items : Set ρ) (r : ρ) : Prop :=
  r ∈ items ∧ ∀ x ∈ items, group x = group r → rank x ≤ rank r

/-- **`Latest`** — the table holds exactly the greatest item of every group that has one. -/
structure Latest (items : Set ρ) (table : List ρ) : Prop where
  once : UniqueOn group table
  greatest : ∀ r ∈ table, Greatest group rank items r
  covers : ∀ x ∈ items, ∃ r ∈ table, group r = group x

/-- What a query for the greatest item of one group answers. -/
structure Top (items : Set ρ) (k : κ) (top : Option ρ) : Prop where
  absent : top = none → ∀ x ∈ items, group x ≠ k
  found : ∀ r, top = some r → group r = k ∧ Greatest group rank items r

/-- A table after an upsert that moves the row of a group up only. -/
inductive Raised [DecidableEq κ] (row : ρ) (old : List ρ) : List ρ → Prop
  | added (hnone : ∀ r ∈ old, group r ≠ group row) : Raised row old (old ++ [row])
  | moved (current : ρ) (hmem : current ∈ old) (hgroup : group current = group row)
      (hup : rank current < rank row) :
      Raised row old (updateWhere (fun r => decide (group r = group row)) (fun _ => row) old)
  | stays (current : ρ) (hmem : current ∈ old) (hgroup : group current = group row)
      (hnotUp : ¬ rank current < rank row) : Raised row old old

end Definitions

theorem Latest.empty : Latest group rank (∅ : Set ρ) [] where
  once := UniqueOn.nil
  greatest := fun _ hr => absurd hr List.not_mem_nil
  covers := fun x hx => absurd hx (Set.notMem_empty x)

/-- An item of another group, or one that ranks no higher, does not displace the greatest. -/
theorem Greatest.insert {r : ρ} (h : Greatest group rank items r)
    (hrow : group row = group r → rank row ≤ rank r) :
    Greatest group rank (insert row items) r := by
  refine ⟨Set.mem_insert_of_mem row h.1, fun x hx hgroup => ?_⟩
  rcases Set.mem_insert_iff.mp hx with rfl | hx
  · exact hrow hgroup
  · exact h.2 x hx hgroup

namespace Latest

/-- The table names every item's superior. -/
theorem rank_le (h : Latest group rank items table) {r x : ρ} (hr : r ∈ table) (hx : x ∈ items)
    (hgroup : group x = group r) : rank x ≤ rank r :=
  (h.greatest r hr).2 x hx hgroup

/-- Where ranks tell the items of a group apart, the table is unique up to order. -/
theorem perm (h : Latest group rank items table) (h' : Latest group rank items table')
    (hinj : ∀ x ∈ items, ∀ y ∈ items, group x = group y → rank x = rank y → x = y) :
    table.Perm table' := by
  have hsub {t t' : List ρ} (ht : Latest group rank items t) (ht' : Latest group rank items t') :
      ∀ r ∈ t, r ∈ t' := by
    intro r hr
    obtain ⟨hmem, -⟩ := ht.greatest r hr
    obtain ⟨r', hr', hgroup⟩ := ht'.covers r hmem
    obtain ⟨hmem', -⟩ := ht'.greatest r' hr'
    have hrank : rank r' = rank r :=
      le_antisymm (ht.rank_le hr hmem' hgroup) (ht'.rank_le hr' hmem hgroup.symm)
    rwa [← hinj r' hmem' r hmem hgroup hrank]
  rw [List.perm_ext_iff_of_nodup h.once.of_map h'.once.of_map]
  intro r
  exact ⟨hsub h h' r, hsub h' h r⟩

/-- **`Latest.raised`** — an upsert that moves rows up only is what an added item asks for. -/
theorem raised [DecidableEq κ] (h : Latest group rank items table)
    (hraised : Raised group rank row table table') :
    Latest group rank (insert row items) table' := by
  cases hraised with
  | added hnone =>
    refine ⟨h.once.append hnone, fun r hr => ?_, fun x hx => ?_⟩
    · rcases List.mem_append.mp hr with hr | hr
      · exact (h.greatest r hr).insert fun hgroup => absurd hgroup.symm (hnone r hr)
      · obtain rfl := List.mem_singleton.mp hr
        refine ⟨Set.mem_insert r items, fun x hx hgroup => ?_⟩
        rcases Set.mem_insert_iff.mp hx with rfl | hx
        · exact le_rfl
        · -- an old item has its group's row, which the upsert did not find
          obtain ⟨r', hr', hgroup'⟩ := h.covers x hx
          exact absurd (hgroup'.trans hgroup) (hnone r' hr')
    · rcases Set.mem_insert_iff.mp hx with rfl | hx
      · exact ⟨x, List.mem_append_right _ List.mem_cons_self, rfl⟩
      · obtain ⟨r, hr, hgroup⟩ := h.covers x hx
        exact ⟨r, List.mem_append_left _ hr, hgroup⟩
  | moved current hmem hgroup hup =>
    refine ⟨h.once.map fun r _ => ?_, fun r hr => ?_, fun x hx => ?_⟩
    · show group (if decide (group r = group row) then row else r) = group r
      split
      · next hsame => exact (of_decide_eq_true hsame).symm
      · rfl
    · obtain ⟨r₀, hr₀, rfl⟩ := mem_updateWhere.mp hr
      split
      · refine ⟨Set.mem_insert row items, fun x hx hx' => ?_⟩
        rcases Set.mem_insert_iff.mp hx with rfl | hx
        · exact le_rfl
        · exact (h.rank_le hmem hx (hx'.trans hgroup.symm)).trans hup.le
      · next hne =>
        refine (h.greatest r₀ hr₀).insert fun hsame => ?_
        exact absurd (decide_eq_true hsame.symm) hne
    · have hrow : row ∈ updateWhere (fun r => decide (group r = group row)) (fun _ => row) table :=
        mem_updateWhere.mpr ⟨current, hmem, by simp [hgroup]⟩
      by_cases hsame : group x = group row
      · exact ⟨row, hrow, hsame.symm⟩
      · rcases Set.mem_insert_iff.mp hx with rfl | hx
        · exact absurd rfl hsame
        · obtain ⟨r, hr, hr'⟩ := h.covers x hx
          refine ⟨r, mem_updateWhere_of_not hr (decide_eq_false ?_), hr'⟩
          rw [hr']
          exact hsame
  | stays current hmem hgroup hnotUp =>
    refine ⟨h.once, fun r hr => (h.greatest r hr).insert fun hsame => ?_, fun x hx => ?_⟩
    · obtain rfl : r = current := h.once.eq_of_mem hr hmem (hsame.symm.trans hgroup.symm)
      exact not_lt.mp hnotUp
    · rcases Set.mem_insert_iff.mp hx with rfl | hx
      · exact ⟨current, hmem, hgroup⟩
      · exact h.covers x hx

/-- **`Latest.regroup`** — querying one group again is what a change within it asks for. -/
theorem regroup [DecidableEq κ] (h : Latest group rank items table)
    (hother : ∀ x, group x ≠ k → (x ∈ items' ↔ x ∈ items)) {top : Option ρ}
    (htop : Top group rank items' k top) :
    Latest group rank items' ((table.filter fun r => decide (group r ≠ k)) ++ top.toList) := by
  have hmem {r : ρ} : r ∈ (table.filter fun r => decide (group r ≠ k)) ++ top.toList ↔
      (r ∈ table ∧ group r ≠ k) ∨ top = some r := by
    rw [List.mem_append, List.mem_filter, decide_eq_true_iff, Option.mem_toList]
  refine ⟨?_, fun r hr => ?_, fun x hx => ?_⟩
  · cases htopEq : top with
    | none => simpa using h.once.filter _
    | some r =>
      refine (h.once.filter _).append fun x hx hsame => ?_
      exact of_decide_eq_true (List.mem_filter.mp hx).2 (hsame.trans (htop.found r htopEq).1)
  · rcases hmem.mp hr with ⟨hr, hne⟩ | htopEq
    · obtain ⟨hin, hmax⟩ := h.greatest r hr
      refine ⟨(hother r hne).mpr hin, fun x hx hsame => hmax x ((hother x ?_).mp hx) hsame⟩
      rw [hsame]
      exact hne
    · exact (htop.found r htopEq).2
  · by_cases hsame : group x = k
    · cases htopEq : top with
      | none => exact absurd hsame (htop.absent htopEq x hx)
      | some r =>
        exact ⟨r, by simp, (htop.found r htopEq).1.trans hsame.symm⟩
    · obtain ⟨r, hr, hgroup⟩ := h.covers x ((hother x hsame).mp hx)
      exact ⟨r, hmem.mpr (Or.inl ⟨hr, hgroup ▸ hsame⟩), hgroup⟩

/-- **`Latest.rebuild`** — querying every group gives the table. -/
theorem rebuild {keys : List κ} (hkeys : keys.Nodup) {top : κ → Option ρ}
    (htop : ∀ k ∈ keys, Top group rank items k (top k)) (hcovers : ∀ x ∈ items, group x ∈ keys) :
    Latest group rank items (keys.flatMap fun k => (top k).toList) := by
  have hmem {r : ρ} : r ∈ (keys.flatMap fun k => (top k).toList) ↔ ∃ k ∈ keys, top k = some r := by
    simp only [List.mem_flatMap, Option.mem_toList]
  refine ⟨?_, fun r hr => ?_, fun x hx => ?_⟩
  · have hgroups : (keys.flatMap fun k => (top k).toList).map group =
        keys.filter fun k => (top k).isSome := by
      clear hkeys hcovers hmem
      induction keys with
      | nil => rfl
      | cons k rest ih =>
        rw [List.flatMap_cons, List.map_append, ih fun k hk => htop k (List.mem_cons_of_mem _ hk),
          List.filter_cons]
        cases htopEq : top k with
        | none => rfl
        | some r =>
          rw [← ((htop k List.mem_cons_self).found r htopEq).1]
          rfl
    unfold UniqueOn
    rw [hgroups]
    exact hkeys.filter _
  · obtain ⟨k, hk, htopEq⟩ := hmem.mp hr
    exact ((htop k hk).found r htopEq).2
  · cases htopEq : top (group x) with
    | none => exact absurd rfl ((htop _ (hcovers x hx)).absent htopEq x hx)
    | some r =>
      exact ⟨r, hmem.mpr ⟨group x, hcovers x hx, htopEq⟩,
        ((htop _ (hcovers x hx)).found r htopEq).1⟩

end Latest

end Patwari.Lib
