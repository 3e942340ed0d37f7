/-
# Patwari.Lib.StringMap — an ordered map keyed by text.

The map a JSON object reads as: its entries in strictly ascending key order, carried as a field,
so two maps with the same entries are equal and writing one out is deterministic. Building a map
from a list of entries keeps the last value of a repeated key; building it from a map's own
entries gives the map back.
-/
import Mathlib.Data.List.Sort
import Mathlib.Data.String.Basic
import Mathlib.Tactic

namespace Patwari.Lib

/-- A map from text, as its entries in strictly ascending key order. -/
@[ext]
structure StringMap (β : Type) where
  entries : List (String × β)
  sorted : entries.Pairwise fun a b => a.1 < b.1

namespace StringMap

variable {β : Type}

instance [DecidableEq β] : DecidableEq (StringMap β) := fun a b =>
  decidable_of_iff (a.entries = b.entries) StringMap.ext_iff.symm

/-- The map with no entries. -/
def empty : StringMap β := ⟨[], List.Pairwise.nil⟩

/-- Sets one key, replacing what it had. -/
def insertEntry (k : String) (v : β) : List (String × β) → List (String × β)
  | [] => [(k, v)]
  | (k', v') :: rest =>
    if k < k' then (k, v) :: (k', v') :: rest
    else if k = k' then (k, v) :: rest
    else (k', v') :: insertEntry k v rest

/-- Every key of the result is the inserted one or an old one. -/
theorem mem_insertEntry {k : String} {v : β} {l : List (String × β)} {e : String × β}
    (h : e ∈ insertEntry k v l) : e.1 = k ∨ e ∈ l := by
  induction l with
  | nil => exact Or.inl (congrArg Prod.fst (List.mem_singleton.mp h))
  | cons e' rest ih =>
    unfold insertEntry at h
    split_ifs at h with hlt heq
    · rcases List.mem_cons.mp h with rfl | h
      · exact Or.inl rfl
      · exact Or.inr h
    · rcases List.mem_cons.mp h with rfl | h
      · exact Or.inl rfl
      · exact Or.inr (List.mem_cons_of_mem _ h)
    · rcases List.mem_cons.mp h with rfl | h
      · exact Or.inr List.mem_cons_self
      · exact (ih h).imp id (List.mem_cons_of_mem _)

theorem insertEntry_sorted {k : String} {v : β} {l : List (String × β)}
    (h : l.Pairwise fun a b => a.1 < b.1) :
    (insertEntry k v l).Pairwise fun a b => a.1 < b.1 := by
  induction l with
  | nil => simp [insertEntry]
  | cons e rest ih =>
    obtain ⟨hhead, hrest⟩ := List.pairwise_cons.mp h
    unfold insertEntry
    split_ifs with hlt heq
    · refine List.pairwise_cons.mpr ⟨fun x hx => ?_, h⟩
      rcases List.mem_cons.mp hx with rfl | hx
      · exact hlt
      · exact lt_trans hlt (hhead x hx)
    · exact List.pairwise_cons.mpr ⟨fun x hx => heq ▸ hhead x hx, hrest⟩
    · refine List.pairwise_cons.mpr ⟨fun x hx => ?_, ih hrest⟩
      rcases mem_insertEntry hx with hk | hx
      · rw [hk]
        exact lt_of_le_of_ne (not_lt.mp hlt) (Ne.symm heq)
      · exact hhead x hx

/-- The entries inserted left to right: the last value of a repeated key wins. -/
def insertAll (l acc : List (String × β)) : List (String × β) :=
  l.foldl (fun acc e => insertEntry e.1 e.2 acc) acc

theorem insertAll_sorted (l : List (String × β)) :
    ∀ {acc : List (String × β)}, acc.Pairwise (fun a b => a.1 < b.1) →
      (insertAll l acc).Pairwise fun a b => a.1 < b.1 := by
  induction l with
  | nil => exact fun h => h
  | cons e l ih => exact fun h => ih (insertEntry_sorted h)

/-- The map a list of entries builds. -/
def ofEntries (l : List (String × β)) : StringMap β :=
  ⟨insertAll l [], insertAll_sorted l List.Pairwise.nil⟩

/-- A key above every key present goes to the end. -/
theorem insertEntry_append {k : String} {v : β} {l : List (String × β)}
    (h : ∀ e ∈ l, e.1 < k) : insertEntry k v l = l ++ [(k, v)] := by
  induction l with
  | nil => rfl
  | cons e l ih =>
    have hlt := h e List.mem_cons_self
    rw [insertEntry, if_neg hlt.not_gt, if_neg hlt.ne', List.cons_append,
      ih fun x hx => h x (List.mem_cons_of_mem _ hx)]

theorem insertAll_of_sorted {l acc : List (String × β)}
    (h : (acc ++ l).Pairwise fun a b => a.1 < b.1) : insertAll l acc = acc ++ l := by
  induction l generalizing acc with
  | nil => simp [insertAll]
  | cons e l ih =>
    have hlast : ∀ x ∈ acc, x.1 < e.1 := fun x hx =>
      (List.pairwise_append.mp h).2.2 x hx e List.mem_cons_self
    have hassoc : acc ++ e :: l = (acc ++ [e]) ++ l := by simp
    rw [hassoc] at h ⊢
    rw [← ih h, ← insertEntry_append hlast]
    rfl

/-- Rebuilding a map from its own entries gives it back. -/
@[simp] theorem ofEntries_entries (m : StringMap β) : ofEntries m.entries = m := by
  apply StringMap.ext
  show insertAll m.entries [] = m.entries
  have hsorted : ([] ++ m.entries : List (String × β)).Pairwise fun a b => a.1 < b.1 := m.sorted
  rw [insertAll_of_sorted hsorted, List.nil_append]

end StringMap

end Patwari.Lib
