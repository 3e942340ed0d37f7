/-
# Patwari.Lib.Keyset — descending keyset pagination over a changing collection.

A keyset traversal reads a collection page by page. The first page is unbounded and fixes a
*high watermark*, the greatest key it saw; every later page is bounded above by that watermark
and strictly below the last key of the page before it. Between two pages the collection may
change: rows appear, disappear, and (for a collection keyed by a mutable value) move.

This file names no concrete collection. A row type `ρ` has a `key : ρ → κ` into a linear order,
the collection at the moment page `n` is served is `coll n`, and `lim n` is the size that page
asked for. `Pages` is the run of the traversal, and the theorems are the facts a traversal keeps
whatever happens to the rows:

* `Pages.descending` — keys descend strictly across the whole traversal, so nothing repeats;
* `Pages.covers` — a key inside the window that is there whenever a page is served is returned;
* `Pages.exists_of_antitone` — if no key appears below the watermark the traversal terminates.
-/
import Mathlib.Data.List.Sort
import Mathlib.Data.List.Perm.Subperm
import Mathlib.Tactic

namespace Patwari.Lib.Keyset

variable {ρ κ : Type*} [LinearOrder κ] (key : ρ → κ)

/-! ## §1 — One page: sort descending, cut the window, take the limit. -/

/-- The rows by descending key. -/
def descending (rows : List ρ) : List ρ :=
  rows.insertionSort (fun a b => key b ≤ key a)

/-- The two bounds a continuation page carries: at or below the watermark, strictly below the
last key already returned. A first page has no bounds. -/
def inWindow : Option (κ × κ) → κ → Bool
  | none, _ => true
  | some (hw, after), k => decide (k ≤ hw) && decide (k < after)

/-- Every row inside the window, by descending key. -/
def matching (bounds : Option (κ × κ)) (rows : List ρ) : List ρ :=
  descending key (rows.filter fun r => inWindow bounds (key r))

/-- The watermark a page reports: the one its cursor carries, else its own first key. -/
def watermark (bounds : Option (κ × κ)) (page : List ρ) : Option κ :=
  match bounds with
  | some (hw, _) => some hw
  | none => page.head?.map key

@[simp] theorem inWindow_none (k : κ) : inWindow none k = true := rfl

@[simp] theorem inWindow_some (hw after k : κ) :
    inWindow (some (hw, after)) k = true ↔ k ≤ hw ∧ k < after := by
  simp [inWindow]

theorem matching_none (rows : List ρ) : matching key none rows = descending key rows := by
  simp [matching]

@[simp] theorem mem_descending {rows : List ρ} {r : ρ} :
    r ∈ descending key rows ↔ r ∈ rows :=
  List.mem_insertionSort _

@[simp] theorem mem_matching {bounds : Option (κ × κ)} {rows : List ρ} {r : ρ} :
    r ∈ matching key bounds rows ↔ r ∈ rows ∧ inWindow bounds (key r) = true := by
  simp [matching]

/-- Distinct keys make the sorted rows strictly descending. -/
theorem descending_strict {rows : List ρ} (h : (rows.map key).Nodup) :
    (descending key rows).Pairwise (fun a b => key b < key a) := by
  have hsorted : (descending key rows).Pairwise (fun a b => key b ≤ key a) := by
    let _ : Std.Total (fun a b : ρ => key b ≤ key a) := ⟨fun a b => le_total _ _⟩
    let _ : IsTrans ρ (fun a b : ρ => key b ≤ key a) := ⟨fun a b c hab hbc => hbc.trans hab⟩
    exact List.pairwise_insertionSort _ _
  have hperm : (descending key rows).Perm rows := List.perm_insertionSort _ _
  have hnodup : ((descending key rows).map key).Nodup :=
    ((hperm.map key).nodup_iff).mpr h
  have hne : (descending key rows).Pairwise (fun a b => key a ≠ key b) :=
    List.pairwise_map.mp hnodup
  exact hsorted.imp₂ (fun a b hle hne => lt_of_le_of_ne hle (Ne.symm hne)) hne

theorem matching_strict {rows : List ρ} (h : (rows.map key).Nodup) (bounds : Option (κ × κ)) :
    (matching key bounds rows).Pairwise (fun a b => key b < key a) := by
  refine descending_strict key ?_
  exact h.sublist (List.filter_sublist.map key)

/-- A prefix of a strictly descending list that ends in `r` holds exactly the keys from `key r`
up: the look-ahead rows cut off are all strictly below. -/
theorem mem_take_of_le {rows : List ρ} (h : rows.Pairwise (fun a b => key b < key a)) {n : ℕ}
    {r : ρ} (hr : (rows.take n).getLast? = some r) {x : ρ} (hx : x ∈ rows)
    (hle : key r ≤ key x) : x ∈ rows.take n := by
  rw [← List.take_append_drop n rows, List.mem_append] at hx
  refine hx.resolve_right fun hdrop => ?_
  have hlast : r ∈ rows.take n := List.mem_of_getLast? hr
  rw [← List.take_append_drop n rows, List.pairwise_append] at h
  exact absurd (h.2.2 r hlast x hdrop) (not_lt.mpr hle)

/-- The last row of a strictly descending list carries its least key. -/
theorem getLast_le {rows : List ρ} (h : rows.Pairwise (fun a b => key b < key a)) {r : ρ}
    (hr : rows.getLast? = some r) {x : ρ} (hx : x ∈ rows) : key r ≤ key x := by
  obtain ⟨init, rfl⟩ := List.getLast?_eq_some_iff.mp hr
  rcases List.mem_append.mp hx with hx | hx
  · exact (List.pairwise_append.mp h).2.2 x hx r (by simp) |>.le
  · rw [List.mem_singleton.mp hx]

/-- The first row of a strictly descending list carries its greatest key. -/
theorem le_head {rows : List ρ} (h : rows.Pairwise (fun a b => key b < key a)) {k : κ}
    (hk : rows.head?.map key = some k) {x : ρ} (hx : x ∈ rows) : key x ≤ k := by
  cases rows with
  | nil => simp at hk
  | cons r rest =>
    obtain rfl : key r = k := by simpa using hk
    rcases List.mem_cons.mp hx with rfl | hx
    · exact le_rfl
    · exact ((List.pairwise_cons.mp h).1 x hx).le

/-! ## §2 — A traversal: the pages until one has no look-ahead row. -/

variable (coll : ℕ → List ρ) (lim : ℕ → ℕ)

/-- **`Pages n bounds pages`** — the pages a client reads from the `n`th request on, following
cursors until a page has no look-ahead row. -/
inductive Pages : ℕ → Option (κ × κ) → List (List ρ) → Prop
  /-- The window holds no more rows than the page asks for: the traversal ends here. -/
  | last {n : ℕ} {bounds : Option (κ × κ)}
      (hlen : (matching key bounds (coll n)).length ≤ lim n) :
      Pages n bounds [matching key bounds (coll n)]
  /-- There is a look-ahead row: the next page starts below the last row kept. -/
  | more {n : ℕ} {bounds : Option (κ × κ)} {hw : κ} {r : ρ} {rest : List (List ρ)}
      (hlen : lim n < (matching key bounds (coll n)).length)
      (hhw : watermark key bounds (matching key bounds (coll n)) = some hw)
      (hr : ((matching key bounds (coll n)).take (lim n)).getLast? = some r)
      (hrest : Pages (n + 1) (some (hw, key r)) rest) :
      Pages n bounds ((matching key bounds (coll n)).take (lim n) :: rest)

variable {key coll lim}

/-- The watermark bounds every row of a page, whether it was carried or is being established. -/
theorem le_watermark {bounds : Option (κ × κ)} {rows : List ρ} (h : (rows.map key).Nodup)
    {hw : κ} (hhw : watermark key bounds (matching key bounds rows) = some hw) {r : ρ}
    (hr : r ∈ matching key bounds rows) : key r ≤ hw := by
  cases bounds with
  | none => exact le_head key (matching_strict key h none) hhw hr
  | some b =>
    obtain rfl : b.1 = hw := by simpa [watermark] using hhw
    exact ((inWindow_some _ _ _).mp ((mem_matching key).mp hr).2).1

namespace Pages

variable {n : ℕ} {bounds : Option (κ × κ)} {pages : List (List ρ)}

/-- Every returned row was in the collection when its page was served. -/
theorem mem_coll (h : Pages key coll lim n bounds pages) {i : ℕ} {page : List ρ}
    (hpage : pages[i]? = some page) {r : ρ} (hr : r ∈ page) : r ∈ coll (n + i) := by
  induction h generalizing i with
  | @last n bounds _ =>
    cases i with
    | zero =>
      obtain rfl : matching key bounds (coll n) = page := by simpa using hpage
      exact ((mem_matching key).mp hr).1
    | succ i => simp at hpage
  | @more n bounds hw last rest _ _ _ _ ih =>
    cases i with
    | zero =>
      obtain rfl : (matching key bounds (coll n)).take (lim n) = page := by simpa using hpage
      exact ((mem_matching key).mp (List.mem_of_mem_take hr)).1
    | succ i =>
      rw [← Nat.succ_add_eq_add_succ]
      exact ih hpage

/-- A carried watermark and `after` bound every row of the rest of the traversal. -/
theorem in_window (h : Pages key coll lim n bounds pages) :
    ∀ r ∈ pages.flatten, inWindow bounds (key r) = true := by
  induction h with
  | last _ =>
    intro r hr
    rw [List.flatten_singleton] at hr
    exact ((mem_matching key).mp hr).2
  | @more n bounds hw last rest _ hhw hlast _ ih =>
    intro r hr
    rw [List.flatten_cons, List.mem_append] at hr
    rcases hr with hr | hr
    · exact ((mem_matching key).mp (List.mem_of_mem_take hr)).2
    · cases bounds with
      | none => rfl
      | some b =>
        have hmem := (mem_matching key).mp (List.mem_of_mem_take (List.mem_of_getLast? hlast))
        have hnext := (inWindow_some _ _ _).mp (ih r hr)
        obtain rfl : b.1 = hw := by simpa [watermark] using hhw
        exact (inWindow_some _ _ _).mpr
          ⟨hnext.1, hnext.2.trans ((inWindow_some _ _ _).mp hmem.2).2⟩

/-- **`Pages.descending`** — keys descend strictly across all pages of a traversal, whatever
happens to the collection between them. -/
theorem descending (hkeys : ∀ m, ((coll m).map key).Nodup)
    (h : Pages key coll lim n bounds pages) :
    pages.flatten.Pairwise (fun a b => key b < key a) := by
  induction h with
  | @last n bounds _ =>
    rw [List.flatten_singleton]
    exact matching_strict key (hkeys n) bounds
  | @more n bounds hw last rest _ hhw hlast hrest ih =>
    rw [List.flatten_cons, List.pairwise_append]
    have hpage := (matching_strict key (hkeys n) bounds).sublist (List.take_sublist (lim n) _)
    refine ⟨hpage, ih, fun a ha b hb => ?_⟩
    have hbelow := (inWindow_some _ _ _).mp (hrest.in_window b hb)
    exact hbelow.2.trans_le (getLast_le key hpage hlast ha)

/-- No key is returned twice. -/
theorem nodup_keys (hkeys : ∀ m, ((coll m).map key).Nodup)
    (h : Pages key coll lim n bounds pages) : (pages.flatten.map key).Nodup := by
  refine List.pairwise_map.mpr ((h.descending hkeys).imp ?_)
  intro a b hlt
  exact hlt.ne'

/-- No returned row lies above the watermark the first page established. -/
theorem le_watermark (hkeys : ∀ m, ((coll m).map key).Nodup)
    (h : Pages key coll lim n bounds pages) {hw : κ}
    (hhw : watermark key bounds (matching key bounds (coll n)) = some hw) :
    ∀ r ∈ pages.flatten, key r ≤ hw := by
  cases h with
  | last _ =>
    intro r hr
    rw [List.flatten_singleton] at hr
    exact Keyset.le_watermark (hkeys n) hhw hr
  | @more _ _ hw' last rest _ hhw' hlast hrest =>
    intro r hr
    rw [List.flatten_cons, List.mem_append] at hr
    rcases hr with hr | hr
    · exact Keyset.le_watermark (hkeys n) hhw (List.mem_of_mem_take hr)
    · obtain rfl : hw' = hw := Option.some.inj (hhw'.symm.trans hhw)
      exact ((inWindow_some _ _ _).mp (hrest.in_window r hr)).1

/-- **`Pages.covers`** — a key inside the window that some row carries whenever a page is served
is returned. The row cut off by a page's limit is strictly below the page's last key, so it is
still inside the next page's window; the row the cursor names need not exist any more. -/
theorem covers (hkeys : ∀ m, ((coll m).map key).Nodup)
    (h : Pages key coll lim n bounds pages) {k : κ} (hk : inWindow bounds k = true)
    (hthere : ∀ m, n ≤ m → m < n + pages.length → ∃ r ∈ coll m, key r = k) :
    ∃ r ∈ pages.flatten, key r = k := by
  induction h with
  | @last n bounds _ =>
    obtain ⟨r, hr, rfl⟩ := hthere n le_rfl (by simp)
    refine ⟨r, ?_, rfl⟩
    rw [List.flatten_singleton]
    exact (mem_matching key).mpr ⟨hr, hk⟩
  | @more n bounds hw last rest _ hhw hlast _ ih =>
    obtain ⟨r, hr, rfl⟩ := hthere n le_rfl (by simp)
    have hmatch : r ∈ matching key bounds (coll n) := (mem_matching key).mpr ⟨hr, hk⟩
    rw [List.flatten_cons]
    by_cases hle : key last ≤ key r
    · have hpage := mem_take_of_le key (matching_strict key (hkeys n) bounds) hlast hmatch hle
      exact ⟨r, List.mem_append_left _ hpage, rfl⟩
    · have hnext : inWindow (some (hw, key last)) (key r) = true :=
        (inWindow_some _ _ _).mpr
          ⟨Keyset.le_watermark (hkeys n) hhw hmatch, not_le.mp hle⟩
      obtain ⟨x, hx, hxk⟩ := ih hnext fun m hm hlt =>
        hthere m (by omega) (by simp only [List.length_cons]; omega)
      exact ⟨x, List.mem_append_right _ hx, hxk⟩

end Pages

/-! ## §3 — Termination. -/

/-- A page with a look-ahead row keeps its first row, so the rest of the window is smaller:
if no key appears at or below the watermark, the next window has strictly fewer rows. -/
theorem matching_shrinks {bounds : Option (κ × κ)} {now next : List ρ} {hw : κ} {r : ρ} {l : ℕ}
    (hnext : (next.map key).Nodup)
    (hhw : watermark key bounds (matching key bounds now) = some hw)
    (hr : ((matching key bounds now).take l).getLast? = some r)
    (hsub : ∀ x ∈ next, key x ≤ hw → key x ∈ now.map key) :
    (matching key (some (hw, key r)) next).length < (matching key bounds now).length := by
  have hrmem : r ∈ matching key bounds now := List.mem_of_mem_take (List.mem_of_getLast? hr)
  have hnd : (key r :: (matching key (some (hw, key r)) next).map key).Nodup := by
    refine List.nodup_cons.mpr ⟨?_, ?_⟩
    · intro hmem
      obtain ⟨x, hx, hxr⟩ := List.mem_map.mp hmem
      have hlt := ((inWindow_some _ _ _).mp ((mem_matching key).mp hx).2).2
      exact absurd hxr hlt.ne
    · exact List.pairwise_map.mpr ((matching_strict key hnext _).imp fun h => h.ne')
  have hsubset : (key r :: (matching key (some (hw, key r)) next).map key) ⊆
      (matching key bounds now).map key := by
    intro k hk
    rcases List.mem_cons.mp hk with rfl | hk
    · exact List.mem_map_of_mem hrmem
    · obtain ⟨x, hx, rfl⟩ := List.mem_map.mp hk
      obtain ⟨hxnext, hxwin⟩ := (mem_matching key).mp hx
      obtain ⟨hxhw, hxr⟩ := (inWindow_some _ _ _).mp hxwin
      obtain ⟨y, hy, hyx⟩ := List.mem_map.mp (hsub x hxnext hxhw)
      refine List.mem_map.mpr ⟨y, (mem_matching key).mpr ⟨hy, ?_⟩, hyx⟩
      rw [hyx]
      cases bounds with
      | none => rfl
      | some b =>
        have hrwin := (inWindow_some _ _ _).mp ((mem_matching key).mp hrmem).2
        obtain rfl : b.1 = hw := by simpa [watermark] using hhw
        exact (inWindow_some _ _ _).mpr ⟨hxhw, hxr.trans hrwin.2⟩
  have hlen := (hnd.subperm hsubset).length_le
  simp only [List.length_cons, List.length_map] at hlen
  omega

/-- The bound the pages from the `n`th on stay under, once one page has been served. -/
theorem Pages.exists_of_bounded (hkeys : ∀ m, ((coll m).map key).Nodup)
    (hlim : ∀ m, 1 ≤ lim m) {hw : κ}
    (hanti : ∀ m, ∀ x ∈ coll (m + 1), key x ≤ hw → key x ∈ (coll m).map key) :
    ∀ (size n : ℕ) (bounds : Option (κ × κ)),
      (matching key bounds (coll n)).length ≤ size →
      (∀ k, watermark key bounds (matching key bounds (coll n)) = some k → k = hw) →
      ∃ pages, Pages key coll lim n bounds pages := by
  intro size
  induction size with
  | zero =>
    intro n bounds hsize _
    exact ⟨_, Pages.last (by omega)⟩
  | succ size ih =>
    intro n bounds hsize hfix
    by_cases hlen : (matching key bounds (coll n)).length ≤ lim n
    · exact ⟨_, Pages.last hlen⟩
    · have hpage : ((matching key bounds (coll n)).take (lim n)) ≠ [] := by
        intro hnil
        have hzero := congrArg List.length hnil
        have := hlim n
        simp only [List.length_take, List.length_nil] at hzero
        omega
      obtain ⟨r, hr⟩ := Option.ne_none_iff_exists'.mp
        (fun hnone => hpage (List.getLast?_eq_none_iff.mp hnone))
      obtain ⟨k, hk⟩ : ∃ k, watermark key bounds (matching key bounds (coll n)) = some k := by
        cases bounds with
        | some b => exact ⟨b.1, rfl⟩
        | none =>
          cases hm : matching key none (coll n) with
          | nil => rw [hm] at hlen; simp at hlen
          | cons x xs => exact ⟨key x, by simp [watermark]⟩
      obtain rfl : k = hw := hfix k hk
      have hshrink := matching_shrinks (hkeys (n + 1)) hk hr (hanti n)
      obtain ⟨rest, hrest⟩ := ih (n + 1) (some (k, key r)) (by omega) (by
        intro k' hk'
        simpa [watermark] using hk'.symm)
      exact ⟨_, Pages.more (not_le.mp hlen) hk hr hrest⟩

/-- **`Pages.exists_of_antitone`** — if no key appears at or below the first page's watermark,
following cursors reaches a last page. -/
theorem Pages.exists_of_antitone (hkeys : ∀ m, ((coll m).map key).Nodup)
    (hlim : ∀ m, 1 ≤ lim m) {n : ℕ} {bounds : Option (κ × κ)}
    (hanti : ∀ hw, watermark key bounds (matching key bounds (coll n)) = some hw →
      ∀ m, ∀ x ∈ coll (m + 1), key x ≤ hw → key x ∈ (coll m).map key) :
    ∃ pages, Pages key coll lim n bounds pages := by
  cases hw : watermark key bounds (matching key bounds (coll n)) with
  | some k =>
    exact Pages.exists_of_bounded hkeys hlim (hanti k hw) _ n bounds le_rfl fun k' hk' =>
      Option.some.inj (hk'.symm.trans hw)
  | none =>
    refine ⟨_, Pages.last ?_⟩
    cases bounds with
    | some b => simp [watermark] at hw
    | none =>
      cases hm : matching key none (coll n) with
      | nil => simp
      | cons x xs => rw [hm] at hw; simp [watermark] at hw

end Patwari.Lib.Keyset
