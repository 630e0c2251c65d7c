import Mathlib.Data.List.Nodup
import Mathlib.Tactic

/-!
Lists of items with keys. A pass over the list makes an index, from a key to the last place at which
it stands; an item is put in the place of the one with its key, or else at the end.
-/

namespace Kne.KeyedLists

variable {α κ : Type*} {key : α → κ} {items : List α} {x y : α}

variable (key) in
/-- No two items have the same key. -/
def Distinct (items : List α) : Prop := (items.map key).Nodup

lemma Distinct.eq (h : Distinct key items) (hx : x ∈ items) (hy : y ∈ items)
    (hkey : key x = key y) : x = y :=
  List.inj_on_of_nodup_map h hx hy hkey

lemma find?_eq_of_unique {p : α → Bool} (hx : x ∈ items) (hp : p x)
    (huniq : ∀ y ∈ items, p y → y = x) : items.find? p = some x := by
  obtain ⟨y, hy⟩ := Option.isSome_iff_exists.mp (List.find?_isSome.mpr ⟨x, hx, hp⟩)
  rw [hy, huniq y (List.mem_of_find?_eq_some hy) (List.find?_some hy)]

variable [DecidableEq κ]

variable (key) in
/-- The index that a pass over the items makes. -/
def index (items : List α) : κ → Option ℕ :=
  items.zipIdx.foldl (fun m e => Function.update m (key e.1) (some e.2)) fun _ => none

variable (key) in
/-- The item takes the place of the one with its key, if there is one. -/
def put (items : List α) (x : α) : List α :=
  match index key items (key x) with
  | some i => items.set i x
  | none => items ++ [x]

/-! ### The index -/

lemma index_concat (items : List α) (x : α) :
    index key (items ++ [x]) = Function.update (index key items) (key x) (some items.length) := by
  simp [index, List.zipIdx_append, List.foldl_append]

lemma index_some {k : κ} {i : ℕ} (h : index key items k = some i) :
    ∃ x, items[i]? = some x ∧ key x = k := by
  induction items using List.reverseRecOn with
  | nil => cases h
  | append_singleton items z ih =>
    rw [index_concat, Function.update_apply] at h
    split at h
    · next hk =>
      obtain rfl := Option.some.inj h
      exact ⟨z, by simp, hk.symm⟩
    · obtain ⟨x, hx, hkey⟩ := ih h
      obtain ⟨hi, -⟩ := List.getElem?_eq_some_iff.mp hx
      exact ⟨x, by rwa [List.getElem?_append_left hi], hkey⟩

lemma index_none {k : κ} (h : index key items k = none) (hx : x ∈ items) : key x ≠ k := by
  induction items using List.reverseRecOn with
  | nil => cases hx
  | append_singleton items z ih =>
    rw [index_concat, Function.update_apply] at h
    split at h
    · cases h
    · next hk =>
      rcases List.mem_append.mp hx with hx | hx
      · exact ih h hx
      · obtain rfl := List.mem_singleton.mp hx
        exact Ne.symm hk

/-! ### Putting an item -/

lemma mem_put_self (items : List α) (x : α) : x ∈ put key items x := by
  unfold put
  split
  · next i hi =>
    obtain ⟨z, hz, -⟩ := index_some hi
    obtain ⟨hlt, -⟩ := List.getElem?_eq_some_iff.mp hz
    exact List.mem_set hlt x
  · exact List.mem_append_right _ (List.mem_singleton_self x)

lemma mem_or_eq_of_mem_put (h : y ∈ put key items x) : y ∈ items ∨ y = x := by
  unfold put at h
  split at h
  · exact List.mem_or_eq_of_mem_set h
  · simpa using h

lemma mem_put_of_ne (h : y ∈ items) (hkey : key y ≠ key x) : y ∈ put key items x := by
  unfold put
  split
  · next i hi =>
    obtain ⟨z, hz, hzk⟩ := index_some hi
    obtain ⟨j, hj, rfl⟩ := List.mem_iff_getElem.mp h
    have hne : i ≠ j := by
      rintro rfl
      rw [List.getElem?_eq_getElem hj] at hz
      exact hkey ((Option.some.inj hz) ▸ hzk)
    exact List.mem_iff_getElem.mpr ⟨j, by simpa using hj, List.getElem_set_ne hne _⟩
  · exact List.mem_append_left _ h

lemma Distinct.put (h : Distinct key items) (x : α) : Distinct key (put key items x) := by
  unfold KeyedLists.put
  split
  · next i hi =>
    obtain ⟨z, hz, hzk⟩ := index_some hi
    obtain ⟨hlt, rfl⟩ := List.getElem?_eq_some_iff.mp hz
    have hkeys : (items.set i x).map key = items.map key := by
      rw [List.map_set, ← hzk, ← List.getElem_map key (h := by simpa using hlt),
        List.set_getElem_self]
    rw [Distinct, hkeys]
    exact h
  · next hi =>
    rw [Distinct, List.map_append, List.map_singleton, List.nodup_append]
    refine ⟨h, List.nodup_singleton _, fun a ha b hb => ?_⟩
    obtain ⟨z, hz, rfl⟩ := List.mem_map.mp ha
    rw [List.mem_singleton.mp hb]
    exact index_none hi hz

end Kne.KeyedLists
