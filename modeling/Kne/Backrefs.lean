import Mathlib.Data.List.AList
import Mathlib.Tactic

/-!
Reverse references: items under keys, each of which refers to some keys, and beside them for every
key the keys of the items that refer to it. The reverse references are maintained: putting an item
takes the references of the item it replaces back, one after the other, and then adds its own.
-/

namespace Kne.Backrefs

variable {κ β : Type*} [DecidableEq κ]

/-- The items, and for each key the keys of the items that refer to it. -/
structure Index (κ β : Type*) where
  items : AList (fun _ : κ => β) := ∅
  back : κ → List κ := fun _ => []

/-- `k` refers to each of the keys `rs`. -/
def link (k : κ) (rs : List κ) (back : κ → List κ) : κ → List κ :=
  rs.foldl (fun b r => Function.update b r ((b r).insert k)) back

/-- `k` no longer refers to any of the keys `rs`. -/
def unlink (k : κ) (rs : List κ) (back : κ → List κ) : κ → List κ :=
  rs.foldl (fun b r => Function.update b r ((b r).filter (· ≠ k))) back

lemma mem_link {k : κ} {rs : List κ} {back : κ → List κ} {r j : κ} :
    j ∈ link k rs back r ↔ j ∈ back r ∨ j = k ∧ r ∈ rs := by
  induction rs generalizing back with
  | nil => simp [link]
  | cons a rs ih =>
    rw [link, List.foldl_cons, ← link, ih]
    by_cases ha : r = a
    · subst ha
      simp only [Function.update_self, List.mem_insert_iff, List.mem_cons]
      tauto
    · simp [ha]

lemma mem_unlink {k : κ} {rs : List κ} {back : κ → List κ} {r j : κ} :
    j ∈ unlink k rs back r ↔ j ∈ back r ∧ ¬ (j = k ∧ r ∈ rs) := by
  induction rs generalizing back with
  | nil => simp [unlink]
  | cons a rs ih =>
    rw [unlink, List.foldl_cons, ← unlink, ih]
    by_cases ha : r = a
    · subst ha
      simp only [Function.update_self, List.mem_filter, List.mem_cons, decide_eq_true_eq]
      tauto
    · simp [ha]

lemma nodup_link {k : κ} {rs : List κ} {back : κ → List κ} (h : ∀ r, (back r).Nodup) (r : κ) :
    (link k rs back r).Nodup := by
  induction rs generalizing back with
  | nil => exact h r
  | cons a rs ih =>
    refine ih fun r' => ?_
    by_cases ha : r' = a
    · subst ha
      simpa using (h r').insert
    · simpa [Function.update_of_ne ha] using h r'

lemma nodup_unlink {k : κ} {rs : List κ} {back : κ → List κ} (h : ∀ r, (back r).Nodup) (r : κ) :
    (unlink k rs back r).Nodup := by
  induction rs generalizing back with
  | nil => exact h r
  | cons a rs ih =>
    refine ih fun r' => ?_
    by_cases ha : r' = a
    · subst ha
      simpa using (h r').filter _
    · simpa [Function.update_of_ne ha] using h r'

variable (refs : β → List κ)

namespace Index

/-- The item `b` is put under `k`. -/
def put (s : Index κ β) (k : κ) (b : β) : Index κ β where
  items := s.items.insert k b
  back := link k (refs b) (unlink k ((s.items.lookup k).elim [] refs) s.back)

/-- The item under `k` is taken out, if there is one. -/
def delete (s : Index κ β) (k : κ) : Index κ β :=
  match s.items.lookup k with
  | none => s
  | some b => ⟨s.items.erase k, unlink k (refs b) s.back⟩

/-- The reverse references are those of the items, each once. -/
structure Exact (s : Index κ β) : Prop where
  mem : ∀ r k, k ∈ s.back r ↔ ∃ b, s.items.lookup k = some b ∧ r ∈ refs b
  nodup : ∀ r, (s.back r).Nodup

variable {refs} {s : Index κ β} {k j : κ} {b : β}

lemma lookup_put :
    (s.put refs k b).items.lookup j = if j = k then some b else s.items.lookup j := by
  by_cases h : j = k
  · subst h
    simp [put]
  · simp [put, h, AList.lookup_insert_ne h]

lemma lookup_delete :
    (s.delete refs k).items.lookup j = if j = k then none else s.items.lookup j := by
  unfold delete
  by_cases h : j = k
  · subst h
    split <;> simp_all
  · split <;> simp [h, AList.lookup_erase_ne h]

lemma exact_empty : Exact refs ({} : Index κ β) where
  mem r k := by simp
  nodup r := List.nodup_nil

lemma Exact.mem_unlink (h : Exact refs s) (r : κ) :
    j ∈ unlink k ((s.items.lookup k).elim [] refs) s.back r ↔
      j ≠ k ∧ ∃ b, s.items.lookup j = some b ∧ r ∈ refs b := by
  rw [Backrefs.mem_unlink, h.mem]
  constructor
  · rintro ⟨⟨b, hb, hr⟩, hnot⟩
    refine ⟨?_, b, hb, hr⟩
    rintro rfl
    exact hnot ⟨rfl, by rw [hb]; exact hr⟩
  · rintro ⟨hne, hb⟩
    exact ⟨hb, fun ⟨heq, _⟩ => hne heq⟩

lemma Exact.put (h : Exact refs s) (k : κ) (b : β) : Exact refs (s.put refs k b) where
  mem r j := by
    rw [lookup_put]
    change j ∈ link k (refs b) _ r ↔ _
    rw [mem_link, h.mem_unlink]
    by_cases hj : j = k
    · simp [hj]
    · simp [hj]
  nodup := nodup_link (nodup_unlink h.nodup)

lemma Exact.delete (h : Exact refs s) (k : κ) : Exact refs (s.delete refs k) := by
  have hmem := fun (r j : κ) => h.mem_unlink (k := k) (j := j) r
  refine ⟨fun r j => ?_, fun r => ?_⟩
  · rw [lookup_delete]
    unfold Index.delete
    cases hk : s.items.lookup k with
    | none =>
      rw [hk] at hmem
      by_cases hj : j = k
      · subst hj
        simp [h.mem, hk]
      · simp [h.mem, hj]
    | some old =>
      rw [hk] at hmem
      by_cases hj : j = k
      · simpa [hj] using hmem r k
      · simpa [hj] using hmem r j
  · unfold Index.delete
    split
    · exact h.nodup r
    · exact nodup_unlink h.nodup r

end Index

end Kne.Backrefs
