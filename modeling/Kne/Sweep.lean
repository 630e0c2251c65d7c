import Kne.Checked

/-!
Passes over the cells of a store in place. A pass rewrites one cell after the other, and to
rewrite a cell it may read the whole store as it is at that moment. When all it reads of the
other cells is a view which the rewriting does not change, every cell comes out as if it had been
rewritten first, and the order of the cells does not matter.
-/

namespace Kne.Sweep

open Kne.Checked

/-- A store with cells, and the rewriting of a cell. -/
structure Pass (σ ι α ω ε : Type*) where
  get : σ → ι → Option α
  put : σ → ι → α → σ
  view : σ → ω
  op : σ → ι → α → Except ε α
  get_put_self : ∀ s i a b, get s i = some a → get (put s i b) i = some b
  get_put_ne : ∀ s i j b, j ≠ i → get (put s i b) j = get s j
  view_put : ∀ s i a b, get s i = some a → op s i a = .ok b → view (put s i b) = view s
  op_view : ∀ s t i a, view s = view t → op s i a = op t i a

namespace Pass

variable {σ ι α ω ε : Type*} (P : Pass σ ι α ω ε)

/-- One turn: a cell that does not exist is passed over. -/
def turn (s : σ) (i : ι) : Except ε σ :=
  match P.get s i with
  | none => .ok s
  | some a => (P.op s i a).map (P.put s i)

def sweep (s : σ) (is : List ι) : Except ε σ := is.foldlM P.turn s

variable {P}

lemma sweep_cons_ok {s t : σ} {i : ι} {is : List ι} :
    P.sweep s (i :: is) = .ok t ↔ ∃ u, P.turn s i = .ok u ∧ P.sweep u is = .ok t :=
  foldlM_cons_ok_iff

/-- What a turn does. -/
structure Turned (P : Pass σ ι α ω ε) (s : σ) (i : ι) (t : σ) : Prop where
  view : P.view t = P.view s
  other : ∀ j, j ≠ i → P.get t j = P.get s j
  none : P.get s i = none → P.get t i = none
  some : ∀ a, P.get s i = some a → ∃ b, P.op s i a = .ok b ∧ P.get t i = some b

lemma turned_of_turn {s t : σ} {i : ι} (h : P.turn s i = .ok t) : Turned P s i t := by
  unfold turn at h
  cases hg : P.get s i with
  | none =>
    rw [hg] at h
    cases h
    exact ⟨rfl, fun _ _ => rfl, fun _ => hg, fun a ha => by simp [hg] at ha⟩
  | some a =>
    simp only [hg, map_ok_iff] at h
    obtain ⟨b, hop, rfl⟩ := h
    refine ⟨P.view_put s i a b hg hop, fun j hj => P.get_put_ne s i j b hj,
      fun hn => by simp [hg] at hn, fun a' ha' => ?_⟩
    rw [hg] at ha'
    cases ha'
    exact ⟨b, hop, P.get_put_self s i a b hg⟩

/-- **What a pass does.** The view stays, the cells that are not in the list stay, and a cell in
the list comes out as the operation makes it from the store before the pass. -/
theorem sweep_ok {s t : σ} {is : List ι} (hn : is.Nodup) (h : P.sweep s is = .ok t) :
    P.view t = P.view s ∧ (∀ i, i ∉ is ∨ P.get s i = none → P.get t i = P.get s i) ∧
      ∀ i ∈ is, ∀ a, P.get s i = some a → ∃ b, P.op s i a = .ok b ∧ P.get t i = some b := by
  induction is generalizing s with
  | nil =>
    cases h
    exact ⟨rfl, fun _ _ => rfl, fun i hi => absurd hi List.not_mem_nil⟩
  | cons i is ih =>
    obtain ⟨u, hu, hrest⟩ := sweep_cons_ok.mp h
    obtain ⟨hi, hn⟩ := List.nodup_cons.mp hn
    have ht := turned_of_turn hu
    obtain ⟨hv, hout, hin⟩ := ih hn hrest
    refine ⟨hv.trans ht.view, fun j hj => ?_, fun j hj a ha => ?_⟩
    · by_cases hji : j = i
      · subst hji
        rcases hj with hj | hj
        · exact absurd List.mem_cons_self hj
        · rw [hout j (Or.inl hi), ht.none hj, hj]
      · rw [← ht.other j hji]
        refine hout j ?_
        rcases hj with hj | hj
        · exact Or.inl fun h => hj (List.mem_cons_of_mem i h)
        · exact Or.inr (by rw [ht.other j hji]; exact hj)
    · by_cases hji : j = i
      · subst hji
        obtain ⟨b, hop, hb⟩ := ht.some a ha
        exact ⟨b, hop, by rw [hout j (Or.inl hi)]; exact hb⟩
      · have hj : j ∈ is := (List.mem_cons.mp hj).resolve_left hji
        obtain ⟨b, hop, hb⟩ := hin j hj a (by rw [ht.other j hji]; exact ha)
        exact ⟨b, by rw [P.op_view s u j a ht.view.symm]; exact hop, hb⟩

/-- A pass succeeds when the operation does on every cell. -/
theorem exists_sweep {s : σ} {is : List ι} (hn : is.Nodup)
    (h : ∀ i ∈ is, ∀ a, P.get s i = some a → ∃ b, P.op s i a = .ok b) :
    ∃ t, P.sweep s is = .ok t := by
  induction is generalizing s with
  | nil => exact ⟨s, rfl⟩
  | cons i is ih =>
    obtain ⟨hi, hn⟩ := List.nodup_cons.mp hn
    obtain ⟨u, hu⟩ : ∃ u, P.turn s i = .ok u := by
      unfold turn
      cases hg : P.get s i with
      | none => exact ⟨s, rfl⟩
      | some a =>
        obtain ⟨b, hb⟩ := h i List.mem_cons_self a hg
        exact ⟨P.put s i b, by simp [hb, Except.map]⟩
    have ht := turned_of_turn hu
    have hrest : ∀ j ∈ is, ∀ a, P.get u j = some a → ∃ b, P.op u j a = .ok b := by
      intro j hj a ha
      have hji : j ≠ i := by rintro rfl; exact hi hj
      rw [ht.other j hji] at ha
      rw [P.op_view u s j a ht.view]
      exact h j (List.mem_cons_of_mem i hj) a ha
    obtain ⟨t, ht'⟩ := ih hn hrest
    exact ⟨t, sweep_cons_ok.mpr ⟨u, hu, ht'⟩⟩

/-- **The order of a pass does not matter.** Stores with the same cells and the same view come out
with the same cells and the same view, whatever the order. -/
theorem sweep_perm {s s' t : σ} {is js : List ι} (hv : P.view s' = P.view s)
    (hg : ∀ i, P.get s' i = P.get s i) (hn : is.Nodup) (hp : is.Perm js)
    (h : P.sweep s is = .ok t) :
    ∃ u, P.sweep s' js = .ok u ∧ P.view u = P.view t ∧ ∀ i, P.get u i = P.get t i := by
  obtain ⟨hvt, hout, hin⟩ := sweep_ok hn h
  have hnj : js.Nodup := hp.nodup_iff.mp hn
  have hop : ∀ i a, P.op s' i a = P.op s i a := fun i a => P.op_view s' s i a hv
  obtain ⟨u, hu⟩ := exists_sweep (P := P) (s := s') hnj fun i hi a ha => by
    obtain ⟨b, hb, -⟩ := hin i (hp.mem_iff.mpr hi) a (by rw [← hg]; exact ha)
    exact ⟨b, by rw [hop]; exact hb⟩
  obtain ⟨hvu, hout', hin'⟩ := sweep_ok hnj hu
  refine ⟨u, hu, by rw [hvu, hv, hvt], fun i => ?_⟩
  by_cases hi : i ∈ is ∧ P.get s i ≠ none
  · obtain ⟨hi, hne⟩ := hi
    obtain ⟨a, ha⟩ := Option.ne_none_iff_exists'.mp hne
    obtain ⟨b, hb, hbt⟩ := hin i hi a ha
    obtain ⟨c, hc, hcu⟩ := hin' i (hp.mem_iff.mp hi) a (by rw [hg]; exact ha)
    rw [hop, hb] at hc
    cases hc
    rw [hbt, hcu]
  · rw [not_and_or, not_not] at hi
    have hi' : i ∉ js ∨ P.get s' i = none := by
      rw [hg]
      exact hi.imp_left fun h h' => h (hp.mem_iff.mpr h')
    rw [hout i hi, hout' i hi', hg]

end Pass

end Kne.Sweep
