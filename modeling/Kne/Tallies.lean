import Mathlib.Algebra.BigOperators.Group.Finset.Basic
import Mathlib.Data.List.AList
import Mathlib.Tactic

/-!
Counting: lists and sums over a family that change at one place, how many members of a family hold a
key, and tables of objects that are made when their key is first acquired and stopped when it has
been released as often as it was acquired.
-/

namespace Kne.Tallies

variable {ι β κ : Type*} [DecidableEq ι] [DecidableEq κ]

omit [DecidableEq ι] in
lemma length_flatten_set {l : List (List ι)} {k : ℕ} {a : ι} {rest : List ι}
    (h : l[k]? = some (a :: rest)) : (l.set k rest).flatten.length + 1 = l.flatten.length := by
  induction l generalizing k with
  | nil => cases h
  | cons us l ih =>
    cases k with
    | zero =>
      obtain rfl := Option.some.inj h
      simp
    | succ k =>
      have hk := ih h
      simp only [List.set_cons_succ, List.flatten_cons, List.length_append]
      omega

lemma sum_update_add (S : Finset ι) (g : β → ℕ) (f : ι → β) {i : ι} (hi : i ∈ S) (v : β) :
    ∑ j ∈ S, g (Function.update f i v j) + g (f i) = ∑ j ∈ S, g (f j) + g v := by
  have hnew := Finset.add_sum_erase S (fun j => g (Function.update f i v j)) hi
  have hold := Finset.add_sum_erase S (fun j => g (f j)) hi
  have hrest : ∑ j ∈ S.erase i, g (Function.update f i v j) = ∑ j ∈ S.erase i, g (f j) :=
    Finset.sum_congr rfl fun j hj => by rw [Function.update_of_ne (Finset.ne_of_mem_erase hj)]
  rw [Function.update_self] at hnew
  omega

/-- How many members of `S` hold the key. -/
def tally (S : Finset ι) (holds : ι → Option κ) (k : κ) : ℕ := (S.filter (holds · = some k)).card

omit [DecidableEq ι] in
lemma tally_pos {S : Finset ι} {holds : ι → Option κ} {k : κ} :
    0 < tally S holds k ↔ ∃ i ∈ S, holds i = some k := by
  rw [tally, Finset.card_pos]
  simp [Finset.Nonempty]

omit [DecidableEq ι] in
lemma tally_congr {S : Finset ι} {holds holds' : ι → Option κ} (h : ∀ i ∈ S, holds i = holds' i) :
    tally S holds = tally S holds' := by
  funext k
  rw [tally, tally, Finset.filter_congr fun i hi => by rw [h i hi]]

lemma tally_update {S : Finset ι} (holds : ι → Option κ) {i : ι} (hi : i ∈ S) (o : Option κ)
    (k : κ) :
    tally S (Function.update holds i o) k + (if holds i = some k then 1 else 0) =
      tally S holds k + (if o = some k then 1 else 0) := by
  simp only [tally, Finset.card_filter]
  exact sum_update_add S (fun o' => if o' = some k then 1 else 0) holds hi o

lemma tally_acquire {S : Finset ι} {holds : ι → Option κ} {i : ι} {k : κ} (hi : i ∈ S)
    (h : holds i = none) :
    tally S (Function.update holds i (some k)) =
      Function.update (tally S holds) k (tally S holds k + 1) := by
  funext j
  have htally := tally_update holds hi (some k) j
  by_cases hj : j = k
  · subst hj
    simp only [h, reduceCtorEq, if_false, if_true] at htally
    simpa using htally
  · simpa [h, hj, Ne.symm hj] using htally

lemma tally_release {S : Finset ι} {holds : ι → Option κ} {i : ι} {k : κ} (hi : i ∈ S)
    (h : holds i = some k) :
    tally S (Function.update holds i none) =
      Function.update (tally S holds) k (tally S holds k - 1) := by
  funext j
  have htally := tally_update holds hi none j
  by_cases hj : j = k
  · subst hj
    simp only [h, reduceCtorEq, if_false, if_true] at htally
    rw [Function.update_self]
    omega
  · simpa [h, hj, Ne.symm hj] using htally

/-! ### Tables of counted objects -/

structure Entry where
  id : ℕ
  refCount : ℤ

/-- Objects under keys, the number of objects made so far, and those that were stopped. -/
structure Table (κ : Type*) where
  objs : AList (fun _ : κ => Entry) := ∅
  next : ℕ := 0
  stopped : List ℕ := []

namespace Table

variable (t : Table κ) (k : κ)

def acquire : Table κ :=
  match t.objs.lookup k with
  | some e => { t with objs := t.objs.insert k { e with refCount := e.refCount + 1 } }
  | none => { t with objs := t.objs.insert k ⟨t.next, 1⟩, next := t.next + 1 }

def release : Table κ :=
  match t.objs.lookup k with
  | some e =>
    if e.refCount - 1 ≤ 0 then { t with objs := t.objs.erase k, stopped := e.id :: t.stopped }
    else { t with objs := t.objs.insert k { e with refCount := e.refCount - 1 } }
  | none => t

end Table

/-- The table counts what is held: there is an object for every key that is held, with the number of
its holders, and every other object that was made is stopped. -/
structure Exact (t : Table κ) (held : κ → ℕ) : Prop where
  count : ∀ k, (t.objs.lookup k).map Entry.refCount = if held k = 0 then none else some (held k : ℤ)
  running : ∀ k e, t.objs.lookup k = some e → e.id < t.next ∧ e.id ∉ t.stopped
  unique : ∀ k k' e e', t.objs.lookup k = some e → t.objs.lookup k' = some e' → e.id = e'.id →
    k = k'
  made : ∀ id < t.next, id ∈ t.stopped ∨ ∃ k e, t.objs.lookup k = some e ∧ e.id = id
  stopped : ∀ id ∈ t.stopped, id < t.next

variable {t : Table κ} {held : κ → ℕ} {k : κ}

lemma exact_empty : Exact ({} : Table κ) fun _ => 0 where
  count _ := rfl
  running _ _ h := by simp at h
  unique _ _ _ _ h := by simp at h
  made _ h := by simp at h
  stopped _ h := by simp at h

lemma Exact.lookup_of_pos (h : Exact t held) (hk : 0 < held k) :
    ∃ e, t.objs.lookup k = some e ∧ e.refCount = held k := by
  have hc := h.count k
  rw [if_neg hk.ne'] at hc
  exact Option.map_eq_some_iff.mp hc

lemma Exact.lookup_eq_none (h : Exact t held) : t.objs.lookup k = none ↔ held k = 0 := by
  have hc := h.count k
  split at hc
  · next h0 => simpa [h0] using hc
  · next h0 =>
    obtain ⟨e, he, -⟩ := Option.map_eq_some_iff.mp hc
    simp [he, h0]

lemma Exact.recount (h : Exact t held) {e : Entry} (he : t.objs.lookup k = some e) {n : ℕ}
    (hn : n ≠ 0)
    {c : ℤ} (hc : c = n) :
    Exact { t with objs := t.objs.insert k { e with refCount := c } } (Function.update held k
      n) := by
  have hold : ∀ j f, (t.objs.insert k { e with refCount := c }).lookup j = some f →
      ∃ f', t.objs.lookup j = some f' ∧ f'.id = f.id := by
    intro j f hf
    by_cases hj : j = k
    · subst hj
      rw [AList.lookup_insert] at hf
      cases hf
      exact ⟨e, he, rfl⟩
    · rw [AList.lookup_insert_ne hj] at hf
      exact ⟨f, hf, rfl⟩
  refine ⟨fun j => ?_, fun j f hf => ?_, fun j j' f f' hf hf' hid => ?_, fun id hid => ?_,
    h.stopped⟩
  · by_cases hj : j = k
    · subst hj
      simp [hn, hc]
    · simpa [AList.lookup_insert_ne hj, hj] using h.count j
  · obtain ⟨f', hf', hid⟩ := hold j f hf
    rw [← hid]
    exact h.running j f' hf'
  · obtain ⟨g, hg, hgid⟩ := hold j f hf
    obtain ⟨g', hg', hgid'⟩ := hold j' f' hf'
    exact h.unique j j' g g' hg hg' (hgid.trans (hid.trans hgid'.symm))
  · rcases h.made id hid with hs | ⟨j, f, hf, hfid⟩
    · exact .inl hs
    · by_cases hj : j = k
      · subst hj
        obtain rfl : e = f := Option.some.inj (he.symm.trans hf)
        exact .inr ⟨j, _, AList.lookup_insert _, hfid⟩
      · exact .inr ⟨j, f, by rw [AList.lookup_insert_ne hj]; exact hf, hfid⟩

lemma Exact.acquire (h : Exact t held) (k : κ) :
    Exact (t.acquire k) (Function.update held k (held k + 1)) := by
  unfold Table.acquire
  split
  · next e he =>
    refine h.recount he (Nat.succ_ne_zero _) ?_
    have hc := h.count k
    rw [he] at hc
    split at hc
    · cases hc
    · rw [Option.some.inj hc]
      push_cast
      rfl
  · next hnone =>
    have h0 : held k = 0 := h.lookup_eq_none.mp hnone
    have hlook : ∀ j f, (t.objs.insert k ⟨t.next, 1⟩).lookup j = some f →
        (j = k ∧ f.id = t.next) ∨ (j ≠ k ∧ t.objs.lookup j = some f) := by
      intro j f hf
      by_cases hj : j = k
      · subst hj
        rw [AList.lookup_insert] at hf
        cases hf
        exact .inl ⟨rfl, rfl⟩
      · rw [AList.lookup_insert_ne hj] at hf
        exact .inr ⟨hj, hf⟩
    refine ⟨fun j => ?_, fun j f hf => ?_, fun j j' f f' hf hf' hid => ?_, fun id hid => ?_,
      fun id hid => Nat.lt_succ_of_lt (h.stopped id hid)⟩
    · by_cases hj : j = k
      · subst hj
        simp [h0]
      · simpa [AList.lookup_insert_ne hj, hj] using h.count j
    · rcases hlook j f hf with ⟨-, hid⟩ | ⟨-, hf⟩
      · rw [hid]
        exact ⟨Nat.lt_succ_self _, fun hs => absurd (h.stopped _ hs) (lt_irrefl _)⟩
      · exact ⟨Nat.lt_succ_of_lt (h.running j f hf).1, (h.running j f hf).2⟩
    · rcases hlook j f hf with ⟨hj, hi⟩ | ⟨-, hg⟩ <;>
        rcases hlook j' f' hf' with ⟨hj', hi'⟩ | ⟨-, hg'⟩
      · exact hj.trans hj'.symm
      · exact absurd (h.running j' f' hg').1 (by omega)
      · exact absurd (h.running j f hg).1 (by omega)
      · exact h.unique j j' f f' hg hg' hid
    · rcases Nat.lt_succ_iff_lt_or_eq.mp hid with hid | rfl
      · rcases h.made id hid with hs | ⟨j, f, hf, hfid⟩
        · exact .inl hs
        · have hj : j ≠ k := by
            rintro rfl
            rw [hnone] at hf
            cases hf
          exact .inr ⟨j, f, by rw [AList.lookup_insert_ne hj]; exact hf, hfid⟩
      · exact .inr ⟨k, _, AList.lookup_insert _, rfl⟩

lemma Exact.release (h : Exact t held) (hk : 0 < held k) :
    Exact (t.release k) (Function.update held k (held k - 1)) := by
  obtain ⟨e, he, hcount⟩ := h.lookup_of_pos hk
  unfold Table.release
  rw [he]
  dsimp only
  split
  · -- the last holder: the object is stopped
    next hlast =>
    have h1 : held k = 1 := by omega
    have hlook : ∀ j f, (t.objs.erase k).lookup j = some f → j ≠ k ∧ t.objs.lookup j = some f := by
      intro j f hf
      by_cases hj : j = k
      · subst hj
        simp at hf
      · rw [AList.lookup_erase_ne hj] at hf
        exact ⟨hj, hf⟩
    refine ⟨fun j => ?_, fun j f hf => ?_, fun j j' f f' hf hf' hid => ?_, fun id hid => ?_, ?_⟩
    · by_cases hj : j = k
      · subst hj
        simp [h1]
      · simpa [AList.lookup_erase_ne hj, hj] using h.count j
    · obtain ⟨hj, hf⟩ := hlook j f hf
      refine ⟨(h.running j f hf).1, fun hs => ?_⟩
      rcases List.mem_cons.mp hs with hs | hs
      · exact hj (h.unique j k f e hf he hs)
      · exact (h.running j f hf).2 hs
    · exact h.unique j j' f f' (hlook j f hf).2 (hlook j' f' hf').2 hid
    · rcases h.made id hid with hs | ⟨j, f, hf, hfid⟩
      · exact .inl (List.mem_cons_of_mem _ hs)
      · by_cases hj : j = k
        · subst hj
          obtain rfl : e = f := Option.some.inj (he.symm.trans hf)
          exact .inl (hfid ▸ List.mem_cons_self)
        · exact .inr ⟨j, f, by rw [AList.lookup_erase_ne hj]; exact hf, hfid⟩
    · intro id hs
      rcases List.mem_cons.mp hs with rfl | hs
      · exact (h.running k e he).1
      · exact h.stopped id hs
  · next hlast => exact h.recount he (by omega) (by omega)

end Kne.Tallies
