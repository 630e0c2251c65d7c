import Mathlib.Tactic

/-!
A store of objects under keys, as an API server keeps it: an object is created under a key that is
not in use, looked up by its key, and deleted by its key.

Programs on a store can fail, and what they have done until then remains (`EStateM`). What a
program that succeeds has added is collected in a list (`Grown`); whether a later deletion restores
the store can be read off that list (`Grown.keep_eq_iff`).
-/

namespace Kne.Objects

variable {α κ : Type*} {key : α → κ}

/-- Objects, no two of them under one key. -/
@[ext] structure Store (key : α → κ) where
  objs : Finset α
  unique : Set.InjOn key objs

namespace Store

def empty : Store key := ⟨∅, by simp⟩

/-- The objects that satisfy `p`. -/
def keep (s : Store key) (p : α → Prop) [DecidablePred p] : Store key :=
  ⟨s.objs.filter p, s.unique.mono fun _ h => (Finset.mem_filter.mp h).1⟩

lemma mem_keep {s : Store key} {p : α → Prop} [DecidablePred p] {a : α} :
    a ∈ (s.keep p).objs ↔ a ∈ s.objs ∧ p a := Finset.mem_filter

lemma keep_keep (s : Store key) (p q : α → Prop) [DecidablePred p] [DecidablePred q] :
    (s.keep p).keep q = s.keep fun a => p a ∧ q a := by
  ext a
  simp only [mem_keep, and_assoc]

lemma keep_congr {s : Store key} {p q : α → Prop} [DecidablePred p] [DecidablePred q]
    (h : ∀ a ∈ s.objs, p a ↔ q a) : s.keep p = s.keep q := by
  ext a
  simp only [mem_keep]
  exact and_congr_right (h a)

variable [DecidableEq κ]

def Has (s : Store key) (k : κ) : Prop := ∃ a ∈ s.objs, key a = k

instance (s : Store key) (k : κ) : Decidable (s.Has k) :=
  inferInstanceAs (Decidable (∃ a ∈ s.objs, key a = k))

omit [DecidableEq κ] in
lemma not_has_empty (k : κ) : ¬ (empty : Store key).Has k := by
  rintro ⟨a, ha, -⟩
  exact absurd ha (Finset.notMem_empty a)

omit [DecidableEq κ] in
lemma existsUnique_of_has {s : Store key} {k : κ} (h : s.Has k) :
    ∃! a, a ∈ s.objs ∧ key a = k := by
  obtain ⟨a, ha, hk⟩ := h
  exact ⟨a, ⟨ha, hk⟩, fun b hb => s.unique hb.1 ha (hb.2.trans hk.symm)⟩

def get? (s : Store key) (k : κ) : Option α :=
  if h : s.Has k then some (s.objs.choose (key · = k) (existsUnique_of_has h)) else none

lemma get?_eq_some_iff {s : Store key} {k : κ} {a : α} :
    s.get? k = some a ↔ a ∈ s.objs ∧ key a = k := by
  constructor
  · intro h
    unfold get? at h
    split_ifs at h with hk
    cases h
    exact Finset.choose_spec (key · = k) s.objs (existsUnique_of_has hk)
  · rintro ⟨ha, hk⟩
    have hhas : s.Has k := ⟨a, ha, hk⟩
    have hc := Finset.choose_spec (key · = k) s.objs (existsUnique_of_has hhas)
    rw [get?, dif_pos hhas, s.unique hc.1 ha (hc.2.trans hk.symm)]

lemma get?_keep {s : Store key} {p : α → Prop} [DecidablePred p] {k : κ}
    (h : ∀ a, key a = k → p a) : (s.keep p).get? k = s.get? k := by
  ext a
  rw [get?_eq_some_iff, get?_eq_some_iff, mem_keep]
  exact ⟨fun ⟨ha, hk⟩ => ⟨ha.1, hk⟩, fun ⟨ha, hk⟩ => ⟨⟨ha, h a hk⟩, hk⟩⟩

/-- The object is added, unless its key is in use. -/
def create (s : Store key) (a : α) : Option (Store key) :=
  if h : s.Has (key a) then none
  else some ⟨s.objs.cons a fun ha => h ⟨a, ha, rfl⟩, by
    rw [Finset.coe_cons, Set.injOn_insert fun ha => h ⟨a, ha, rfl⟩]
    exact ⟨s.unique, fun ⟨b, hb, hk⟩ => h ⟨b, hb, hk⟩⟩⟩

/-- The object under the key is removed; there is none to remove if the key is not in use. -/
def delete (s : Store key) (k : κ) : Option (Store key) :=
  if s.Has k then some (s.keep (key · ≠ k)) else none

/-- A deletion whose failure to find the object is ignored. -/
def deleteIfFound (s : Store key) (k : κ) : Store key := (s.delete k).getD s

lemma deleteIfFound_eq (s : Store key) (k : κ) : s.deleteIfFound k = s.keep (key · ≠ k) := by
  unfold deleteIfFound delete
  split_ifs with h
  · rfl
  · refine Store.ext (Finset.filter_eq_self.mpr fun a ha hk => ?_).symm
    exact h ⟨a, ha, hk⟩

/-- Such a deletion for each of the keys; the order does not matter. -/
def deleteEach (s : Store key) (ks : Finset κ) : Store key := s.keep (key · ∉ ks)

lemma foldl_deleteIfFound (s : Store key) (ks : List κ) :
    ks.foldl deleteIfFound s = s.deleteEach ks.toFinset := by
  unfold deleteEach
  induction ks generalizing s with
  | nil => ext a; simp [mem_keep]
  | cons k ks ih =>
    rw [List.foldl_cons, ih, deleteIfFound_eq, keep_keep]
    refine keep_congr fun a _ => ?_
    rw [List.toFinset_cons, Finset.mem_insert, not_or]

end Store

/-! ### What a program adds -/

open Store

/-- The store `t` is `s` with the objects `as` added, none of which has a key of `s`. -/
structure Grown (s t : Store key) (as : List α) : Prop where
  mem : ∀ a, a ∈ t.objs ↔ a ∈ s.objs ∨ a ∈ as
  fresh : ∀ a ∈ as, ¬ s.Has (key a)

lemma Grown.refl (s : Store key) : Grown s s [] := ⟨by simp, by simp⟩

lemma Grown.trans {s t u : Store key} {as bs : List α} (h : Grown s t as) (h' : Grown t u bs) :
    Grown s u (as ++ bs) := by
  refine ⟨fun a => ?_, fun b hb => ?_⟩
  · rw [h'.mem, h.mem, List.mem_append, or_assoc]
  · rcases List.mem_append.mp hb with hb | hb
    · exact h.fresh b hb
    · rintro ⟨a, ha, hk⟩
      exact h'.fresh b hb ⟨a, (h.mem a).mpr (Or.inl ha), hk⟩

lemma grown_of_create [DecidableEq κ] {s t : Store key} {a : α} (h : s.create a = some t) :
    Grown s t [a] := by
  unfold Store.create at h
  split_ifs at h with hk
  cases h
  refine ⟨fun b => ?_, fun b hb => ?_⟩
  · rw [Finset.mem_cons, List.mem_singleton, or_comm]
  · rwa [List.mem_singleton.mp hb]

/-- **Undoing.** A deletion restores the store just when it takes all that was added and nothing
else. -/
theorem Grown.keep_eq_iff {s t : Store key} {as : List α} (h : Grown s t as) (p : α → Prop)
    [DecidablePred p] : t.keep p = s ↔ (∀ a ∈ s.objs, p a) ∧ ∀ a ∈ as, ¬ p a := by
  constructor
  · intro hts
    have hmem : ∀ a, a ∈ s.objs ↔ a ∈ t.objs ∧ p a := fun a => by rw [← mem_keep, hts]
    refine ⟨fun a ha => ((hmem a).mp ha).2, fun a ha hp => h.fresh a ha ⟨a, ?_, rfl⟩⟩
    exact (hmem a).mpr ⟨(h.mem a).mpr (Or.inr ha), hp⟩
  · rintro ⟨hs, has⟩
    ext a
    rw [mem_keep, h.mem]
    constructor
    · rintro ⟨ha | ha, hp⟩
      · exact ha
      · exact absurd hp (has a ha)
    · exact fun ha => ⟨Or.inl ha, hs a ha⟩

lemma Grown.deleteEach_eq [DecidableEq κ] {s t : Store key} {as : List α} (h : Grown s t as) :
    t.deleteEach (as.map key).toFinset = s := by
  refine (h.keep_eq_iff _).mpr ⟨fun a ha hk => ?_, fun a ha hk => hk ?_⟩
  · obtain ⟨b, hb, hba⟩ := List.mem_map.mp (List.mem_toFinset.mp hk)
    exact h.fresh b hb ⟨a, ha, hba.symm⟩
  · exact List.mem_toFinset.mpr (List.mem_map_of_mem ha)

lemma Grown.eq_of_nil {s t : Store key} (h : Grown s t []) : s = t := by
  ext a
  rw [h.mem]
  simp

/-! ### Programs that can fail -/

section Programs
universe u

variable {ε σ β γ : Type u}

lemma bind_apply_of_ok {x : EStateM ε σ β} {next : β → EStateM ε σ γ} {s t : σ} {b : β}
    (h : x s = .ok b t) : (x >>= next) s = next b t := by
  change (match x s with | .ok b u => next b u | .error e u => .error e u) = _
  rw [h]

lemma bind_eq_ok_iff {x : EStateM ε σ β} {next : β → EStateM ε σ γ} {s t : σ} {c : γ} :
    (x >>= next) s = .ok c t ↔ ∃ b u, x s = .ok b u ∧ next b u = .ok c t := by
  change (match x s with | .ok b u => next b u | .error e u => .error e u) = _ ↔ _
  cases x s with
  | ok b u => simp
  | error e u => simp

lemma seq_eq_ok_iff {x : EStateM ε σ PUnit} {next : PUnit → EStateM ε σ γ} {s t : σ} {c : γ} :
    (x >>= next) s = .ok c t ↔ ∃ u, x s = .ok ⟨⟩ u ∧ next ⟨⟩ u = .ok c t := by
  rw [bind_eq_ok_iff]
  exact ⟨fun ⟨_, u, h⟩ => ⟨u, h⟩, fun ⟨u, h⟩ => ⟨⟨⟩, u, h⟩⟩

lemma bind_eq_error_iff {x : EStateM ε σ β} {next : β → EStateM ε σ γ} {s t : σ} {e : ε} :
    (x >>= next) s = .error e t ↔
      x s = .error e t ∨ ∃ b u, x s = .ok b u ∧ next b u = .error e t := by
  change (match x s with | .ok b u => next b u | .error e u => .error e u) = _ ↔ _
  cases x s with
  | ok b u => simp
  | error e u => simp

lemma seq_eq_error_iff {x : EStateM ε σ PUnit} {next : PUnit → EStateM ε σ γ} {s t : σ} {e : ε} :
    (x >>= next) s = .error e t ↔
      x s = .error e t ∨ ∃ u, x s = .ok ⟨⟩ u ∧ next ⟨⟩ u = .error e t := by
  rw [bind_eq_error_iff]
  exact or_congr_right ⟨fun ⟨_, u, h⟩ => ⟨u, h⟩, fun ⟨u, h⟩ => ⟨⟨⟩, u, h⟩⟩

lemma pure_ne_error {b : β} {s t : σ} {e : ε} : (pure b : EStateM ε σ β) s ≠ .error e t := by
  change EStateM.Result.ok b s ≠ _
  simp

lemma throw_eq_error_iff {s t : σ} {e e' : ε} :
    (throw e : EStateM ε σ β) s = .error e' t ↔ e = e' ∧ s = t := by
  change EStateM.Result.error e s = _ ↔ _
  simp

lemma pure_eq_ok_iff {b c : β} {s t : σ} :
    (pure b : EStateM ε σ β) s = .ok c t ↔ b = c ∧ s = t := by
  change EStateM.Result.ok b s = _ ↔ _
  simp

/-- The state in which a program ends, whether it succeeds or fails. -/
def after (x : EStateM ε σ β) (s : σ) : σ :=
  match x s with
  | .ok _ t => t
  | .error _ t => t

lemma after_ok {x : EStateM ε σ β} {s t : σ} {b : β} (h : x s = .ok b t) : after x s = t := by
  rw [after, h]

lemma after_error {x : EStateM ε σ β} {s t : σ} {e : ε} (h : x s = .error e t) :
    after x s = t := by
  rw [after, h]

lemma after_bind {x : EStateM ε σ β} {next : β → EStateM ε σ γ} {s t : σ} {b : β}
    (h : x s = .ok b t) : after (x >>= next) s = after (next b) t := by
  rw [after, bind_apply_of_ok h, after]

/-- The program succeeds from the state. -/
def succeeds {ε σ : Type} (x : EStateM ε σ Unit) (s : σ) : Bool :=
  match x s with
  | .ok _ _ => true
  | .error _ _ => false

lemma exists_ok_of_succeeds {ε σ : Type} {x : EStateM ε σ Unit} {s : σ}
    (h : succeeds x s = true) : ∃ t, x s = .ok () t := by
  unfold succeeds at h
  cases hx : x s with
  | ok b t => exact ⟨t, rfl⟩
  | error e t => rw [hx] at h; cases h

lemma exists_error_of_not_succeeds {ε σ : Type} {x : EStateM ε σ Unit} {s : σ}
    (h : succeeds x s = false) : ∃ e t, x s = .error e t := by
  unfold succeeds at h
  cases hx : x s with
  | ok b t => rw [hx] at h; cases h
  | error e t => exact ⟨e, t, rfl⟩

end Programs

/-! ### What a program may add -/

section Adds
universe u

variable {α : Type u} {κ : Type*} {key : α → κ} {ε β γ : Type u} {q q' : α → Prop}

/-- Whatever becomes of the program, the objects that it adds satisfy `q`. -/
def Adds (q : α → Prop) (x : EStateM ε (Store key) β) : Prop :=
  ∀ s, ∀ a ∈ (after x s).objs, a ∈ s.objs ∨ q a

lemma adds_of_after_eq {x : EStateM ε (Store key) β} (h : ∀ s, after x s = s) : Adds q x :=
  fun s a ha => Or.inl (by rwa [h s] at ha)

lemma adds_pure (b : β) : Adds q (pure b : EStateM ε (Store key) β) :=
  adds_of_after_eq fun _ => rfl

lemma adds_throw (e : ε) : Adds q (throw e : EStateM ε (Store key) β) :=
  adds_of_after_eq fun _ => rfl

lemma Adds.bind {x : EStateM ε (Store key) β} {next : β → EStateM ε (Store key) γ} (hx : Adds q x)
    (hnext : ∀ b, Adds q (next b)) : Adds q (x >>= next) := by
  intro s a ha
  cases hs : x s with
  | error e u =>
    have hu : (x >>= next) s = .error e u := bind_eq_error_iff.mpr (Or.inl hs)
    rw [after_error hu] at ha
    exact hx s a (by rwa [after_error hs])
  | ok b u =>
    rw [after, bind_apply_of_ok hs] at ha
    rcases hnext b u a ha with ha | ha
    · exact hx s a (by rwa [after_ok hs])
    · exact Or.inr ha

end Adds

end Kne.Objects
