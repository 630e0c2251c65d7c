import Kne.NodeModel

/-!
The parts of which the programs of a node are made: what they have done when they succeed and when
they fail, and what they can add to the store in either case.
-/

namespace Kne.NodePrograms

open Kne.Objects Kne.NodeModel

variable {w : Env} {pb : Proto} {s t : Cluster} {α : Type} {a : α} {e : Err}

/-! ### Programs that succeed -/

lemma grown_createObj {o : Obj} {u : Unit} (h : createObj w o s = .ok u t) : Grown s t [o] := by
  unfold createObj at h
  cases hr : w.refuse o.key with
  | some err => simp [hr] at h
  | none =>
    cases hc : s.create o with
    | none => simp [hr, hc] at h
    | some t' =>
      simp only [hr, hc, EStateM.Result.ok.injEq, true_and] at h
      rw [← h]
      exact grown_of_create hc

lemma createObj_ok {o : Obj} (hr : w.refuse o.key = none) (hs : ¬ s.Has o.key) :
    ∃ t, createObj w o s = .ok () t := by
  unfold createObj
  rw [hr]
  simp only [Store.create, dif_neg hs]
  exact ⟨_, rfl⟩

lemma wrap_ok_iff {pre : String} {x : Prog α} : wrap pre x s = .ok a t ↔ x s = .ok a t := by
  unfold wrap
  cases x s <;> simp

lemma undoing_ok_iff {created : List Service} {x : Prog α} :
    undoing created x s = .ok a t ↔ x s = .ok a t := by
  unfold undoing
  cases x s <;> simp

lemma orFail_ok_iff {x : Except String α} : orFail x s = .ok a t ↔ x = .ok a ∧ s = t := by
  unfold orFail
  cases x with
  | ok b => simp [pure_eq_ok_iff]
  | error err =>
    change EStateM.Result.error (Err.failed err) s = _ ↔ _
    simp

lemma throw_ne_ok {e : Err} : (throw e : Prog α) s ≠ .ok a t := by
  change EStateM.Result.error e s ≠ _
  simp

/-- A request to create an object under the key succeeds. -/
def Free (w : Env) (s : Cluster) (k : Key) : Prop := w.refuse k = none ∧ ¬ s.Has k

lemma createObj_ok_iff (o : Obj) : (∃ t, createObj w o s = .ok () t) ↔ Free w s o.key := by
  constructor
  · rintro ⟨t, h⟩
    have hg := grown_createObj h
    refine ⟨?_, hg.fresh o List.mem_cons_self⟩
    by_contra hr
    obtain ⟨err, herr⟩ := Option.ne_none_iff_exists'.mp hr
    simp [createObj, herr] at h
  · rintro ⟨hr, hs⟩
    exact createObj_ok hr hs

lemma not_free_of_error {o : Obj} (h : createObj w o s = .error e t) : ¬ Free w s o.key := by
  intro hf
  obtain ⟨t', hok⟩ := (createObj_ok_iff o).mpr hf
  rw [hok] at h
  cases h

/-! ### Programs that fail -/

lemma createObj_error {o : Obj} (h : createObj w o s = .error e t) : s = t := by
  unfold createObj at h
  cases hr : w.refuse o.key with
  | some err =>
    simp only [hr, EStateM.Result.error.injEq] at h
    exact h.2
  | none =>
    cases hc : s.create o with
    | none =>
      simp only [hr, hc, EStateM.Result.error.injEq] at h
      exact h.2
    | some t' => simp [hr, hc] at h

lemma orFail_error {x : Except String α} (h : orFail x s = .error e t) :
    s = t ∧ ∃ err, x = .error err := by
  unfold orFail at h
  cases x with
  | ok b => exact absurd h pure_ne_error
  | error err => exact ⟨(throw_eq_error_iff.mp h).2, err, rfl⟩

lemma wrap_error {pre : String} {x : Prog α} (h : wrap pre x s = .error e t) :
    ∃ e', e = e'.wrap pre ∧ x s = .error e' t := by
  unfold wrap at h
  cases hx : x s with
  | ok b u => simp [hx] at h
  | error e' u =>
    simp only [hx, EStateM.Result.error.injEq] at h
    exact ⟨e', h.1.symm, by rw [h.2]⟩

lemma undoing_error {created : List Service} {x : Prog α} (h : undoing created x s = .error e t) :
    ∃ u, x s = .error e u ∧ t = rollback created u := by
  unfold undoing at h
  cases hx : x s with
  | ok b u => simp [hx] at h
  | error e' u =>
    simp only [hx, EStateM.Result.error.injEq] at h
    exact ⟨u, by rw [h.1], h.2.symm⟩

/-! ### Resources and constraints -/

lemma mustParse_ok {quantity : String} {z : Unit} (h : mustParse w quantity s = .ok z t) :
    s = t := by
  unfold mustParse at h
  cases hq : w.quantityErr quantity with
  | none => rw [hq] at h; exact (pure_eq_ok_iff.mp h).2
  | some err => rw [hq] at h; exact absurd h throw_ne_ok

lemma parseConstraint_ok {name : String} {z : Unit} (h : parseConstraint w pb name s = .ok z t) :
    s = t := by
  unfold parseConstraint at h
  cases hc : pb.constraints.lookup name with
  | none => rw [hc] at h; exact (pure_eq_ok_iff.mp h).2
  | some quantity => rw [hc] at h; exact mustParse_ok h

lemma toResourceRequirements_ok {z : Unit} (h : toResourceRequirements w pb s = .ok z t) :
    s = t := by
  obtain ⟨u, hcpu, hmemory⟩ := seq_eq_ok_iff.mp h
  exact (parseConstraint_ok hcpu).trans (parseConstraint_ok hmemory)

lemma resources_seq_ok {next : Unit → Prog α}
    (h : (toResourceRequirements w pb >>= next) s = .ok a t) : next () s = .ok a t := by
  obtain ⟨u, hres, hrest⟩ := seq_eq_ok_iff.mp h
  rwa [toResourceRequirements_ok hres]

lemma parseConstraint_error {name : String} (h : parseConstraint w pb name s = .error e t) :
    ∃ text, e = .panic text := by
  unfold parseConstraint at h
  cases hc : pb.constraints.lookup name with
  | none =>
    rw [hc] at h
    exact absurd h pure_ne_error
  | some quantity =>
    rw [hc] at h
    simp only [mustParse] at h
    cases hq : w.quantityErr quantity with
    | none =>
      rw [hq] at h
      exact absurd h pure_ne_error
    | some err =>
      rw [hq] at h
      exact ⟨_, (throw_eq_error_iff.mp h).1.symm⟩

lemma toResourceRequirements_error (h : toResourceRequirements w pb s = .error e t) :
    ∃ text, e = .panic text := by
  rcases seq_eq_error_iff.mp h with h | ⟨u, -, h⟩
  · exact parseConstraint_error h
  · exact parseConstraint_error h

lemma validateConstraints_ok_iff {pre : String} {z : Unit} :
    validateConstraints w pre s = .ok z t ↔ w.constraintsErr = none ∧ s = t := by
  unfold validateConstraints
  cases w.constraintsErr with
  | none => simp [pure_eq_ok_iff]
  | some err => simpa using throw_ne_ok

/-! ### What they add -/

section Adds
variable {q : Obj → Prop}

lemma adds_createObj {o : Obj} (h : q o) : Adds q (createObj w o) := by
  intro s a ha
  cases hs : createObj w o s with
  | ok u t =>
    rw [after_ok hs, (grown_createObj hs).mem, List.mem_singleton] at ha
    rcases ha with ha | rfl
    · exact Or.inl ha
    · exact Or.inr h
  | error e t =>
    rw [after_error hs, ← createObj_error hs] at ha
    exact Or.inl ha

lemma adds_removeObj (k : Key) : Adds q (removeObj k) := by
  intro s a ha
  change a ∈ (s.deleteIfFound k).objs at ha
  rw [Store.deleteIfFound_eq, Store.mem_keep] at ha
  exact Or.inl ha.1

lemma adds_orFail (x : Except String α) : Adds q (orFail x) := by
  cases x with
  | ok a => exact adds_pure a
  | error err => exact adds_throw _

lemma Adds.wrap {x : Prog α} (pre : String) (h : Adds q x) : Adds q (wrap pre x) := by
  intro s a ha
  refine h s a ?_
  unfold NodeModel.wrap after at ha
  unfold after
  cases hs : x s <;> simpa [hs] using ha

lemma adds_parseConstraint (name : String) : Adds q (parseConstraint w pb name) := by
  unfold parseConstraint
  cases pb.constraints.lookup name with
  | none => exact adds_pure ()
  | some quantity =>
    simp only [mustParse]
    cases w.quantityErr quantity with
    | none => exact adds_pure ()
    | some err => exact adds_throw _

lemma adds_toResourceRequirements : Adds q (toResourceRequirements w pb) :=
  (adds_parseConstraint "cpu").bind fun _ => adds_parseConstraint "memory"

lemma adds_validateConstraints (pre : String) : Adds q (validateConstraints w pre) := by
  unfold validateConstraints
  cases w.constraintsErr with
  | none => exact adds_pure ()
  | some err => exact adds_throw _

end Adds

end Kne.NodePrograms
