import Mathlib.Tactic

/-!
Runs of a machine whose every choice is an action: a step function that refuses the
actions which are not enabled, the state a list of actions leads to, and the induction
rules for invariants of whole runs.

Nothing is assumed of the states and actions. An interleaving of concurrent parties is a
list of actions, one for each atomic step of a party, in the order in which they happen.
-/

namespace Kne.Runs

variable {σ α : Type*} (step : σ → α → Option σ)

/-- The state the actions lead to, if each is enabled in its turn. -/
def run : σ → List α → Option σ
  | s, [] => some s
  | s, a :: as => (step s a).bind fun t => run t as

@[simp] lemma run_nil (s : σ) : run step s [] = some s := rfl

@[simp] lemma run_cons (s : σ) (a : α) (as : List α) :
    run step s (a :: as) = (step s a).bind fun t => run step t as := rfl

lemma run_append (s : σ) (as bs : List α) :
    run step s (as ++ bs) = (run step s as).bind fun t => run step t bs := by
  induction as generalizing s with
  | nil => simp
  | cons a as ih =>
    rw [List.cons_append, run_cons, run_cons]
    cases step s a with
    | none => rfl
    | some t => simpa using ih t

lemma run_trans {s t u : σ} {as bs : List α} (h : run step s as = some t)
    (h' : run step t bs = some u) : run step s (as ++ bs) = some u := by
  rw [run_append, h]; exact h'

lemma run_trans_cons {s t u v : σ} {as bs : List α} {a : α} (h : run step s as = some t)
    (ha : step t a = some u) (h' : run step u bs = some v) :
    run step s (as ++ a :: bs) = some v := by
  refine run_trans step h ?_
  rw [run_cons, ha]
  exact h'

/-- Every step of the run is taken in a state in which `ok` allows it. -/
def Along (ok : σ → α → Prop) : σ → List α → Prop
  | _, [] => True
  | s, a :: as => ok s a ∧ ∀ t, step s a = some t → Along ok t as

instance decidableAlong (ok : σ → α → Prop) [∀ s a, Decidable (ok s a)] :
    (s : σ) → (as : List α) → Decidable (Along step ok s as)
  | _, [] => .isTrue trivial
  | s, a :: as =>
    match h : step s a with
    | none => decidable_of_iff (ok s a) (by simp [Along, h])
    | some t =>
      haveI := decidableAlong ok t as
      decidable_of_iff (ok s a ∧ Along step ok t as) (by simp [Along, h])

variable {step}

/-- **Invariants of restricted runs.** What every allowed step preserves holds at the end of
every run of allowed steps. -/
theorem run_inv_along {P : σ → Prop} {ok : σ → α → Prop}
    (hstep : ∀ s a t, P s → ok s a → step s a = some t → P t)
    {s t : σ} {as : List α} (hs : P s) (hok : Along step ok s as)
    (h : run step s as = some t) : P t := by
  induction as generalizing s with
  | nil => cases h; exact hs
  | cons a as ih =>
    rw [run_cons, Option.bind_eq_some_iff] at h
    obtain ⟨u, hu, hrest⟩ := h
    exact ih (hstep s a u hs hok.1 hu) (hok.2 u hu) hrest

lemma along_of_mem {P : α → Prop} {as : List α} (h : ∀ a ∈ as, P a) (s : σ) :
    Along step (fun _ a => P a) s as := by
  induction as generalizing s with
  | nil => trivial
  | cons a as ih =>
    exact ⟨h a List.mem_cons_self, fun t _ => ih (fun b hb => h b (List.mem_cons_of_mem a hb)) t⟩

lemma Along.and {ok ok' : σ → α → Prop} {s : σ} {as : List α} (h : Along step ok s as)
    (h' : Along step ok' s as) : Along step (fun s a => ok s a ∧ ok' s a) s as := by
  induction as generalizing s with
  | nil => trivial
  | cons a as ih => exact ⟨⟨h.1, h'.1⟩, fun t ht => ih (h.2 t ht) (h'.2 t ht)⟩

lemma Along.append {ok : σ → α → Prop} {s t : σ} {as bs : List α} (h : Along step ok s as)
    (hrun : run step s as = some t) (h' : Along step ok t bs) : Along step ok s (as ++ bs) := by
  induction as generalizing s with
  | nil =>
    cases hrun
    exact h'
  | cons a as ih =>
    rw [run_cons, Option.bind_eq_some_iff] at hrun
    obtain ⟨u, hu, hrest⟩ := hrun
    refine ⟨h.1, fun v hv => ?_⟩
    rw [hu] at hv
    cases hv
    exact ih (h.2 u hu) hrest

lemma Along.and_mem {ok : σ → α → Prop} {P : α → Prop} {s : σ} {as : List α}
    (h : Along step ok s as) (hP : ∀ a ∈ as, P a) :
    Along step (fun s a => ok s a ∧ P a) s as :=
  h.and (along_of_mem hP s)

/-- **Invariants.** What every step preserves holds at the end of every run. -/
theorem run_inv {P : σ → Prop} (hstep : ∀ s a t, P s → step s a = some t → P t)
    {s t : σ} {as : List α} (hs : P s) (h : run step s as = some t) : P t := by
  induction as generalizing s with
  | nil => cases h; exact hs
  | cons a as ih =>
    rw [run_cons, Option.bind_eq_some_iff] at h
    obtain ⟨u, hu, hrest⟩ := h
    exact ih (hstep s a u hs hu) hrest

/-- **Runs with a step that is not allowed.** What such a step brings about, and every step
preserves, holds at their end. -/
theorem run_of_not_along {P : σ → Prop} {ok : σ → α → Prop}
    (hbreak : ∀ s a t, ¬ ok s a → step s a = some t → P t)
    (hstep : ∀ s a t, P s → step s a = some t → P t)
    {s t : σ} {as : List α} (hnot : ¬ Along step ok s as) (h : run step s as = some t) : P t := by
  induction as generalizing s with
  | nil => exact absurd trivial hnot
  | cons a as ih =>
    rw [run_cons, Option.bind_eq_some_iff] at h
    obtain ⟨u, hu, hrest⟩ := h
    by_cases hok : ok s a
    · refine ih (fun halong => hnot ⟨hok, fun v hv => ?_⟩) hrest
      obtain rfl : u = v := Option.some.inj (hu.symm.trans hv)
      exact halong
    · exact run_inv hstep (hbreak s a u hok hu) hrest

/-- **Endings.** If every allowed action lowers a measure that cannot be lowered for ever, every
sequence of allowed actions comes to one that is not enabled. -/
theorem run_ends {β : Type*} {r : β → β → Prop} (hwf : WellFounded r) (m : σ → β) {ok : α → Prop}
    (hstep : ∀ s a t, ok a → step s a = some t → r (m t) (m s)) {f : ℕ → α} (hf : ∀ n, ok (f n))
    (s : σ) : ∃ n t, run step s ((List.range n).map f) = some t ∧ step t (f n) = none := by
  induction s using (InvImage.wf m hwf).induction generalizing f with
  | _ s ih =>
    cases hs : step s (f 0) with
    | none => exact ⟨0, s, rfl, hs⟩
    | some u =>
      obtain ⟨n, t, hrun, hend⟩ := ih u (hstep s (f 0) u (hf 0) hs) fun n => hf (n + 1)
      refine ⟨n + 1, t, ?_, hend⟩
      rw [List.range_succ_eq_map, List.map_cons, List.map_map, run_cons, hs]
      exact hrun

/-- **Erasure.** If the actions that are not kept are invisible through `R`, and the kept ones
stay enabled and preserve `R`, then every run is related to the run of its kept actions. -/
theorem run_filter {R : σ → σ → Prop} {keep : α → Bool}
    (hkeep : ∀ s s' a t, R s s' → keep a = true → step s a = some t →
      ∃ t', step s' a = some t' ∧ R t t')
    (hdrop : ∀ s s' a t, R s s' → keep a = false → step s a = some t → R t s')
    {s s' t : σ} {as : List α} (hR : R s s') (h : run step s as = some t) :
    ∃ t', run step s' (as.filter keep) = some t' ∧ R t t' := by
  induction as generalizing s s' with
  | nil => cases h; exact ⟨s', rfl, hR⟩
  | cons a as ih =>
    rw [run_cons, Option.bind_eq_some_iff] at h
    obtain ⟨u, hu, hrest⟩ := h
    by_cases ha : keep a = true
    · obtain ⟨u', hu', hR'⟩ := hkeep s s' a u hR ha hu
      obtain ⟨t', ht', hR''⟩ := ih hR' hrest
      refine ⟨t', ?_, hR''⟩
      rw [List.filter_cons_of_pos ha, run_cons, hu']
      exact ht'
    · rw [List.filter_cons_of_neg ha]
      exact ih (hdrop s s' a u hR (by simpa using ha) hu) hrest

end Kne.Runs
