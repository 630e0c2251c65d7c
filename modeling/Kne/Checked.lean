import Mathlib.Tactic

/-!
Computations that can fail, and loops of them: what is known once the whole has succeeded.
-/

namespace Kne.Checked

universe u

variable {ε : Type*} {α β : Type u}

lemma bind_ok_iff {x : Except ε α} {next : α → Except ε β} {out : β} :
    x >>= next = .ok out ↔ ∃ a, x = .ok a ∧ next a = .ok out := by
  rcases x with e | a <;> simp [bind, Except.bind]

lemma map_ok_iff {γ δ : Type*} {x : Except ε γ} {f : γ → δ} {out : δ} :
    x.map f = .ok out ↔ ∃ c, x = .ok c ∧ f c = out := by
  rcases x with e | a <;> simp [Except.map]

lemma toOption_eq_some {x : Except ε α} {a : α} : x.toOption = some a ↔ x = .ok a := by
  cases x <;> simp [Except.toOption]

lemma exists_ok_of_toOption {γ : Type*} {x : Except ε α} {f : α → γ} {out : γ}
    (h : x.toOption.map f = some out) : ∃ a, x = .ok a ∧ f a = out := by
  obtain ⟨a, ha, hout⟩ := Option.map_eq_some_iff.mp h
  exact ⟨a, toOption_eq_some.mp ha, hout⟩

lemma foldlM_cons_ok_iff {γ : Type*} {turn : β → γ → Except ε β} {c : γ} {cs : List γ} {s t : β} :
    (c :: cs).foldlM turn s = .ok t ↔ ∃ u, turn s c = .ok u ∧ cs.foldlM turn u = .ok t := by
  rw [List.foldlM_cons]
  exact bind_ok_iff

lemma turn_of_foldlM_ok {γ : Type*} {turn : β → γ → Except ε β} {cs : List γ} {s t : β}
    (h : cs.foldlM turn s = .ok t) : ∀ c ∈ cs, ∃ u v, turn u c = .ok v := by
  induction cs generalizing s with
  | nil => simp
  | cons c cs ih =>
    obtain ⟨u, hc, hcs⟩ := foldlM_cons_ok_iff.mp h
    exact List.forall_mem_cons.mpr ⟨⟨s, u, hc⟩, ih hcs⟩

lemma mem_of_mapM_ok {γ : Type*} {f : γ → Except ε β} {cs : List γ} {bs : List β}
    (h : cs.mapM f = .ok bs) {b : β} : b ∈ bs ↔ ∃ c ∈ cs, f c = .ok b := by
  induction cs generalizing bs with
  | nil =>
    rw [List.mapM_nil] at h
    cases h
    simp
  | cons c cs ih =>
    rw [List.mapM_cons] at h
    obtain ⟨b', hb', hrest⟩ := bind_ok_iff.mp h
    obtain ⟨bs', hbs', hpure⟩ := bind_ok_iff.mp hrest
    cases hpure
    rw [List.mem_cons, ih hbs', List.exists_mem_cons_iff, hb', Except.ok.injEq, eq_comm]

lemma ok_of_mapM_ok {γ : Type*} {f : γ → Except ε β} {cs : List γ} {bs : List β}
    (h : cs.mapM f = .ok bs) : ∀ c ∈ cs, ∃ b, f c = .ok b := by
  induction cs generalizing bs with
  | nil => simp
  | cons c cs ih =>
    rw [List.mapM_cons] at h
    obtain ⟨b, hb, hrest⟩ := bind_ok_iff.mp h
    obtain ⟨bs', hbs', -⟩ := bind_ok_iff.mp hrest
    exact List.forall_mem_cons.mpr ⟨⟨b, hb⟩, ih hbs'⟩

lemma exists_of_mapM_error {γ : Type*} {f : γ → Except ε β} {cs : List γ} {err : ε}
    (h : cs.mapM f = .error err) : ∃ c ∈ cs, f c = .error err := by
  induction cs with
  | nil =>
    rw [List.mapM_nil] at h
    cases h
  | cons c cs ih =>
    rw [List.mapM_cons] at h
    cases hc : f c with
    | error err' =>
      obtain rfl : err' = err := by simpa [hc, bind, Except.bind] using h
      exact ⟨c, List.mem_cons_self, hc⟩
    | ok b =>
      cases hcs : cs.mapM f with
      | error err' =>
        obtain rfl : err' = err := by simpa [hc, hcs, bind, Except.bind] using h
        obtain ⟨c', hmem, hc'⟩ := ih hcs
        exact ⟨c', List.mem_cons_of_mem _ hmem, hc'⟩
      | ok bs => simp [hc, hcs, bind, Except.bind, pure, Except.pure] at h

lemma exists_foldlM_ok {γ : Type*} {turn : β → γ → Except ε β} {cs : List γ}
    (h : ∀ c ∈ cs, ∀ s, ∃ t, turn s c = .ok t) (s : β) : ∃ t, cs.foldlM turn s = .ok t := by
  induction cs generalizing s with
  | nil => exact ⟨s, rfl⟩
  | cons c cs ih =>
    rw [List.forall_mem_cons] at h
    obtain ⟨u, hu⟩ := h.1 s
    obtain ⟨t, ht⟩ := ih h.2 u
    exact ⟨t, foldlM_cons_ok_iff.mpr ⟨u, hu, ht⟩⟩

lemma forM_ok {γ : Type*} {check : γ → Except ε Unit} {cs : List γ} (h : cs.forM check = .ok ()) :
    ∀ c ∈ cs, check c = .ok () := by
  induction cs with
  | nil => simp
  | cons c cs ih =>
    obtain ⟨u, hc, hrest⟩ := bind_ok_iff.mp h
    intro b hb
    rcases List.mem_cons.mp hb with rfl | hb
    · exact hc
    · exact ih hrest b hb

lemma forM_of_ok {γ : Type*} {check : γ → Except ε Unit} {cs : List γ}
    (h : ∀ c ∈ cs, check c = .ok ()) : cs.forM check = .ok () := by
  induction cs with
  | nil => rfl
  | cons c cs ih =>
    rw [List.forall_mem_cons] at h
    exact bind_ok_iff.mpr ⟨(), h.1, ih h.2⟩

end Kne.Checked
