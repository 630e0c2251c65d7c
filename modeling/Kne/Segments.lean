import Mathlib.Tactic

/-!
Lists that are cut at some of their elements while they come in: the segments that have been ended,
and the rest, which goes on with what comes next.
-/

namespace Kne.Segments

variable {α : Type*} (p : α → Bool)

/-- The segments that an element has ended. -/
def ended (l : List α) : List (List α) := (l.splitOnP p).dropLast

/-- What comes after the last of these elements. -/
def rest (l : List α) : List α := (l.splitOnP p).getLastD []

variable {p} {l xs ys : List α}

variable (p l) in
lemma ended_append_rest : ended p l ++ [rest p l] = l.splitOnP p := by
  have hne := List.splitOnP_ne_nil p l
  rw [ended, rest, List.getLastD_eq_getLast?, List.getLast?_eq_some_getLast hne, Option.getD_some,
    List.dropLast_append_getLast]

lemma ended_of_eq {ss : List (List α)} {s : List α} (h : l.splitOnP p = ss ++ [s]) :
    ended p l = ss ∧ rest p l = s := by
  simp [ended, rest, h]

lemma free_of_mem_splitOnP {s : List α} (h : s ∈ l.splitOnP p) : ∀ x ∈ s, p x = false := by
  induction l generalizing s with
  | nil =>
    rw [List.splitOnP_nil, List.mem_singleton] at h
    simp [h]
  | cons c cs ih =>
    rw [List.splitOnP_cons_eq_if_modifyHead] at h
    split_ifs at h with hc
    · rcases List.mem_cons.mp h with rfl | h
      · simp
      · exact ih h
    · obtain ⟨first, others, hcs⟩ := List.exists_cons_of_ne_nil (List.splitOnP_ne_nil p cs)
      rw [hcs, List.modifyHead_cons] at h
      rcases List.mem_cons.mp h with rfl | h
      · have hfirst := ih (s := first) (by simp [hcs])
        exact List.forall_mem_cons.mpr ⟨by simpa using hc, hfirst⟩
      · exact ih (by simp [hcs, h])

lemma flatten_splitOnP (l : List α) : (l.splitOnP p).flatten = l.filter fun x => !p x := by
  induction l with
  | nil => simp [List.splitOnP_nil]
  | cons c cs ih =>
    rw [List.splitOnP_cons_eq_if_modifyHead]
    split_ifs with hc
    · simp [hc, ih]
    · obtain ⟨first, others, hcs⟩ := List.exists_cons_of_ne_nil (List.splitOnP_ne_nil p cs)
      rw [hcs, List.flatten_cons] at ih
      rw [hcs, List.modifyHead_cons, List.flatten_cons, List.cons_append, ih]
      simp [hc]

lemma ended_of_free (h : ∀ x ∈ l, p x = false) : ended p l = [] ∧ rest p l = l :=
  ended_of_eq (List.splitOnP_eq_singleton h)

lemma free_or_last (l : List α) : (∀ x ∈ l, p x = false) ∨
    ∃ xs c r, l = xs ++ c :: r ∧ p c = true ∧ ∀ x ∈ r, p x = false := by
  induction l with
  | nil => exact .inl (by simp)
  | cons c cs ih =>
    rcases ih with hfree | ⟨xs, d, r, rfl, hd, hr⟩
    · by_cases hc : p c = true
      · exact .inr ⟨[], c, cs, rfl, hc, hfree⟩
      · exact .inl (List.forall_mem_cons.mpr ⟨by simpa using hc, hfree⟩)
    · exact .inr ⟨c :: xs, d, r, rfl, hd, hr⟩

/-- **What comes next goes on with the rest.** -/
lemma splitOnP_append (xs ys : List α) :
    (xs ++ ys).splitOnP p = ended p xs ++ (rest p xs ++ ys).splitOnP p := by
  rcases free_or_last (p := p) xs with hfree | ⟨us, c, r, rfl, hc, hr⟩
  · obtain ⟨hended, hrest⟩ := ended_of_free hfree
    rw [hended, hrest, List.nil_append]
  · have hcut : ∀ r, (us ++ c :: r).splitOnP p = us.splitOnP p ++ r.splitOnP p := fun r =>
      List.splitOnP_append_cons us r hc
    have hxs := hcut r
    rw [List.splitOnP_eq_singleton hr] at hxs
    obtain ⟨hended, hrest⟩ := ended_of_eq hxs
    rw [hended, hrest, List.append_assoc, List.cons_append, hcut]

lemma ended_append (xs ys : List α) :
    ended p (xs ++ ys) = ended p xs ++ ended p (rest p xs ++ ys) ∧
      rest p (xs ++ ys) = rest p (rest p xs ++ ys) := by
  refine ended_of_eq ?_
  rw [splitOnP_append, List.append_assoc, ended_append_rest]

lemma rest_of_getLast? {c : α} (h : l.getLast? = some c) (hc : p c = true) : rest p l = [] := by
  obtain ⟨xs, rfl⟩ := List.getLast?_eq_some_iff.mp h
  have hcut := List.splitOnP_append_cons xs [] hc
  rw [List.splitOnP_nil] at hcut
  exact (ended_of_eq hcut).2

end Kne.Segments
