import Mathlib.Tactic

/-!
Bounded mailboxes: a queue of limited length to which messages are offered without waiting, so
that a message which finds the queue full is dropped, and from which the owner takes.

A mailbox keeps its history: what was taken out, and every message offered with the number of
messages it found queued.
-/

namespace Kne.Mailbox

variable {α : Type*}

structure Box (α : Type*) where
  queue : List α := []
  taken : List α := []
  offers : List (α × ℕ) := []
  deriving DecidableEq, Repr

def Box.offer (cap : ℕ) (b : Box α) (a : α) : Box α :=
  { b with
    queue := if b.queue.length < cap then b.queue ++ [a] else b.queue
    offers := b.offers ++ [(a, b.queue.length)] }

def Box.take (b : Box α) : Box α :=
  match b.queue with
  | [] => b
  | a :: q => { b with queue := q, taken := b.taken ++ [a] }

/-- The number of messages dropped. -/
def Box.dropped (cap : ℕ) (b : Box α) : ℕ := (b.offers.filter fun o => cap ≤ o.2).length

lemma dropped_offer (cap : ℕ) (b : Box α) (a : α) :
    (b.offer cap a).dropped cap = b.dropped cap + if b.queue.length < cap then 0 else 1 := by
  by_cases h : b.queue.length < cap
  · simp [Box.offer, Box.dropped, h]
  · simp [Box.offer, Box.dropped, h, Nat.le_of_not_lt h]

@[simp] lemma dropped_take (cap : ℕ) (b : Box α) : b.take.dropped cap = b.dropped cap := by
  unfold Box.take; split <;> rfl

@[simp] lemma offers_take (b : Box α) : b.take.offers = b.offers := by
  unfold Box.take; split <;> rfl

/-- What was taken out or is still queued are the messages that did not find the queue full,
and a message that found it full found just `cap` messages. -/
structure Conserved (cap : ℕ) (b : Box α) : Prop where
  kept : b.taken ++ b.queue = (b.offers.filter fun o => o.2 < cap).map Prod.fst
  met : ∀ o ∈ b.offers, o.2 ≤ cap
  length : b.queue.length ≤ cap

lemma conserved_empty (cap : ℕ) : Conserved cap ({} : Box α) where
  kept := rfl
  met o h := by simp at h
  length := Nat.zero_le _

lemma Conserved.offer {cap : ℕ} {b : Box α} (h : Conserved cap b) (a : α) :
    Conserved cap (b.offer cap a) := by
  obtain ⟨hk, hm, hl⟩ := h
  refine ⟨?_, ?_, ?_⟩
  · by_cases hq : b.queue.length < cap
    · simp [Box.offer, hq, ← hk]
    · simp [Box.offer, hq, hk]
  · intro o ho
    rcases List.mem_append.mp ho with ho | ho
    · exact hm o ho
    · rw [List.mem_singleton] at ho
      subst ho; exact hl
  · by_cases hq : b.queue.length < cap
    · simp [Box.offer, hq]
    · simpa [Box.offer, hq] using hl

lemma Conserved.take {cap : ℕ} {b : Box α} (h : Conserved cap b) : Conserved cap b.take := by
  obtain ⟨hk, hm, hl⟩ := h
  rcases hq : b.queue with _ | ⟨a, q⟩
  · rw [show b.take = b by simp [Box.take, hq]]
    exact ⟨hk, hm, hl⟩
  · refine ⟨?_, by simpa using hm, ?_⟩
    · simpa [Box.take, hq] using hk
    · simp [Box.take, hq] at hl ⊢; omega

lemma Conserved.sublist {cap : ℕ} {b : Box α} (h : Conserved cap b) :
    (b.taken ++ b.queue).Sublist (b.offers.map Prod.fst) := by
  rw [h.kept]
  exact List.filter_sublist.map _

end Kne.Mailbox
