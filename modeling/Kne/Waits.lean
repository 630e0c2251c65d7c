import Mathlib.Tactic

/-!
Waiting on a watch: a loop takes one event after the other until it accepts the object of one, the
context ends, or the channel is closed.
-/

namespace Kne.Waits

variable {α : Type*}

/-- What a turn of the loop meets. -/
inductive Turn (α : Type*)
  | cancelled (err : String)
  | closed
  /-- An event, the object of which can be of another type. -/
  | event (obj : Option α)
  deriving DecidableEq, Repr

/-- How the loop ends. -/
inductive Outcome (α : Type*)
  | accepted (obj : α)
  | cancelled (err : String)
  | closed
  | wrongType
  deriving DecidableEq, Repr

/-- The loop. After the last turn it still waits. -/
def wait (accept : α → Bool) : List (Turn α) → Option (Outcome α)
  | [] => none
  | .cancelled err :: _ => some (.cancelled err)
  | .closed :: _ => some .closed
  | .event none :: _ => some .wrongType
  | .event (some obj) :: ts => if accept obj then some (.accepted obj) else wait accept ts

/-- The objects that the loop has looked at. -/
def consumed (accept : α → Bool) : List (Turn α) → List α
  | .event (some obj) :: ts => obj :: if accept obj then [] else consumed accept ts
  | _ => []

/-- The objects of the events. -/
def objects (ts : List (Turn α)) : List α :=
  ts.filterMap fun
    | .event obj => obj
    | _ => none

variable {accept : α → Bool} {ts : List (Turn α)} {d : α}

/-- **What is accepted** is the first object that can be, after nothing but events. -/
lemma wait_eq_accepted_iff : wait accept ts = some (.accepted d) ↔
    ∃ (pre : List α) (post : List (Turn α)),
      ts = pre.map (fun e => .event (some e)) ++ .event (some d) :: post ∧
      (∀ e ∈ pre, accept e = false) ∧ accept d = true := by
  constructor
  · intro h
    induction ts with
    | nil => cases h
    | cons t ts ih =>
      match t with
      | .cancelled err | .closed | .event none => cases h
      | .event (some obj) =>
        rw [wait] at h
        by_cases hobj : accept obj = true
        · rw [if_pos hobj] at h
          cases h
          exact ⟨[], ts, rfl, by simp, hobj⟩
        · rw [if_neg hobj] at h
          obtain ⟨pre, post, rfl, hnot, hd⟩ := ih h
          exact ⟨obj :: pre, post, rfl, List.forall_mem_cons.mpr ⟨by simpa using hobj, hnot⟩, hd⟩
  · rintro ⟨pre, post, rfl, hnot, hd⟩
    induction pre with
    | nil => simp [wait, hd]
    | cons e pre ih =>
      obtain ⟨he, hnot⟩ := List.forall_mem_cons.mp hnot
      simpa [wait, he] using ih hnot

lemma consumed_events {pre : List α} {post : List (Turn α)} (hnot : ∀ e ∈ pre, accept e = false)
    (hd : accept d = true) :
    consumed accept (pre.map (fun e => .event (some e)) ++ .event (some d) :: post) =
      pre ++ [d] := by
  induction pre with
  | nil => simp [consumed, hd]
  | cons e pre ih =>
    obtain ⟨he, hnot⟩ := List.forall_mem_cons.mp hnot
    simpa [consumed, he] using ih hnot

lemma consumed_of_accepted (h : wait accept ts = some (.accepted d)) :
    ∃ pre, consumed accept ts = pre ++ [d] ∧ (∀ e ∈ pre, accept e = false) ∧ accept d = true := by
  obtain ⟨pre, post, rfl, hnot, hd⟩ := wait_eq_accepted_iff.mp h
  exact ⟨pre, consumed_events hnot hd, hnot, hd⟩

variable (accept ts) in
lemma consumed_initial : consumed accept ts <+: objects ts := by
  induction ts with
  | nil => exact List.prefix_rfl
  | cons t ts ih =>
    match t with
    | .cancelled err | .closed | .event none => exact List.nil_prefix
    | .event (some obj) =>
      have hobjects : objects (.event (some obj) :: ts) = obj :: objects ts := rfl
      rw [consumed, hobjects, List.cons_prefix_cons]
      refine ⟨rfl, ?_⟩
      split
      · exact List.nil_prefix
      · exact ih

lemma head?_of_consumed {pre : List α} (h : consumed accept ts = d :: pre) :
    ts.head? = some (.event (some d)) := by
  match ts with
  | [] | .cancelled err :: _ | .closed :: _ | .event none :: _ => cases h
  | .event (some obj) :: ts =>
    rw [consumed] at h
    cases h
    rfl

end Kne.Waits
