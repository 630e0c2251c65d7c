import Kne.Objects

/-!
Programs that run commands. What a command answers is up to the host, which knows what was run
before; a program can go on from an answer, or fail. The commands that it has run remain in a log,
whatever becomes of it, and what all of them satisfy is put together from the parts of the program
(`Only`).
-/

namespace Kne.Commands

open Kne.Objects

universe u

variable {κ ρ ε α β : Type u}

/-- The command is run and logged, and the host answers. -/
def exec (host : List κ → κ → ρ) (c : κ) : EStateM ε (List κ) ρ :=
  fun log => .ok (host log c) (log ++ [c])

/-- The error of a program as a value. -/
def attempt (x : EStateM ε (List κ) α) : EStateM ε (List κ) (Except ε α) :=
  fun log =>
    match x log with
    | .ok a t => .ok (.ok a) t
    | .error e t => .ok (.error e) t

/-- The program runs `c` if it is started after the commands of `log`. -/
def Ran (x : EStateM ε (List κ) α) (log : List κ) (c : κ) : Prop :=
  ∃ cs, after x log = log ++ cs ∧ c ∈ cs

/-- Whatever becomes of the program, all commands that it runs satisfy `P`. -/
def Only (P : κ → Prop) (x : EStateM ε (List κ) α) : Prop :=
  ∀ log, ∃ cs, after x log = log ++ cs ∧ ∀ c ∈ cs, P c

variable {P : κ → Prop}

lemma Only.of_ran {x : EStateM ε (List κ) α} (h : Only P x) {log : List κ} {c : κ}
    (hc : Ran x log c) : P c := by
  obtain ⟨cs, hcs, hall⟩ := h log
  obtain ⟨cs', hcs', hmem⟩ := hc
  have hsame : cs = cs' := List.append_cancel_left (hcs.symm.trans hcs')
  exact hall c (hsame ▸ hmem)

lemma only_of_after_eq {x : EStateM ε (List κ) α} (h : ∀ log, after x log = log) : Only P x :=
  fun log => ⟨[], by rw [h, List.append_nil], by simp⟩

lemma only_pure (a : α) : Only P (pure a : EStateM ε (List κ) α) :=
  only_of_after_eq fun _ => rfl

lemma only_throw (e : ε) : Only P (throw e : EStateM ε (List κ) α) :=
  only_of_after_eq fun _ => rfl

lemma only_exec {host : List κ → κ → ρ} {c : κ} (h : P c) :
    Only P (exec host c : EStateM ε (List κ) ρ) :=
  fun _ => ⟨[c], rfl, fun _ hc => List.mem_singleton.mp hc ▸ h⟩

lemma Only.bind {x : EStateM ε (List κ) α} {next : α → EStateM ε (List κ) β} (hx : Only P x)
    (hnext : ∀ a, Only P (next a)) : Only P (x >>= next) := by
  intro log
  obtain ⟨cs, hcs, hall⟩ := hx log
  cases hs : x log with
  | error e t =>
    have herror : (x >>= next) log = .error e t := bind_eq_error_iff.mpr (Or.inl hs)
    rw [after_error hs] at hcs
    exact ⟨cs, by rw [after_error herror, hcs], hall⟩
  | ok a t =>
    rw [after_ok hs] at hcs
    obtain ⟨cs', hcs', hall'⟩ := hnext a t
    refine ⟨cs ++ cs', ?_, fun c hc => ?_⟩
    · rw [after_bind hs, hcs', hcs, List.append_assoc]
    · exact (List.mem_append.mp hc).elim (hall c) (hall' c)

lemma Only.attempt {x : EStateM ε (List κ) α} (hx : Only P x) : Only P (attempt x) := by
  intro log
  obtain ⟨cs, hcs, hall⟩ := hx log
  refine ⟨cs, ?_, hall⟩
  rw [← hcs]
  unfold after Commands.attempt
  cases x log <;> rfl

lemma only_forM {f : β → EStateM ε (List κ) PUnit} {bs : List β} (h : ∀ b ∈ bs, Only P (f b)) :
    Only P (bs.forM f) := by
  induction bs with
  | nil => exact only_pure _
  | cons b bs ih =>
    obtain ⟨hb, hbs⟩ := List.forall_mem_cons.mp h
    exact hb.bind fun _ => ih hbs

lemma Ran.bind {x : EStateM ε (List κ) α} {next : α → EStateM ε (List κ) β} {log : List κ} {c : κ}
    (hc : Ran x log c) (hnext : ∀ a, Only P (next a)) : Ran (x >>= next) log c := by
  obtain ⟨cs, hcs, hmem⟩ := hc
  cases hs : x log with
  | error e t =>
    have herror : (x >>= next) log = .error e t := bind_eq_error_iff.mpr (Or.inl hs)
    rw [after_error hs] at hcs
    exact ⟨cs, by rw [after_error herror, hcs], hmem⟩
  | ok a t =>
    rw [after_ok hs] at hcs
    obtain ⟨cs', hcs', -⟩ := hnext a t
    refine ⟨cs ++ cs', ?_, List.mem_append_left cs' hmem⟩
    rw [after_bind hs, hcs', hcs, List.append_assoc]

lemma Ran.bind_of_ok {x : EStateM ε (List κ) α} {next : α → EStateM ε (List κ) β}
    {log cs : List κ} {a : α} {c : κ} (hx : x log = .ok a (log ++ cs))
    (hc : Ran (next a) (log ++ cs) c) : Ran (x >>= next) log c := by
  obtain ⟨cs', hcs', hmem⟩ := hc
  refine ⟨cs ++ cs', ?_, List.mem_append_right cs hmem⟩
  rw [after_bind hx, hcs', List.append_assoc]

lemma ran_exec (host : List κ → κ → ρ) (c : κ) (log : List κ) :
    Ran (exec host c : EStateM ε (List κ) ρ) log c :=
  ⟨[c], rfl, List.mem_singleton_self c⟩

end Kne.Commands
