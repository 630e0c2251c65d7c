import Mathlib.Tactic

/-!
Programs that make one call after the other to a state they share.

What a call does is up to the state and to a choice of the environment, which may let it fail.
Between two calls others may change the state, within a relation `rely`, and the program may be
abandoned. `Safe` says of a program and a state that `I` holds whenever the program is abandoned,
`Q` if it returns and `E` if it fails. It is a condition on the calls, one after the other; there is
one rule for each way of putting programs together.
-/

namespace Kne.Interrupts

variable {κ : Type} {ρ : κ → Type} {ε α β σ χ : Type}

/-- A program: it returns, fails, or makes a call and goes on with the answer. -/
inductive Prog (ρ : κ → Type) (ε α : Type)
  | ret (a : α)
  | fail (e : ε)
  | call (c : κ) (next : ρ c → Prog ρ ε α)

namespace Prog

def bind : Prog ρ ε α → (α → Prog ρ ε β) → Prog ρ ε β
  | ret a, f => f a
  | fail e, _ => fail e
  | call c next, f => call c fun r => (next r).bind f

instance : Monad (Prog ρ ε) where
  pure := ret
  bind := bind

@[simp] lemma pure_eq (a : α) : (pure a : Prog ρ ε α) = ret a := rfl

@[simp] lemma ret_bind (a : α) (f : α → Prog ρ ε β) : ret a >>= f = f a := rfl

@[simp] lemma fail_bind (e : ε) (f : α → Prog ρ ε β) : (fail e : Prog ρ ε α) >>= f = fail e := rfl

@[simp] lemma call_bind (c : κ) (next : ρ c → Prog ρ ε α) (f : α → Prog ρ ε β) :
    call c next >>= f = call c fun r => next r >>= f := rfl

/-- The program, when nobody interferes. -/
def run (answer : (c : κ) → σ → ρ c × σ) : Prog ρ ε α → σ → Except ε α × σ
  | ret a, s => (.ok a, s)
  | fail e, s => (.error e, s)
  | call c next, s => (next (answer c s).1).run answer (answer c s).2

end Prog

open Prog

section Safe

variable (rely : σ → σ → Prop) (answer : χ → (c : κ) → σ → ρ c × σ) (I : σ → Prop)
  (E : ε → σ → Prop)

def Safe (Q : α → σ → Prop) : Prog ρ ε α → σ → Prop
  | ret a, s => ∀ t, rely s t → I t ∧ Q a t
  | fail e, s => ∀ t, rely s t → I t ∧ E e t
  | call c next, s => ∀ t, rely s t → I t ∧ ∀ x, Safe Q (next (answer x c t).1) (answer x c t).2

variable {rely answer I E} {Q Q' : α → σ → Prop} {p : Prog ρ ε α} {s t : σ}

/-- What others cannot make false. -/
def Stable (rely : σ → σ → Prop) (P : σ → Prop) : Prop := ∀ s t, P s → rely s t → P t

lemma safe_ret {P : σ → Prop} {a : α} (hP : Stable rely P) (h : ∀ t, P t → I t ∧ Q a t) (hs : P s) :
    Safe rely answer I E Q (ret a) s :=
  fun t ht => h t (hP s t hs ht)

lemma safe_fail {P : σ → Prop} {e : ε} (hP : Stable rely P) (h : ∀ t, P t → I t ∧ E e t)
    (hs : P s) : Safe rely answer I E Q (fail e) s :=
  fun t ht => h t (hP s t hs ht)

lemma safe_call {P : σ → Prop} {c : κ} {next : ρ c → Prog ρ ε α} (hP : Stable rely P)
    (h : ∀ t, P t → I t ∧ ∀ x, Safe rely answer I E Q (next (answer x c t).1) (answer x c t).2)
    (hs : P s) : Safe rely answer I E Q (call c next) s :=
  fun t ht => h t (hP s t hs ht)

lemma Safe.step {c : κ} {next : ρ c → Prog ρ ε α} [Std.Refl rely]
    (h : Safe rely answer I E Q (call c next) s) (x : χ) :
    Safe rely answer I E Q (next (answer x c s).1) (answer x c s).2 :=
  (h s (Std.Refl.refl s)).2 x

lemma Safe.inv [Std.Refl rely] (h : Safe rely answer I E Q p s) : I s := by
  cases p with
  | ret a => exact (h s (Std.Refl.refl s)).1
  | fail e => exact (h s (Std.Refl.refl s)).1
  | call c next => exact (h s (Std.Refl.refl s)).1

lemma Safe.disturbed [IsTrans σ rely] (h : Safe rely answer I E Q p s) (ht : rely s t) :
    Safe rely answer I E Q p t := by
  cases p with
  | ret a => exact fun u hu => h u (IsTrans.trans s t u ht hu)
  | fail e => exact fun u hu => h u (IsTrans.trans s t u ht hu)
  | call c next => exact fun u hu => h u (IsTrans.trans s t u ht hu)

lemma Safe.mono (h : Safe rely answer I E Q p s) (hQ : ∀ a t, Q a t → Q' a t) :
    Safe rely answer I E Q' p s := by
  induction p generalizing s with
  | ret a => exact fun t ht => ⟨(h t ht).1, hQ a t (h t ht).2⟩
  | fail e => exact h
  | call c next ih => exact fun t ht => ⟨(h t ht).1, fun x => ih _ ((h t ht).2 x)⟩

lemma Safe.bind {Q : β → σ → Prop} [Std.Refl rely] {f : α → Prog ρ ε β}
    (h : Safe rely answer I E (fun a => Safe rely answer I E Q (f a)) p s) :
    Safe rely answer I E Q (p >>= f) s := by
  induction p generalizing s with
  | ret a => exact (h s (Std.Refl.refl s)).2
  | fail e => exact h
  | call c next ih => exact fun t ht => ⟨(h t ht).1, fun x => ih _ ((h t ht).2 x)⟩

/-- **Loops.** `J` speaks of the items that are still to come. -/
lemma safe_foldlM [Std.Refl rely] {f : β → α → Prog ρ ε β} {J : List α → β → σ → Prop}
    (hJ : ∀ b, Stable rely (J [] b)) (hI : ∀ b t, J [] b t → I t)
    (hstep : ∀ a as b s, J (a :: as) b s → Safe rely answer I E (J as) (f b a) s)
    {as : List α} {b : β} (h : J as b s) : Safe rely answer I E (J []) (as.foldlM f b) s := by
  induction as generalizing b s with
  | nil => exact safe_ret (hJ b) (fun t ht => ⟨hI b t ht, ht⟩) h
  | cons a as ih =>
    rw [List.foldlM_cons]
    exact ((hstep a as b s h).mono fun b' t h' => ih h').bind

lemma Safe.run [Std.Refl rely] (h : Safe rely answer I E Q p s) (x : χ) :
    I (p.run (answer x) s).2 ∧
      ((∃ a, (p.run (answer x) s).1 = .ok a ∧ Q a (p.run (answer x) s).2) ∨
        ∃ e, (p.run (answer x) s).1 = .error e ∧ E e (p.run (answer x) s).2) := by
  induction p generalizing s with
  | ret a => exact ⟨(h s (Std.Refl.refl s)).1, .inl ⟨a, rfl, (h s (Std.Refl.refl s)).2⟩⟩
  | fail e => exact ⟨(h s (Std.Refl.refl s)).1, .inr ⟨e, rfl, (h s (Std.Refl.refl s)).2⟩⟩
  | call c next ih => exact ih _ (h.step x)

end Safe

end Kne.Interrupts
