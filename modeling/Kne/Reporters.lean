import Mathlib.Tactic
import Kne.Runs

/-!
Reporters that watch while a main thread works. Each reporter handles what it receives until
something fails. It then puts the error into a channel of its own, which holds one error, and after
that cancels the work of all. The main thread starts the reporters, does its work, and for each
reporter it has started, the last one first, cancels and looks once, without waiting, whether there
is an error in the channel; such an error takes the place of the result.

The reporters may be any number, each with its own states and inputs.
-/

namespace Kne.Reporters

open Kne.Runs

/-! ### One reporter -/

/-- Where the thread of a reporter stands. -/
inductive Pos (ε : Type)
  | idle | watching
  | sending (err : ε)
  | cancelling | done
  deriving DecidableEq, Repr

/-- A reporter with its channel, and all it has ever sent. -/
structure Reporter (σ ε : Type) where
  state : σ
  pos : Pos ε := .idle
  errCh : Option ε := none
  sent : List ε := []

namespace Reporter

variable {σ ε α : Type} {r r' : Reporter σ ε}

def start (r : Reporter σ ε) : Reporter σ ε := { r with pos := .watching }

/-- An input is handled; an error is next to be sent. -/
def receive (update : σ → α → σ × Option ε) (r : Reporter σ ε) (x : α) : Option (Reporter σ ε) :=
  match r.pos with
  | .watching =>
    match update r.state x with
    | (s, none) => some { r with state := s }
    | (s, some err) => some { r with state := s, pos := .sending err }
  | _ => none

def quit (r : Reporter σ ε) : Option (Reporter σ ε) :=
  match r.pos with
  | .watching => some { r with pos := .done }
  | _ => none

/-- Sending has to wait as long as the channel is full. -/
def send (r : Reporter σ ε) : Option (Reporter σ ε) :=
  match r.pos, r.errCh with
  | .sending err, none =>
    some { r with pos := .cancelling, errCh := some err, sent := r.sent ++ [err] }
  | _, _ => none

def cancel (r : Reporter σ ε) : Option (Reporter σ ε) :=
  match r.pos with
  | .cancelling => some { r with pos := .done }
  | _ => none

/-- The error is taken out of the channel. -/
def collect (r : Reporter σ ε) : Reporter σ ε := { r with errCh := none }

/-- Nothing was sent before the one send, and the channel holds nothing else. -/
structure Sound (r : Reporter σ ε) : Prop where
  unsent : r.pos ≠ .cancelling → r.pos ≠ .done → r.sent = []
  sends : r.pos = .cancelling → r.sent ≠ []
  once : r.sent.length ≤ 1
  holds : ∀ err, r.errCh = some err → err ∈ r.sent

/-- The channel holds what was sent. -/
def Full (r : Reporter σ ε) : Prop := r.errCh = r.sent.head?

/-- What a step of its thread does to a reporter, as far as the others can see. -/
structure Moves (r r' : Reporter σ ε) : Prop where
  sound : r'.Sound
  started : r.pos ≠ .idle
  sent : r.sent ⊆ r'.sent
  errCh : ∀ err, r.errCh = some err → r'.errCh = some err
  full : r.Full → r'.Full

lemma Sound.errCh_none (h : r.Sound) (hsent : r.sent = []) : r.errCh = none := by
  cases hch : r.errCh with
  | none => rfl
  | some err =>
    have hmem := h.holds err hch
    rw [hsent] at hmem
    cases hmem

lemma Sound.receive {update : σ → α → σ × Option ε} {x : α} (h : r.Sound)
    (hr : r.receive update x = some r') : r.Moves r' := by
  unfold Reporter.receive at hr
  split at hr
  · next hpos =>
    have hunsent := h.unsent (by simp [hpos]) (by simp [hpos])
    split at hr <;> cases hr
    · exact ⟨⟨h.unsent, h.sends, h.once, h.holds⟩, by simp [hpos], fun _ he => he,
        fun _ he => he, fun hf => hf⟩
    · exact ⟨⟨fun _ _ => hunsent, fun hp => (by cases hp), h.once, h.holds⟩, by simp [hpos],
        fun _ he => he, fun _ he => he, fun hf => hf⟩
  · cases hr

lemma Sound.ends (h : r.Sound) (hpos : r.pos ≠ .idle) : r.Moves { r with pos := .done } where
  sound := ⟨fun _ hd => absurd rfl hd, fun hc => (by cases hc), h.once, h.holds⟩
  started := hpos
  sent _ he := he
  errCh _ he := he
  full hf := hf

lemma Sound.quit (h : r.Sound) (hr : r.quit = some r') : r.Moves r' := by
  unfold Reporter.quit at hr
  split at hr
  · next hpos =>
    cases hr
    exact h.ends (by simp [hpos])
  · cases hr

lemma Sound.send (h : r.Sound) (hr : r.send = some r') : r.Moves r' := by
  unfold Reporter.send at hr
  split at hr
  · next err hpos hch =>
    have hunsent := h.unsent (by simp [hpos]) (by simp [hpos])
    cases hr
    refine ⟨⟨fun hc => absurd rfl hc, fun _ => ?_, ?_, ?_⟩, by simp [hpos], ?_, ?_, ?_⟩
    · simp
    · simp [hunsent]
    · simp
    · simp [hunsent]
    · simp [hch]
    · simp [Full, hunsent]
  · cases hr

lemma Sound.cancel (h : r.Sound) (hr : r.cancel = some r') :
    r.pos = .cancelling ∧ r.Moves r' := by
  unfold Reporter.cancel at hr
  split at hr
  · next hpos =>
    cases hr
    exact ⟨hpos, h.ends (by simp [hpos])⟩
  · cases hr

/-- **The send does not wait.** -/
lemma Sound.send_some {err : ε} (h : r.Sound) (hpos : r.pos = .sending err) :
    r.send.isSome = true := by
  have hch := h.errCh_none (h.unsent (by simp [hpos]) (by simp [hpos]))
  simp [Reporter.send, hpos, hch]

end Reporter

/-! ### The main thread -/

/-- Where the main thread stands: it starts reporters and works, it takes the deferred calls one by
one, it is in the call for one reporter, or it has returned. -/
inductive Main (I ε : Type)
  | working (todo defers : List I)
  | unwinding (defers : List I) (result : Option ε)
  | cleaning (i : I) (defers : List I) (result : Option ε)
  | returned (result : Option ε)

variable {I ε : Type}

/-- The reporters whose channel has not been looked at. -/
def Main.left : Main I ε → List I
  | .working _ defers => defers
  | .unwinding defers _ => defers
  | .cleaning i defers _ => i :: defers
  | .returned _ => []

def Main.result : Main I ε → Option ε
  | .working _ _ => none
  | .unwinding _ r => r
  | .cleaning _ _ r => r
  | .returned r => r

/-- How many steps it takes to return once the work is over. -/
def Main.rest : Main I ε → ℕ
  | .working _ _ => 0
  | .unwinding defers _ => 2 * defers.length + 1
  | .cleaning _ defers _ => 2 * defers.length + 2
  | .returned _ => 0

/-- All threads; whether the work is cancelled, whether one of the calls for the reporters has
begun, and whether a reporter has cancelled before that. -/
structure System (σ : I → Type) (ε : Type) where
  reporters : (i : I) → Reporter (σ i) ε
  main : Main I ε
  canceled : Bool := false
  cleaned : Bool := false
  early : Bool := false

/-- The steps of the threads: `start`, `finish` and `unwind` are those of the main thread, and
`expire` stands for whoever else cancels. -/
inductive Act (In : I → Type) (ε : Type)
  | start (ok : Bool)
  | receive (i : I) (x : In i)
  | closed (i : I)
  | ctxDone (i : I)
  | send (i : I)
  | cancel (i : I)
  | expire
  | finish (result : Option ε)
  | unwind

variable [DecidableEq I] {σ In : I → Type}

def System.set (s : System σ ε) (i : I) (r : Reporter (σ i) ε) : System σ ε :=
  { s with reporters := Function.update s.reporters i r }

variable (update : (i : I) → σ i → In i → σ i × Option ε)

def step (s : System σ ε) : Act In ε → Option (System σ ε)
  | .start ok =>
    match s.main with
    | .working (i :: todo) defers =>
      if ok then
        some { s.set i (s.reporters i).start with main := .working todo (i :: defers) }
      else some { s with main := .working todo defers }
    | _ => none
  | .receive i x => ((s.reporters i).receive (update i) x).map (s.set i)
  | .closed i => (s.reporters i).quit.map (s.set i)
  | .ctxDone i => if s.canceled then (s.reporters i).quit.map (s.set i) else none
  | .send i => (s.reporters i).send.map (s.set i)
  | .cancel i => (s.reporters i).cancel.map fun r =>
      { s.set i r with canceled := true, early := s.early || !s.cleaned }
  | .expire => some { s with canceled := true }
  | .finish r =>
    match s.main with
    | .working [] defers => some { s with main := .unwinding defers r }
    | _ => none
  | .unwind =>
    match s.main with
    | .unwinding [] r => some { s with main := .returned r }
    | .unwinding (i :: defers) r =>
      some { s with main := .cleaning i defers r, canceled := true, cleaned := true }
    | .cleaning i defers r =>
      match (s.reporters i).errCh with
      | some err =>
        some { s.set i (s.reporters i).collect with main := .unwinding defers (some err) }
      | none => some { s with main := .unwinding defers r }
    | _ => none

/-- Nothing has been started. -/
def init (states : (i : I) → σ i) (order : List I) : System σ ε where
  reporters i := { state := states i }
  main := .working order []

/-! ### What holds in every state -/

/-- A reporter has sent the error. -/
def System.Reported (s : System σ ε) (err : ε) : Prop := ∃ i, err ∈ (s.reporters i).sent

/-- The main thread has an error of a reporter, or will find one. -/
def System.Caught (s : System σ ε) : Prop :=
  (∃ err, s.main.result = some err ∧ s.Reported err) ∨
    ∃ i ∈ s.main.left, ∃ err, (s.reporters i).errCh = some err

structure Good (s : System σ ε) : Prop where
  sound : ∀ i, (s.reporters i).Sound
  fresh : ∀ todo defers, s.main = .working todo defers →
    todo.Nodup ∧ ∀ i ∈ todo, (s.reporters i).pos = .idle
  begun : ∀ i defers r, s.main = .cleaning i defers r → s.cleaned = true
  waiting : s.cleaned = false →
    ∀ i, (s.reporters i).Full ∧ ((s.reporters i).pos ≠ .idle → i ∈ s.main.left)
  early : s.early = true → s.Caught

variable {update} {s s' : System σ ε} {i : I}

@[simp] lemma set_self (s : System σ ε) (r : Reporter (σ i) ε) : (s.set i r).reporters i = r := by
  simp [System.set]

@[simp] lemma set_of_ne (s : System σ ε) (r : Reporter (σ i) ε) {j : I} (h : j ≠ i) :
    (s.set i r).reporters j = s.reporters j := by
  simp [System.set, Function.update_of_ne h]

lemma set_cases {P : (j : I) → Reporter (σ j) ε → Prop} {r : Reporter (σ i) ε} (hi : P i r)
    (hother : ∀ j, j ≠ i → P j (s.reporters j)) (j : I) : P j ((s.set i r).reporters j) := by
  by_cases hij : j = i
  · subst hij
    rw [set_self]
    exact hi
  · rw [set_of_ne s r hij]
    exact hother j hij

omit [DecidableEq I] in
lemma good_init (states : (i : I) → σ i) {order : List I} (h : order.Nodup) :
    Good (init states order : System σ ε) where
  sound i := ⟨fun _ _ => rfl, fun hp => (by cases hp), Nat.zero_le _, fun err he => (by cases he)⟩
  fresh todo defers hm := by
    cases hm
    exact ⟨h, fun i _ => rfl⟩
  begun i defers r hm := by cases hm
  waiting _ i := ⟨rfl, fun hp => absurd rfl hp⟩
  early he := by cases he

lemma caught_set {r : Reporter (σ i) ε} (hm : (s.reporters i).Moves r) (h : s.Caught) :
    (s.set i r).Caught := by
  rcases h with ⟨err, hres, j, hj⟩ | ⟨j, hleft, err, hch⟩
  · refine Or.inl ⟨err, hres, j, ?_⟩
    have hsent : ∀ j, (s.reporters j).sent ⊆ ((s.set i r).reporters j).sent :=
      set_cases (P := fun j r' => (s.reporters j).sent ⊆ r'.sent) hm.sent
        fun _ _ => List.Subset.refl _
    exact hsent j hj
  · refine Or.inr ⟨j, hleft, err, ?_⟩
    have hkept : ∀ j, (s.reporters j).errCh = some err →
        ((s.set i r).reporters j).errCh = some err :=
      set_cases (P := fun j r' => (s.reporters j).errCh = some err → r'.errCh = some err)
        (hm.errCh err) fun _ _ he => he
    exact hkept j hch

/-- **A reporter moves.** -/
lemma good_set {r : Reporter (σ i) ε} (hg : Good s) (hm : (s.reporters i).Moves r) :
    Good (s.set i r) where
  sound := set_cases (P := fun _ r' => r'.Sound) hm.sound fun j _ => hg.sound j
  fresh todo defers hmain := by
    obtain ⟨hnodup, hidle⟩ := hg.fresh todo defers hmain
    refine ⟨hnodup, set_cases (P := fun j r' => j ∈ todo → r'.pos = .idle) ?_ fun j _ => hidle j⟩
    exact fun hi => absurd (hidle i hi) hm.started
  begun := hg.begun
  waiting hclean := by
    have hbefore := hg.waiting hclean
    refine set_cases (P := fun j r' => r'.Full ∧ (r'.pos ≠ .idle → j ∈ s.main.left)) ?_
      fun j _ => hbefore j
    exact ⟨hm.full (hbefore i).1, fun _ => (hbefore i).2 hm.started⟩
  early he := caught_set hm (hg.early he)

lemma good_cancel {r : Reporter (σ i) ε} (hg : Good s) (hpos : (s.reporters i).pos = .cancelling)
    (hm : (s.reporters i).Moves r) :
    Good { s.set i r with canceled := true, early := s.early || !s.cleaned } where
  sound := (good_set hg hm).sound
  fresh := (good_set hg hm).fresh
  begun := hg.begun
  waiting := (good_set hg hm).waiting
  early he := by
    rcases (Bool.or_eq_true _ _).mp he with he | he
    · exact caught_set hm (hg.early he)
    · obtain ⟨hfull, hleft⟩ := hg.waiting (by simpa using he) i
      obtain ⟨err, hsent⟩ := List.exists_mem_of_ne_nil _ ((hg.sound i).sends hpos)
      have hch : ∃ err, (s.reporters i).errCh = some err := by
        rw [hfull]
        exact Option.isSome_iff_exists.mp (List.isSome_head?.mpr (List.ne_nil_of_mem hsent))
      exact caught_set hm (Or.inr ⟨i, hleft (by simp [hpos]), hch⟩)

lemma good_start {todo defers : List I} (hg : Good s)
    (hmain : s.main = .working (i :: todo) defers) :
    Good { s.set i (s.reporters i).start with main := .working todo (i :: defers) } := by
  obtain ⟨hnodup, hidle⟩ := hg.fresh _ _ hmain
  have hpos := hidle i List.mem_cons_self
  have hunsent := (hg.sound i).unsent (by simp [hpos]) (by simp [hpos])
  refine ⟨?_, fun todo' defers' hw => ?_, fun _ _ _ hc => (by cases hc), fun hclean => ?_,
    fun he => ?_⟩
  · refine set_cases (P := fun _ r => r.Sound) ?_ fun j _ => hg.sound j
    exact ⟨fun _ _ => hunsent, fun hc => (by cases hc), (hg.sound i).once, (hg.sound i).holds⟩
  · cases hw
    obtain ⟨hi, htodo⟩ := List.nodup_cons.mp hnodup
    exact ⟨htodo, set_cases (P := fun j r => j ∈ todo → r.pos = .idle) (fun h => absurd h hi)
      fun j _ hj => hidle j (List.mem_cons_of_mem i hj)⟩
  · have hbefore := hg.waiting hclean
    rw [hmain] at hbefore
    exact set_cases (P := fun j r => r.Full ∧ (r.pos ≠ .idle → j ∈ i :: defers))
      ⟨(hbefore i).1, fun _ => List.mem_cons_self⟩
      fun j _ => ⟨(hbefore j).1, fun hp => List.mem_cons_of_mem i ((hbefore j).2 hp)⟩
  · rcases hg.early he with ⟨err, hres, -⟩ | ⟨j, hj, err, hch⟩
    · rw [hmain] at hres
      cases hres
    · rw [hmain] at hj
      refine Or.inr ⟨j, List.mem_cons_of_mem i hj, err, ?_⟩
      -- starting does not touch the channel
      exact set_cases (P := fun k r => k = j → r.errCh = some err) (fun h => h ▸ hch)
        (fun k _ h => h ▸ hch) j rfl

omit [DecidableEq I] in
lemma good_main {m : Main I ε} {c b : Bool} (hg : Good s) (hleft : m.left = s.main.left)
    (hresult : ∀ err, s.main.result = some err → m.result = some err)
    (hfresh : ∀ todo defers, m = .working todo defers →
      ∃ dropped, s.main = .working (dropped ++ todo) defers)
    (hbegun : ∀ i defers r, m = .cleaning i defers r → b = true)
    (hb : b = false → s.cleaned = false) :
    Good { s with main := m, canceled := c, cleaned := b } where
  sound := hg.sound
  fresh todo defers hm := by
    obtain ⟨dropped, hmain⟩ := hfresh todo defers hm
    obtain ⟨hnodup, hidle⟩ := hg.fresh _ _ hmain
    exact ⟨hnodup.of_append_right, fun i hi => hidle i (List.mem_append_right dropped hi)⟩
  begun := hbegun
  waiting hclean i := by
    obtain ⟨hfull, hin⟩ := hg.waiting (hb hclean) i
    exact ⟨hfull, fun hp => by simpa only [hleft] using hin hp⟩
  early he := by
    rcases hg.early he with ⟨err, hres, hsent⟩ | ⟨i, hi, hch⟩
    · exact Or.inl ⟨err, hresult err hres, hsent⟩
    · refine Or.inr ⟨i, ?_, hch⟩
      simpa only [hleft] using hi

lemma good_collect {defers : List I} {r : Option ε} {err : ε} (hg : Good s)
    (hmain : s.main = .cleaning i defers r) (hch : (s.reporters i).errCh = some err) :
    Good { s.set i (s.reporters i).collect with main := .unwinding defers (some err) } := by
  have hclean := hg.begun i defers r hmain
  have hsound := hg.sound i
  refine ⟨?_, fun _ _ hw => (by cases hw), fun _ _ _ hc => (by cases hc), fun hc => ?_,
    fun _ => Or.inl ⟨err, rfl, i, ?_⟩⟩
  · refine set_cases (P := fun _ r => r.Sound) ?_ fun j _ => hg.sound j
    exact ⟨hsound.unsent, hsound.sends, hsound.once, fun err he => (by cases he)⟩
  · exact absurd (hclean.symm.trans hc) (by simp)
  · simp only [set_self]
    exact hsound.holds err hch

omit [DecidableEq I] in
lemma good_skip {defers : List I} {r : Option ε} (hg : Good s)
    (hmain : s.main = .cleaning i defers r) (hch : (s.reporters i).errCh = none) :
    Good { s with main := .unwinding defers r } where
  sound := hg.sound
  fresh _ _ hw := by cases hw
  begun _ _ _ hc := by cases hc
  waiting hc := absurd ((hg.begun i defers r hmain).symm.trans hc) (by simp)
  early he := by
    rcases hg.early he with ⟨err, hres, hsent⟩ | ⟨j, hj, err, hjch⟩
    · rw [hmain] at hres
      exact Or.inl ⟨err, hres, hsent⟩
    · rw [hmain] at hj
      rcases List.mem_cons.mp hj with rfl | hj
      · cases hch.symm.trans hjch
      · exact Or.inr ⟨j, hj, err, hjch⟩

/-- **One step of any thread.** -/
lemma good_step (a : Act In ε) (hg : Good s) (h : step update s a = some s') : Good s' := by
  cases a with
  | start ok =>
    rw [step] at h
    split at h
    · next i todo defers hmain =>
      split_ifs at h <;> cases h
      · exact good_start hg hmain
      · refine good_main hg (by rw [hmain]; rfl) (by simp [hmain, Main.result]) ?_ (by simp) id
        rintro _ _ ⟨⟩
        exact ⟨[i], hmain⟩
    · cases h
  | receive i x =>
    obtain ⟨r, hr, rfl⟩ := Option.map_eq_some_iff.mp h
    exact good_set hg ((hg.sound i).receive hr)
  | closed i =>
    obtain ⟨r, hr, rfl⟩ := Option.map_eq_some_iff.mp h
    exact good_set hg ((hg.sound i).quit hr)
  | ctxDone i =>
    rw [step] at h
    split_ifs at h
    obtain ⟨r, hr, rfl⟩ := Option.map_eq_some_iff.mp h
    exact good_set hg ((hg.sound i).quit hr)
  | send i =>
    obtain ⟨r, hr, rfl⟩ := Option.map_eq_some_iff.mp h
    exact good_set hg ((hg.sound i).send hr)
  | cancel i =>
    obtain ⟨r, hr, rfl⟩ := Option.map_eq_some_iff.mp h
    obtain ⟨hpos, hm⟩ := (hg.sound i).cancel hr
    exact good_cancel hg hpos hm
  | expire =>
    cases h
    exact ⟨hg.sound, hg.fresh, hg.begun, hg.waiting, hg.early⟩
  | finish r =>
    rw [step] at h
    split at h
    · next defers hmain =>
      cases h
      exact good_main hg (by rw [hmain]; rfl) (by simp [hmain, Main.result]) (by simp) (by simp) id
    · cases h
  | unwind =>
    rw [step] at h
    split at h
    · next r hmain =>
      cases h
      exact good_main hg (by rw [hmain]; rfl) (by simp [hmain, Main.result]) (by simp) (by simp) id
    · next i defers r hmain =>
      cases h
      exact good_main hg (by rw [hmain]; rfl) (by simp [hmain, Main.result]) (by simp) (by simp)
        (by simp)
    · next i defers r hmain =>
      split at h
      · next err hch =>
        cases h
        exact good_collect hg hmain hch
      · next hch =>
        cases h
        exact good_skip hg hmain hch
    · cases h

/-- **All threads.** -/
theorem good_run {states : (i : I) → σ i} {order : List I} {as : List (Act In ε)}
    (hn : order.Nodup) (h : run (step update) (init states order) as = some s) : Good s := by
  refine run_inv (P := Good) (fun t a t' hg ht => ?_) (good_init states hn) h
  exact good_step a hg ht

/-! ### What follows -/

/-- **No send waits.** -/
lemma Good.send_some {err : ε} (hg : Good s) (h : (s.reporters i).pos = .sending err) :
    (step update s (.send i)).isSome = true := by
  rw [step, Option.isSome_map]
  exact (hg.sound i).send_some h

omit [DecidableEq I] in
lemma Good.returned {r : Option ε} (hg : Good s) (he : s.early = true)
    (h : s.main = .returned r) : ∃ err, r = some err ∧ s.Reported err := by
  rcases hg.early he with ⟨err, hres, hsent⟩ | ⟨i, hi, -⟩
  · rw [h] at hres
    exact ⟨err, hres, hsent⟩
  · rw [h] at hi
    cases hi

variable (update) in
lemma unwind_step {n : ℕ} (h : s.main.rest = n + 1) :
    ∃ s', step update s .unwind = some s' ∧ s'.main.rest = n ∧ s'.early = s.early ∧
      ∀ todo defers, s'.main ≠ .working todo defers := by
  rw [step]
  cases hmain : s.main with
  | working todo defers => simp [hmain, Main.rest] at h
  | unwinding defers r =>
    cases defers with
    | nil =>
      refine ⟨_, rfl, ?_, rfl, by simp⟩
      simp only [hmain, Main.rest, List.length_nil] at h ⊢
      omega
    | cons i defers =>
      refine ⟨_, rfl, ?_, rfl, by simp⟩
      simp only [hmain, Main.rest, List.length_cons] at h ⊢
      omega
  | cleaning i defers r =>
    have hlen : 2 * defers.length + 1 = n := by
      simp only [hmain, Main.rest] at h
      omega
    cases hch : (s.reporters i).errCh with
    | some err =>
      simp only [hch]
      exact ⟨_, rfl, hlen, rfl, by simp⟩
    | none =>
      simp only [hch]
      exact ⟨_, rfl, hlen, rfl, by simp⟩
  | returned r => simp [hmain, Main.rest] at h

variable (update) in
/-- **It returns.** -/
lemma unwind_run {n : ℕ} (h : s.main.rest = n)
    (hwork : ∀ todo defers, s.main ≠ .working todo defers) :
    ∃ s' r, run (step update) s (List.replicate n .unwind) = some s' ∧ s'.main = .returned r ∧
      s'.early = s.early := by
  induction n generalizing s with
  | zero =>
    cases hmain : s.main with
    | working todo defers => exact absurd hmain (hwork todo defers)
    | unwinding defers r => simp [hmain, Main.rest] at h
    | cleaning i defers r => simp [hmain, Main.rest] at h
    | returned r => exact ⟨s, r, rfl, hmain, rfl⟩
  | succ n ih =>
    obtain ⟨t, ht, hrest, hearly, hwork'⟩ := unwind_step update h
    obtain ⟨s', r, hrun, hmain, hearly'⟩ := ih hrest hwork'
    refine ⟨s', r, ?_, hmain, hearly'.trans hearly⟩
    rw [List.replicate_succ, run_cons, ht]
    exact hrun

end Kne.Reporters
