import Kne.CarrierSync
import Kne.Tallies

/-!
The exchange of carriers comes to an end.

Every step of the protocol uses up something that others have left behind: a report of a watch, a
watch that was told to stop, a call to come, a kick, a notification, a flag that is set. What it
leaves behind weighs less than what it uses up, also when it makes the other end send its state: a
request for the state is not answered with another. So as long as calls do not fail, the two ends
come to rest after a number of steps that is known beforehand.
-/

namespace Kne.CarrierSettle

open Kne.Runs Kne.CarrierModel Kne.CarrierSync Kne.Tallies

variable {p q : Pusher} {x : Side} {s t : St} {a : Act}

/-! ### The weight of what is left to do -/

def workerWeight : Worker → ℕ
  | .waiting | .done => 0
  | .looking => 1
  | .backoff | .sending _ true => 2
  | .sending req false => 3 + 8 * req.requestSync.toNat

def owedWeight (owed : List Bool) : ℕ := (owed.map fun sync => 7 + 8 * sync.toNat).sum

def weight (p : Pusher) : ℕ :=
  7 * p.read.toList.length + owedWeight p.owed + 3 * p.kicks + 2 * p.notify.toNat +
    3 * p.dirty.toNat + 8 * p.requestSync.toNat + workerWeight p.worker

/-- The pushers of an end, and the reports of its watches; one report may set the state of every
pusher. -/
def load (x : Side) : ℕ := ∑ i ∈ Finset.range (x.gen + 1), weight (x.pusher i)

/-- The reports to come, also from watches that were told to stop. -/
def updates (x : Side) : List Bool := x.watch.elim [] (·.updates) ++ x.old.flatten

def potential (x : Side) : ℕ :=
  load x + (6 * (x.gen + 1) + 1) * (updates x).length + x.old.length

def total (s : St) : ℕ := potential (s false) + potential (s true)

/-- A step of the protocol in which no call fails and the pusher, if it has something to send, has a
wire that is ready. -/
def Smooth (s : St) : Act → Prop
  | .move e i .look =>
    ((s e).pusher i).dirty = true → ((s e).pusher i).known = true → ((s e).pusher i).ready = true
  | .move _ _ .fail | .move _ _ .unimplemented | .move _ _ .leave => False
  | .move _ _ _ | .apply _ _ | .report _ | .lateReport _ _ | .endWatch _ _ => True
  | _ => False

/-- The end is there, ready and registered, and its pusher has not ended. -/
structure Live (x : Side) : Prop where
  handle : x.handle = true
  ready : x.cur.ready = true
  worker : x.cur.worker ≠ .done
  watch : ∃ w ∈ x.watch, x.gen ∈ w.wires

instance decidableSmooth (s : St) : (a : Act) → Decidable (Smooth s a)
  | .move _ _ .look => inferInstanceAs (Decidable (_ → _))
  | .move _ _ .fail | .move _ _ .unimplemented | .move _ _ .leave => .isFalse id
  | .move _ _ .setRead | .move _ _ .resend | .move _ _ .kick | .move _ _ .wake | .move _ _ .acked
  | .move _ _ .elapse | .apply _ _ | .report _ | .lateReport _ _ | .endWatch _ _ => .isTrue trivial
  | .applyLate _ _ _ | .setLink _ _ | .startCarrier _ _ _ _ | .register _ _ _ | .updateWire _
  | .stopCarrier _ _ => .isFalse id

instance decidableLive (x : Side) : Decidable (Live x) :=
  decidable_of_iff (x.handle = true ∧ x.cur.ready = true ∧ x.cur.worker ≠ .done ∧
      ∃ w ∈ x.watch, x.gen ∈ w.wires)
    ⟨fun ⟨hh, hr, hw, hj⟩ => ⟨hh, hr, hw, hj⟩, fun h => ⟨h.handle, h.ready, h.worker, h.watch⟩⟩

lemma weight_setAdmin (p : Pusher) (up : Bool) : weight (p.setAdmin up) ≤ weight p + 6 := by
  rcases setAdmin_cases p up with ⟨-, -, h⟩ | h
  · rw [h]
    omega
  · rw [h]
    simp only [weight, Bool.toNat_true]
    omega

lemma weight_move {m : Move} (h : p.move m = some q)
    (hlook : m = .look → p.dirty = true → p.known = true → p.ready = true)
    (hm : m ≠ .fail ∧ m ≠ .unimplemented ∧ m ≠ .leave) : weight q < weight p := by
  cases m with
  | setRead =>
    obtain ⟨up, hup, rfl⟩ := Option.map_eq_some_iff.mp h
    have hset := weight_setAdmin p up
    have hread : (p.setAdmin up).read = some up := hup
    simp only [weight, hread, hup, Option.toList_some, List.length_singleton, Option.toList_none,
      List.length_nil] at hset ⊢
    omega
  | resend =>
    simp only [Pusher.move] at h
    split at h
    · next rs owed ho =>
      obtain rfl := Option.some.inj h
      simp only [weight, Pusher.resend, ho, owedWeight, List.map_cons, List.sum_cons]
      cases p.requestSync <;> cases rs <;> simp <;> omega
    · cases h
  | kick =>
    simp only [Pusher.move] at h
    split at h
    · obtain rfl := Option.some.inj h
      simp only [weight, Pusher.kick, Bool.toNat_true]
      omega
    · cases h
  | wake =>
    simp only [Pusher.move] at h
    split at h
    · next hw =>
      obtain rfl := Option.some.inj h
      simp only [weight, hw.1, hw.2, workerWeight, Bool.toNat_true, Bool.toNat_false]
      omega
    · cases h
  | look =>
    simp only [Pusher.move] at h
    split at h
    · next hw =>
      obtain rfl := Option.some.inj h
      rcases look_cases p with ⟨-, hl⟩ | ⟨hd, hk, hr, -⟩ | ⟨hd, hk, -, hl⟩
      · simp only [hl, weight, hw, workerWeight]
        omega
      · exact absurd ((hlook rfl hd hk).symm.trans hr) (by simp)
      · simp only [hl, weight, hw, hd, workerWeight, Bool.toNat_true, Bool.toNat_false]
        omega
    · cases h
  | acked =>
    simp only [Pusher.move] at h
    split at h
    · next hw =>
      obtain rfl := Option.some.inj h
      simp only [weight, hw, workerWeight]
      omega
    · cases h
  | elapse =>
    simp only [Pusher.move] at h
    split at h
    · next hw =>
      obtain rfl := Option.some.inj h
      simp only [weight, hw, workerWeight]
      omega
    · cases h
  | fail => exact absurd rfl hm.1
  | unimplemented => exact absurd rfl hm.2.1
  | leave => exact absurd rfl hm.2.2

lemma weight_applied {req : Req} (hw : p.worker = .sending req false) :
    weight { p with worker := .sending req true } + (1 + 8 * req.requestSync.toNat) = weight p := by
  simp only [weight, hw, workerWeight]
  omega

lemma load_modify {i : ℕ} (hi : i ≤ x.gen) (f : Pusher → Pusher) :
    load (x.modify i f) + weight (x.pusher i) = load x + weight (f (x.pusher i)) :=
  sum_update_add _ weight x.pusher (Finset.mem_range.mpr (Nat.lt_succ_of_le hi)) _

lemma potential_modify {i : ℕ} (hi : i ≤ x.gen) (f : Pusher → Pusher) :
    potential (x.modify i f) + weight (x.pusher i) = potential x + weight (f (x.pusher i)) := by
  have h := load_modify hi f
  change load (x.modify i f) + (6 * (x.gen + 1) + 1) * (updates x).length + x.old.length + _ =
    potential x + _
  unfold potential
  omega

lemma potential_setWireCarrier (x : Side) (req : Req) (stray : Bool) :
    potential (x.setWireCarrier req stray) = potential x + 7 * req.requestSync.toNat := by
  unfold Side.setWireCarrier
  cases req.requestSync with
  | false => rfl
  | true =>
    have h := potential_modify (x := x) le_rfl fun p => { p with owed := p.owed ++ [false] }
    have hw : weight { x.pusher x.gen with owed := (x.pusher x.gen).owed ++ [false] } =
        weight (x.pusher x.gen) + 7 := by
      simp only [weight, owedWeight, List.map_append, List.sum_append, List.map_singleton,
        List.sum_singleton, Bool.toNat_false]
      omega
    rw [hw] at h
    change potential x.owe = _
    simp only [Side.owe, Bool.toNat_true]
    omega

lemma load_onAdminChange (x : Side) (up : Bool) :
    load (x.onAdminChange up) ≤ load x + 6 * (x.gen + 1) := by
  unfold Side.onAdminChange
  split
  · next w hw =>
    calc load _ ≤ ∑ i ∈ Finset.range (x.gen + 1), (weight (x.pusher i) + 6) := by
          refine Finset.sum_le_sum fun i _ => ?_
          change weight (if i ∈ w.wires then (x.pusher i).setAdmin up else x.pusher i) ≤ _
          split
          · exact weight_setAdmin _ up
          · omega
      _ = load x + 6 * (x.gen + 1) := by
          rw [Finset.sum_add_distrib, Finset.sum_const, Finset.card_range, smul_eq_mul,
            Nat.mul_comm]
          rfl
  · omega

lemma onAdminChange_leaves (x : Side) (up : Bool) : (x.onAdminChange up).gen = x.gen ∧
    updates (x.onAdminChange up) = updates x ∧ (x.onAdminChange up).old = x.old := by
  unfold Side.onAdminChange
  split
  · next w hw => exact ⟨rfl, by simp [updates, hw], rfl⟩
  · exact ⟨rfl, rfl, rfl⟩

lemma potential_onAdminChange {y : Side} (up : Bool) (hload : load y = load x)
    (hgen : y.gen = x.gen) (hup : (updates y).length + 1 = (updates x).length)
    (hold : y.old.length = x.old.length) : potential (y.onAdminChange up) < potential x := by
  obtain ⟨hg, hu, ho⟩ := onAdminChange_leaves y up
  have hle := load_onAdminChange y up
  unfold potential
  rw [hg, hu, ho, hgen, hold, ← hup, Nat.mul_succ (6 * (x.gen + 1) + 1)]
  rw [hload, hgen] at hle
  omega

lemma potential_report {w : Watch} {up : Bool} {rest : List Bool} (hw : x.watch = some w)
    (hup : w.updates = up :: rest) :
    potential ((x.setWatch (some { w with updates := rest })).onAdminChange up) < potential x := by
  refine potential_onAdminChange up rfl rfl ?_ rfl
  simp [updates, Side.setWatch, hw, hup]

lemma potential_lateReport {k : ℕ} {up : Bool} {rest : List Bool}
    (h : x.old[k]? = some (up :: rest)) :
    potential ({ x with old := x.old.set k rest }.onAdminChange up) < potential x := by
  refine potential_onAdminChange up rfl rfl ?_ (by simp)
  have hlen := length_flatten_set h
  simp only [updates, List.length_append]
  omega

lemma potential_endWatch {k : ℕ} (hk : k < x.old.length) :
    potential { x with old := x.old.eraseIdx k } < potential x := by
  have hsub : (x.old.eraseIdx k).flatten.length ≤ x.old.flatten.length :=
    (List.eraseIdx_sublist x.old k).flatten.length_le
  have hup : (updates { x with old := x.old.eraseIdx k }).length ≤ (updates x).length := by
    simp only [updates, List.length_append]
    omega
  have hold : (x.old.eraseIdx k).length + 1 = x.old.length := by
    rw [List.length_eraseIdx_of_lt hk]
    omega
  have hmul := Nat.mul_le_mul_left (6 * (x.gen + 1) + 1) hup
  have hload : load { x with old := x.old.eraseIdx k } = load x := rfl
  unfold potential
  dsimp only at hmul ⊢
  omega

lemma total_eq (s : St) (e : Bool) : total s = potential (s e) + potential (s !e) := by
  cases e with
  | false => rfl
  | true => exact Nat.add_comm _ _

lemma total_set (s : St) (e : Bool) (x : Side) :
    total (s.set e x) + potential (s e) = total s + potential x := by
  rw [total_eq _ e, total_eq s e, set_self, set_not]
  omega

lemma total_set_lt {e : Bool} (h : potential x < potential (s e)) :
    total (s.set e x) < total s := by
  have := total_set s e x
  omega

lemma total_set_set (s : St) (e : Bool) (x y : Side) :
    total ((s.set e x).set (!e) y) = potential x + potential y := by
  rw [total_eq _ e]
  simp

lemma total_lt (hstep : step s a = some t) (hsmooth : Smooth s a) : total t < total s := by
  cases a with
  | move e i m =>
    simp only [step] at hstep
    split at hstep
    · next hi =>
      obtain ⟨q, hq, rfl⟩ := Option.map_eq_some_iff.mp hstep
      have hlt : weight q < weight ((s e).pusher i) := by
        refine weight_move hq ?_ ?_
        · rintro rfl
          exact hsmooth
        · refine ⟨?_, ?_, ?_⟩ <;> rintro rfl <;> exact hsmooth
      have hmod := potential_modify hi fun _ => q
      exact total_set_lt (by omega)
    · cases hstep
  | apply e i =>
    simp only [step] at hstep
    split at hstep
    · next hi =>
      split at hstep
      · next req hw =>
        obtain rfl := Option.some.inj hstep
        have hmod := potential_modify hi.1 fun p => { p with worker := .sending req true }
        have hset := potential_setWireCarrier (s !e) req (decide (i ≠ (s e).gen))
        have hweight := weight_applied hw
        rw [total_set_set, total_eq s e, hset]
        omega
      · cases hstep
    · cases hstep
  | report e =>
    simp only [step] at hstep
    split at hstep
    · next w hw =>
      split at hstep
      · next up rest hup =>
        obtain rfl := Option.some.inj hstep
        exact total_set_lt (potential_report hw hup)
      · cases hstep
    · cases hstep
  | lateReport e k =>
    simp only [step] at hstep
    split at hstep
    · next up rest hold =>
      obtain rfl := Option.some.inj hstep
      exact total_set_lt (potential_lateReport hold)
    · cases hstep
  | endWatch e k =>
    simp only [step] at hstep
    split at hstep
    · next hk =>
      obtain rfl := Option.some.inj hstep
      exact total_set_lt (potential_endWatch hk)
    · cases hstep
  | applyLate e i req => exact hsmooth.elim
  | setLink e up => exact hsmooth.elim
  | startCarrier e requestSync ready others => exact hsmooth.elim
  | register e i ok => exact hsmooth.elim
  | updateWire e => exact hsmooth.elim
  | stopCarrier e others => exact hsmooth.elim

/-! ### Steps of live ends -/

lemma live_move {m : Move} (h : p.move m = some q)
    (hm : m ≠ .fail ∧ m ≠ .unimplemented ∧ m ≠ .leave) (hp : p.worker ≠ .done) :
    q.worker ≠ .done ∧ q.ready = p.ready := by
  cases m with
  | setRead =>
    obtain ⟨up, -, rfl⟩ := Option.map_eq_some_iff.mp h
    exact ⟨hp, rfl⟩
  | resend =>
    simp only [Pusher.move] at h
    split at h
    · cases h
      exact ⟨hp, rfl⟩
    · cases h
  | kick =>
    simp only [Pusher.move] at h
    split at h
    · cases h
      exact ⟨hp, rfl⟩
    · cases h
  | wake | elapse | acked =>
    simp only [Pusher.move] at h
    split at h
    · cases h
      exact ⟨by simp, rfl⟩
    · cases h
  | look =>
    simp only [Pusher.move] at h
    split at h
    · obtain rfl := Option.some.inj h
      rcases look_cases p with ⟨-, hl⟩ | ⟨-, -, -, hl⟩ | ⟨-, -, -, hl⟩ <;> simp [hl]
    · cases h
  | fail => exact absurd rfl hm.1
  | unimplemented => exact absurd rfl hm.2.1
  | leave => exact absurd rfl hm.2.2

lemma Live.congr {x' : Side} (h : Live x) (hh : x'.handle = x.handle) (hg : x'.gen = x.gen)
    (hw : x'.watch = x.watch) (hr : x'.cur.ready = x.cur.ready) (hd : x'.cur.worker ≠ .done) :
    Live x' :=
  ⟨hh.trans h.handle, hr.trans h.ready, hd, by rw [hw, hg]; exact h.watch⟩

lemma Live.setWireCarrier (h : Live x) (req : Req) (stray : Bool) :
    Live (x.setWireCarrier req stray) := by
  have hcur := cur_setWireCarrier x req stray
  refine h.congr ?_ ?_ ?_ ?_ ?_
  · unfold Side.setWireCarrier; split <;> rfl
  · unfold Side.setWireCarrier; split <;> rfl
  · unfold Side.setWireCarrier; split <;> rfl
  · rw [hcur]; split <;> rfl
  · rw [hcur]
    split <;> exact h.worker

lemma Live.onAdminChange (h : Live x) (up : Bool) : Live (x.onAdminChange up) := by
  obtain ⟨w, hw, hmem⟩ := h.watch
  have hw : x.watch = some w := hw
  have hcur : (x.onAdminChange up).cur = x.cur.setAdmin up := by
    simp only [Side.onAdminChange, hw]
    exact if_pos hmem
  refine ⟨?_, by rw [hcur]; exact h.ready, by rw [hcur]; exact h.worker, ?_⟩
  · simp only [Side.onAdminChange, hw]
    exact h.handle
  · simp only [Side.onAdminChange, hw]
    exact ⟨_, rfl, hmem⟩

lemma live_step (h : ∀ e, Live (s e)) (hstep : step s a = some t) (hsmooth : Smooth s a) :
    ∀ e, Live (t e) := by
  cases a with
  | move e i m =>
    simp only [step] at hstep
    split at hstep
    · obtain ⟨q, hq, rfl⟩ := Option.map_eq_some_iff.mp hstep
      have hm : m ≠ .fail ∧ m ≠ .unimplemented ∧ m ≠ .leave := by
        refine ⟨?_, ?_, ?_⟩ <;> rintro rfl <;> exact hsmooth
      refine (Bool.forall_bool' e).mpr ⟨?_, by simpa using h !e⟩
      rw [set_self]
      by_cases hi : i = (s e).gen
      · subst hi
        obtain ⟨hd, hr⟩ := live_move hq hm (h e).worker
        refine (h e).congr rfl rfl rfl ?_ ?_
        · rw [cur_modify, if_pos rfl]
          exact hr
        · rw [cur_modify, if_pos rfl]
          exact hd
      · refine (h e).congr rfl rfl rfl ?_ ?_
        · rw [cur_modify, if_neg hi]
        · rw [cur_modify, if_neg hi]
          exact (h e).worker
    · cases hstep
  | apply e i =>
    simp only [step] at hstep
    split at hstep
    · split at hstep
      · next req hw =>
        obtain rfl := Option.some.inj hstep
        refine (Bool.forall_bool' e).mpr ⟨?_, ?_⟩
        · rw [set_of_not, set_self]
          refine (h e).congr rfl rfl rfl ?_ ?_
          · rw [cur_modify]; split <;> rfl
          · rw [cur_modify]
            split
            · simp
            · exact (h e).worker
        · rw [set_self]
          exact (h !e).setWireCarrier _ _
      · cases hstep
    · cases hstep
  | report e =>
    simp only [step] at hstep
    split at hstep
    · next w hw =>
      split at hstep
      · next up rest hup =>
        obtain rfl := Option.some.inj hstep
        refine (Bool.forall_bool' e).mpr ⟨?_, by simpa using h !e⟩
        rw [set_self]
        obtain ⟨v, hv, hmem⟩ := (h e).watch
        obtain rfl : w = v := Option.some.inj (hw.symm.trans hv)
        refine Live.onAdminChange ?_ up
        exact ⟨(h e).handle, (h e).ready, (h e).worker, _, rfl, hmem⟩
      · cases hstep
    · cases hstep
  | lateReport e k =>
    simp only [step] at hstep
    split at hstep
    · next up rest hold =>
      obtain rfl := Option.some.inj hstep
      refine (Bool.forall_bool' e).mpr ⟨?_, by simpa using h !e⟩
      rw [set_self]
      refine Live.onAdminChange ?_ up
      exact ⟨(h e).handle, (h e).ready, (h e).worker, (h e).watch⟩
    · cases hstep
  | endWatch e k =>
    simp only [step] at hstep
    split at hstep
    · obtain rfl := Option.some.inj hstep
      refine (Bool.forall_bool' e).mpr ⟨?_, by simpa using h !e⟩
      rw [set_self]
      exact ⟨(h e).handle, (h e).ready, (h e).worker, (h e).watch⟩
    · cases hstep
  | applyLate e i req => exact hsmooth.elim
  | setLink e up => exact hsmooth.elim
  | startCarrier e requestSync ready others => exact hsmooth.elim
  | register e i ok => exact hsmooth.elim
  | updateWire e => exact hsmooth.elim
  | stopCarrier e others => exact hsmooth.elim

lemma rest_of_stuck (h : ∀ e, Live (s e)) (hstuck : ∀ a, Smooth s a → step s a = none) (e : Bool) :
    Rest (s e) := by
  have hmove : ∀ m, Smooth s (.move e (s e).gen m) → (s e).cur.move m = none := by
    intro m hm
    have := hstuck _ hm
    simp only [step, le_refl, if_true, Option.map_eq_none_iff] at this
    exact this
  have hwait : (s e).cur.worker = .waiting := by
    cases hw : (s e).cur.worker with
    | waiting => rfl
    | looking => simpa [Pusher.move, hw] using hmove .look fun _ _ => (h e).ready
    | sending req applied =>
      cases applied with
      | true => simpa [Pusher.move, hw] using hmove .acked trivial
      | false =>
        have := hstuck (.apply e (s e).gen) trivial
        have hw : ((s e).pusher (s e).gen).worker = .sending req false := hw
        simp [step, (h !e).handle, hw] at this
    | backoff => simpa [Pusher.move, hw] using hmove .elapse trivial
    | done => exact absurd hw (h e).worker
  refine ⟨hwait, ?_, ?_, ?_, ?_, ?_⟩
  · simpa [Pusher.move] using hmove .kick trivial
  · simpa [Pusher.move, hwait] using hmove .wake trivial
  · cases ho : (s e).cur.owed with
    | nil => rfl
    | cons rs owed => simpa [Pusher.move, ho] using hmove .resend trivial
  · simpa [Pusher.move] using hmove .setRead trivial
  · obtain ⟨w, hw, hmem⟩ := (h e).watch
    refine ⟨w, hw, hmem, ?_⟩
    cases hup : w.updates with
    | nil => rfl
    | cons up rest =>
      have := hstuck (.report e) trivial
      have hw : (s e).watch = some w := hw
      simp [step, hw, hup] at this

/-- **The exchange comes to an end.** From any state of two live ends: as long as calls do not fail,
the protocol takes no more than `total s` steps in any order, and when it can take no more, both
ends are at rest. -/
theorem carriers_settle {bs : List Act} (hlive : ∀ e, Live (s e)) (hrun : run step s bs = some t)
    (hsmooth : Along step Smooth s bs) :
    bs.length + total t ≤ total s ∧
      ((∀ a, Smooth t a → step t a = none) → ∀ e, Rest (t e)) := by
  induction bs generalizing s with
  | nil =>
    obtain rfl := Option.some.inj hrun
    exact ⟨by simp, rest_of_stuck hlive⟩
  | cons b bs ih =>
    rw [run_cons, Option.bind_eq_some_iff] at hrun
    obtain ⟨u, hu, hrun⟩ := hrun
    obtain ⟨hlen, hrest⟩ := ih (live_step hlive hu hsmooth.1) hrun (hsmooth.2 u hu)
    refine ⟨?_, hrest⟩
    have hlt := total_lt hu hsmooth.1
    rw [List.length_cons]
    omega

theorem carriers_settle_flap : ∃ s t, run step init (exchange ++ [.setLink false false]) = some s ∧
    run step s (.report false :: sends false 1) = some t ∧ (t true).carrier = false ∧
    (.report false :: sends false 1).length + total t ≤ total s ∧
    ((∀ a, Smooth t a → step t a = none) → ∀ e, Rest (t e)) := by
  have hend : (run step init (exchange ++ [.setLink false false])).any fun s =>
      (Live (s false) ∧ Live (s true)) ∧ Along step Smooth s (.report false :: sends false 1) ∧
        ((run step s (.report false :: sends false 1)).any fun t => (t true).carrier = false) =
          true := by decide
  obtain ⟨s, hs, h⟩ := (Option.any_eq_true _ _).mp hend
  obtain ⟨⟨hf, ht⟩, hsmooth, h⟩ := of_decide_eq_true h
  obtain ⟨t, hrun, hc⟩ := (Option.any_eq_true _ _).mp h
  refine ⟨s, t, hs, hrun, of_decide_eq_true hc, carriers_settle ?_ hrun hsmooth⟩
  exact Bool.forall_bool.mpr ⟨hf, ht⟩

end Kne.CarrierSettle
