import Kne.LinkModel
import Kne.Runs

/-!
The link-state half of an `InterfaceDemux`: observations of its interface come in through a
channel that keeps only the latest one, and the states to report go out to every subscriber
through channels that keep only the latest one.

A critical section under `linkMu` is one step, except that `observeLink` publishes to one
subscriber after the other with the lock held: the two selects of each `publishLatest` are
two steps, and the subscribers may read between them. The history variables `log`, `last`,
`newest` and `since` record the states reported, the observation last processed, the one last
passed to the events channel, and from where on in the log a subscriber is entitled to the
states.
-/

namespace Kne.LinkFanout

open Kne.LinkModel Kne.Runs

/-- A subscriber: its channel, and what it has received. -/
structure Sub where
  chan : Option LinkState := none
  recv : List LinkState := []
  since : ℕ := 0
  deriving DecidableEq, Repr

/-- `observeLink` in its loop: the state to publish, the channels it has not come to, and the
channel it has emptied and not yet filled. -/
structure Publishing where
  state : LinkState
  todo : List ℕ
  cur : Option ℕ
  deriving DecidableEq, Repr

structure St where
  attached : Bool := false
  events : Option LinkObservation := none
  /-- The observation `watch` is about to put into the emptied events channel. -/
  watch : Option LinkObservation := none
  /-- The observation taken from the events channel and not yet passed to `observeLink`. -/
  hand : Option LinkObservation := none
  reporter : LinkReporter := {}
  pub : Option Publishing := none
  linkListeners : List ℕ := []
  next : ℕ := 0
  subs : ℕ → Sub := fun _ => {}
  log : List LinkState := []
  last : Option LinkObservation := none
  newest : Option LinkObservation := none

/-- A netlink update: the interface it is about, whether it is an `RTM_DELLINK`, the flags. -/
structure LinkUpdate where
  index : ℤ
  delLink : Bool
  flags : UInt32
  deriving DecidableEq, Repr

inductive Act
  | attachLink (cur : Option LinkObservation)
  | update (u : LinkUpdate)
  | updatePut
  | take
  | observeLink
  | publish (c : ℕ)
  | publishPut
  | unlock
  | subscribeLinkState
  | unsubscribeLinkState (c : ℕ)
  | read (c : ℕ)
  deriving DecidableEq, Repr

/-- `attachLink`, with what `Current` returned. -/
def attachLink (s : St) (cur : Option LinkObservation) : St :=
  match cur with
  | none => { s with attached := true }
  | some o =>
    let (l, r) := observe s.reporter o
    { s with attached := true, reporter := r, log := s.log ++ report l, last := some o }

/-- `observeLink` up to its loop, which it enters only with a state to report. -/
def observeLink (s : St) (o : LinkObservation) : St :=
  let (l, r) := observe s.reporter o
  let s := { s with hand := none, reporter := r, last := some o }
  if l = .unknown then s
  else { s with log := s.log ++ [l], pub := some ⟨l, s.linkListeners, none⟩ }

/-- `subscribeLinkState`: the new channel holds the current state, if there is one. -/
def subscribeLinkState (s : St) : St :=
  let l := current s.reporter
  { s with
    linkListeners := s.linkListeners ++ [s.next]
    next := s.next + 1
    subs := Function.update s.subs s.next
      ⟨(report l).head?, [], s.log.length - (report l).length⟩ }

/-- One step of a demux that watches the interface with index `idx`. The initial observation
comes before every subscription, and only one observation is processed at a time. -/
def step (idx : ℤ) (s : St) : Act → Option St
  | .attachLink cur =>
    if s.attached || s.next ≠ 0 || s.pub.isSome then none else some (attachLink s cur)
  | .update u =>
    if s.watch.isSome then none
    else if u.index ≠ idx || u.delLink then some s
    else some { s with
      events := selectRecv s.events
      watch := some (observationFromFlags u.flags)
      newest := some (observationFromFlags u.flags) }
  | .updatePut =>
    s.watch.map fun o => { s with events := selectSend s.events o, watch := none }
  | .take =>
    if s.attached && s.hand.isNone && s.pub.isNone then
      s.events.map fun o => { s with events := none, hand := some o }
    else none
  | .observeLink => if s.pub.isSome then none else s.hand.map (observeLink s)
  | .publish c =>
    s.pub.bind fun p =>
      if c ∈ p.todo ∧ p.cur = none then
        some { s with
          pub := some { p with todo := p.todo.erase c, cur := some c }
          subs := Function.update s.subs c
            { s.subs c with chan := selectRecv (s.subs c).chan } }
      else none
  | .publishPut =>
    s.pub.bind fun p => p.cur.map fun c =>
      { s with
        pub := some { p with cur := none }
        subs := Function.update s.subs c
          { s.subs c with chan := selectSend (s.subs c).chan p.state } }
  | .unlock =>
    s.pub.bind fun p =>
      if p.todo = [] ∧ p.cur = none then some { s with pub := none } else none
  | .subscribeLinkState => if s.pub.isSome then none else some (subscribeLinkState s)
  | .unsubscribeLinkState c =>
    if s.pub.isSome then none else some { s with linkListeners := s.linkListeners.erase c }
  | .read c =>
    (s.subs c).chan.map fun v =>
      { s with
        subs := Function.update s.subs c
          { s.subs c with chan := none, recv := (s.subs c).recv ++ [v] } }

/-- The states received by a subscriber, and the one waiting in its channel. -/
def Sub.seen (b : Sub) : List LinkState := b.recv ++ b.chan.toList

/-- The subscriber `c` has still to be given the state being published. -/
def Owed (s : St) (c : ℕ) : Prop := ∃ p, s.pub = some p ∧ (c ∈ p.todo ∨ p.cur = some c)

/-! ### What a step can do -/

/-- The cases of a step, with what their guards say. -/
inductive Does (s : St) : St → Prop
  | attach (ha : s.attached = false) (hn : s.next = 0) (hp : s.pub = none)
      (cur : Option LinkObservation) : Does s (attachLink s cur)
  | skip : Does s s
  | update (o : LinkObservation) :
      Does s { s with events := none, watch := some o, newest := some o }
  | updatePut (o : LinkObservation) (hw : s.watch = some o) :
      Does s { s with events := selectSend s.events o, watch := none }
  | take (o : LinkObservation) (ha : s.attached = true) (hh : s.hand = none)
      (he : s.events = some o) : Does s { s with events := none, hand := some o }
  | quiet (hp : s.pub = none) (o : LinkObservation) (hh : s.hand = some o)
      (hl : (observe s.reporter o).1 = .unknown) :
      Does s { s with hand := none, reporter := (observe s.reporter o).2, last := some o }
  | report (hp : s.pub = none) (o : LinkObservation) (hh : s.hand = some o)
      (hl : (observe s.reporter o).1 ≠ .unknown) :
      Does s { s with
        hand := none
        reporter := (observe s.reporter o).2
        last := some o
        log := s.log ++ [(observe s.reporter o).1]
        pub := some ⟨(observe s.reporter o).1, s.linkListeners, none⟩ }
  | publish (p : Publishing) (c : ℕ) (hp : s.pub = some p) (hc : c ∈ p.todo)
      (hcur : p.cur = none) :
      Does s { s with
        pub := some { p with todo := p.todo.erase c, cur := some c }
        subs := Function.update s.subs c { s.subs c with chan := none } }
  | publishPut (p : Publishing) (c : ℕ) (hp : s.pub = some p) (hc : p.cur = some c) :
      Does s { s with
        pub := some { p with cur := none }
        subs := Function.update s.subs c
          { s.subs c with chan := selectSend (s.subs c).chan p.state } }
  | unlock (p : Publishing) (hp : s.pub = some p) (htodo : p.todo = []) (hcur : p.cur = none) :
      Does s { s with pub := none }
  | subscribe (hp : s.pub = none) : Does s (subscribeLinkState s)
  | unsubscribe (hp : s.pub = none) (c : ℕ) :
      Does s { s with linkListeners := s.linkListeners.erase c }
  | read (c : ℕ) (v : LinkState) (hv : (s.subs c).chan = some v) :
      Does s { s with
        subs := Function.update s.subs c
          { s.subs c with chan := none, recv := (s.subs c).recv ++ [v] } }

lemma observeLink_does {s : St} {o : LinkObservation} (hp : s.pub = none)
    (hh : s.hand = some o) : Does s (observeLink s o) := by
  by_cases hl : (observe s.reporter o).1 = .unknown
  · have e : observeLink s o =
        { s with hand := none, reporter := (observe s.reporter o).2, last := some o } := by
      simp [observeLink, hl]
    rw [e]; exact .quiet hp o hh hl
  · have e : observeLink s o = { s with
        hand := none
        reporter := (observe s.reporter o).2
        last := some o
        log := s.log ++ [(observe s.reporter o).1]
        pub := some ⟨(observe s.reporter o).1, s.linkListeners, none⟩ } := by
      simp [observeLink, hl]
    rw [e]; exact .report hp o hh hl

lemma step_does {idx : ℤ} {s t : St} {a : Act} (h : step idx s a = some t) : Does s t := by
  cases a with
  | attachLink cur =>
    simp only [step] at h
    split at h <;> cases h
    rename_i hn
    simp only [Bool.or_eq_true, decide_eq_true_eq, not_or, Bool.not_eq_true, ne_eq,
      Decidable.not_not, Option.isSome_eq_false_iff, Option.isNone_iff_eq_none] at hn
    exact .attach hn.1.1 hn.1.2 hn.2 cur
  | update u =>
    simp only [step] at h
    split at h
    · cases h
    split at h <;> cases h
    · exact .skip
    · exact .update _
  | updatePut =>
    obtain ⟨o, hw, rfl⟩ := Option.map_eq_some_iff.mp h
    exact .updatePut o hw
  | take =>
    simp only [step] at h
    split at h
    · rename_i hg
      simp only [Bool.and_eq_true, Option.isNone_iff_eq_none] at hg
      obtain ⟨o, he, rfl⟩ := Option.map_eq_some_iff.mp h
      exact .take o hg.1.1 hg.1.2 he
    · cases h
  | observeLink =>
    simp only [step] at h
    split at h
    · cases h
    · rename_i hp
      obtain ⟨o, hh, rfl⟩ := Option.map_eq_some_iff.mp h
      exact observeLink_does (by simpa using hp) hh
  | publish c =>
    obtain ⟨p, hp, h⟩ := Option.bind_eq_some_iff.mp h
    split at h <;> cases h
    rename_i hc
    exact .publish p c hp hc.1 hc.2
  | publishPut =>
    obtain ⟨p, hp, h⟩ := Option.bind_eq_some_iff.mp h
    obtain ⟨c, hc, rfl⟩ := Option.map_eq_some_iff.mp h
    exact .publishPut p c hp hc
  | unlock =>
    obtain ⟨p, hp, h⟩ := Option.bind_eq_some_iff.mp h
    split at h <;> cases h
    rename_i hc
    exact .unlock p hp hc.1 hc.2
  | subscribeLinkState =>
    simp only [step] at h
    split at h <;> cases h
    rename_i hp
    exact .subscribe (by simpa using hp)
  | unsubscribeLinkState c =>
    simp only [step] at h
    split at h <;> cases h
    rename_i hp
    exact .unsubscribe (by simpa using hp) c
  | read c =>
    obtain ⟨v, hv, rfl⟩ := Option.map_eq_some_iff.mp h
    exact .read c v hv

/-! ### The locks -/

/-- A value being published meets an empty channel, and only listeners are published to. -/
structure Locks (s : St) : Prop where
  events : s.watch.isSome → s.events = none
  chan : ∀ p c, s.pub = some p → p.cur = some c → (s.subs c).chan = none
  todo : ∀ p, s.pub = some p → p.todo.Nodup ∧ (∀ c ∈ p.todo, c ∈ s.linkListeners) ∧
    ∀ c ∈ p.cur, c ∈ s.linkListeners ∧ c ∉ p.todo
  nodup : s.linkListeners.Nodup
  lt : ∀ c ∈ s.linkListeners, c < s.next

lemma locks_init : Locks {} where
  events h := by simp at h
  chan p c h := by simp at h
  todo p h := by simp at h
  nodup := by simp
  lt c h := by simp at h

lemma locks_step {s t : St} (hl : Locks s) (h : Does s t) : Locks t := by
  obtain ⟨hev, hch, htd, hnd, hlt⟩ := hl
  cases h with
  | attach ha hn hp cur => cases cur <;> exact ⟨hev, hch, htd, hnd, hlt⟩
  | skip => exact ⟨hev, hch, htd, hnd, hlt⟩
  | update o => exact ⟨fun _ => rfl, hch, htd, hnd, hlt⟩
  | updatePut o hw => exact ⟨fun h => by simp at h, hch, htd, hnd, hlt⟩
  | take o ha hh he => exact ⟨fun _ => rfl, hch, htd, hnd, hlt⟩
  | quiet hp o hh hl => exact ⟨hev, hch, htd, hnd, hlt⟩
  | report hp o hh hl =>
    refine ⟨hev, ?_, ?_, hnd, hlt⟩
    · intro p c h hc
      cases h; cases hc
    · intro p h
      cases h
      exact ⟨hnd, fun c hc => hc, by simp⟩
  | publish p c hp hc hcur =>
    obtain ⟨hn, hsub, -⟩ := htd p hp
    refine ⟨hev, ?_, ?_, hnd, hlt⟩
    · intro q d h hd
      cases h; cases hd
      simp
    · intro q h
      cases h
      refine ⟨hn.erase c, fun d hd => hsub d (List.mem_of_mem_erase hd), ?_⟩
      intro d hd
      cases hd
      exact ⟨hsub c hc, by simp [hn.mem_erase_iff]⟩
  | publishPut p c hp hc =>
    obtain ⟨hn, hsub, -⟩ := htd p hp
    refine ⟨hev, ?_, ?_, hnd, hlt⟩
    · intro q d h hd
      cases h; cases hd
    · intro q h
      cases h
      exact ⟨hn, hsub, by simp⟩
  | unlock p hp htodo hcur =>
    exact ⟨hev, fun p c h => by simp at h, fun p h => by simp at h, hnd, hlt⟩
  | subscribe hp =>
    refine ⟨hev, fun p c h => by simp [subscribeLinkState, hp] at h,
      fun p h => by simp [subscribeLinkState, hp] at h, ?_, ?_⟩
    · refine List.nodup_append.mpr ⟨hnd, by simp, ?_⟩
      rintro c hc d hd rfl
      have := hlt c hc
      simp only [List.mem_singleton] at hd
      omega
    · intro c hc
      simp only [subscribeLinkState, List.mem_append, List.mem_singleton] at hc ⊢
      rcases hc with hc | rfl
      · have := hlt c hc; omega
      · omega
  | unsubscribe hp c =>
    exact ⟨hev, fun p c h => by simp [hp] at h, fun p h => by simp [hp] at h, hnd.erase c,
      fun d hd => hlt d (List.mem_of_mem_erase hd)⟩
  | read c v hv =>
    refine ⟨hev, ?_, htd, hnd, hlt⟩
    intro p d hp hd
    by_cases hdc : d = c
    · subst hdc; simp
    · simpa [hdc] using hch p d hp hd

/-- The observation has been passed to the events channel, and was not overtaken since: it is
on its way, or it is the one last processed. -/
def Newest (s : St) (o : LinkObservation) : Prop :=
  s.watch = some o ∨ s.watch = none ∧
    (s.events = some o ∨ s.events = none ∧ (s.hand = some o ∨ s.hand = none ∧ s.last = some o))

structure Kept (s : St) : Prop where
  idle : s.attached = false → s.hand = none ∧ s.last = none
  newest : ∀ o, s.newest = some o → Newest s o

lemma kept_init : Kept {} where
  idle _ := ⟨rfl, rfl⟩
  newest o h := by simp at h

lemma newest_processed {s t : St} {o o' : LinkObservation} (hh : s.hand = some o)
    (hw : t.watch = s.watch) (he : t.events = s.events) (hth : t.hand = none)
    (htl : t.last = some o) (h : Newest s o') : Newest t o' := by
  unfold Newest at h ⊢
  rw [hw, he, hth, htl]
  rcases h with h | ⟨h₁, h | ⟨h₂, h | ⟨h, -⟩⟩⟩
  · exact Or.inl h
  · exact Or.inr ⟨h₁, Or.inl h⟩
  · exact Or.inr ⟨h₁, Or.inr ⟨h₂, Or.inr ⟨rfl, hh.symm.trans h⟩⟩⟩
  · simp [hh] at h

lemma kept_step {s t : St} (hl : Locks s) (hk : Kept s) (h : Does s t) : Kept t := by
  obtain ⟨hi, hn'⟩ := hk
  cases h with
  | attach ha hn hp cur =>
    obtain ⟨h1, h2⟩ := hi ha
    refine ⟨fun h => ?_, fun o ho => ?_⟩
    · cases cur <;> cases h
    · have := hn' o (by cases cur <;> exact ho)
      simp only [Newest, h1, h2, reduceCtorEq, and_false, or_false] at this
      -- nothing was processed before, so the newest observation is still on its way
      cases cur <;> exact this.imp id (And.imp id Or.inl)
  | update o => exact ⟨hi, fun o' h => Or.inl h⟩
  | updatePut o hw =>
    refine ⟨hi, fun o' ho => Or.inr ⟨rfl, Or.inl ?_⟩⟩
    rcases hn' o' ho with h | ⟨h, -⟩
    · have : o' = o := by simpa [hw] using h.symm
      simp [hl.events (by simp [hw]), selectSend, this]
    · simp [hw] at h
  | take o ha hh he =>
    refine ⟨fun h => absurd (ha.symm.trans h) (by simp), fun o' ho => ?_⟩
    rcases hn' o' ho with h | ⟨h₁, h | ⟨h, -⟩⟩
    · exact Or.inl h
    · exact Or.inr ⟨h₁, Or.inr ⟨rfl, Or.inl (he.symm.trans h)⟩⟩
    · simp [he] at h
  | quiet hp o hh hl =>
    refine ⟨fun h => ?_, fun o' ho => newest_processed hh rfl rfl rfl rfl (hn' o' ho)⟩
    simp [hi h] at hh
  | report hp o hh hl =>
    refine ⟨fun h => ?_, fun o' ho => newest_processed hh rfl rfl rfl rfl (hn' o' ho)⟩
    simp [hi h] at hh
  | skip => exact ⟨hi, hn'⟩
  | publish p c hp hc hcur => exact ⟨hi, hn'⟩
  | publishPut p c hp hc => exact ⟨hi, hn'⟩
  | unlock p hp htodo hcur => exact ⟨hi, hn'⟩
  | subscribe hp => exact ⟨hi, hn'⟩
  | unsubscribe hp c => exact ⟨hi, hn'⟩
  | read c v hv => exact ⟨hi, hn'⟩

/-! ### The reporter and the log -/

/-- The reporter stands where the last observation left it, and the log ends with what it
reported. -/
structure Reports (s : St) : Prop where
  settled : ∀ o, s.last = some o → Settled s.reporter o
  log : s.reporter.reported ≠ .unknown → s.log.getLast? = some s.reporter.reported
  pub : ∀ p, s.pub = some p → p.state = s.reporter.reported ∧ p.state ≠ .unknown

lemma reports_init : Reports {} where
  settled o h := by simp at h
  log h := by simp at h
  pub p h := by simp at h

lemma log_observe {r : LinkReporter} {log : List LinkState} (o : LinkObservation)
    (h : r.reported ≠ .unknown → log.getLast? = some r.reported)
    (hr : (observe r o).2.reported ≠ .unknown) :
    (log ++ report (observe r o).1).getLast? = some (observe r o).2.reported := by
  obtain ⟨-, e⟩ | ⟨-, -, e⟩ | ⟨-, -, e⟩ := observe_cases r o
  · simp [e] at hr
  · rw [e] at hr ⊢
    simpa [report] using h hr
  · rw [e, report_carrierState]; simp

lemma reports_step {s t : St} (hr : Reports s) (h : Does s t) : Reports t := by
  obtain ⟨hs, hlog, hpub⟩ := hr
  cases h with
  | attach ha hn hp cur =>
    cases cur with
    | none => exact ⟨hs, hlog, hpub⟩
    | some o =>
      refine ⟨fun o' h => ?_, fun h => log_observe o hlog h, fun p h => ?_⟩
      · cases h; exact observe_settled _ _
      · simp [attachLink, hp] at h
  | quiet hp o hh hl =>
    refine ⟨fun o' h => ?_, fun h => ?_, fun p h => ?_⟩
    · cases h; exact observe_settled _ _
    · simpa [hl, LinkModel.report] using log_observe o hlog h
    · simp [hp] at h
  | report hp o hh hl =>
    refine ⟨fun o' h => ?_, fun h => ?_, fun p h => ?_⟩
    · cases h; exact observe_settled _ _
    · obtain ⟨-, e⟩ | ⟨-, -, e⟩ | ⟨-, -, e⟩ := observe_cases s.reporter o
      · simp [e] at hl
      · simp [e] at hl
      · simp [e]
    · cases h
      obtain ⟨-, e⟩ | ⟨-, -, e⟩ | ⟨-, -, e⟩ := observe_cases s.reporter o
      · simp [e] at hl
      · simp [e] at hl
      · simp [e]
  | publish p c hp hc hcur =>
    refine ⟨hs, hlog, fun q h => ?_⟩
    cases h; exact hpub p hp
  | publishPut p c hp hc =>
    refine ⟨hs, hlog, fun q h => ?_⟩
    cases h; exact hpub p hp
  | unlock p hp htodo hcur => exact ⟨hs, hlog, fun q h => by simp at h⟩
  | skip => exact ⟨hs, hlog, hpub⟩
  | update o => exact ⟨hs, hlog, hpub⟩
  | updatePut o hw => exact ⟨hs, hlog, hpub⟩
  | take o ha hh he => exact ⟨hs, hlog, hpub⟩
  | subscribe hp => exact ⟨hs, hlog, hpub⟩
  | unsubscribe hp c => exact ⟨hs, hlog, hpub⟩
  | read c v hv => exact ⟨hs, hlog, hpub⟩

/-! ### The subscribers -/

/-- What a subscriber has seen is part of the log, from its subscription on. -/
def Entitled (b : Sub) (log : List LinkState) : Prop :=
  b.since ≤ log.length ∧ b.seen.Sublist (log.drop b.since)

lemma Entitled.append {b : Sub} {log : List LinkState} (h : Entitled b log)
    (ls : List LinkState) : Entitled b (log ++ ls) := by
  obtain ⟨h1, h2⟩ := h
  refine ⟨by rw [List.length_append]; omega, ?_⟩
  rw [List.drop_append_of_le_length h1]
  exact h2.trans (List.sublist_append_left _ _)

lemma Entitled.drain {b : Sub} {log : List LinkState} (h : Entitled b log) :
    Entitled { b with chan := none } log := by
  refine ⟨h.1, List.Sublist.trans ?_ h.2⟩
  simp [Sub.seen]

lemma Entitled.put {b : Sub} {log : List LinkState} {l : LinkState} (hc : b.chan = none)
    (hl : log.getLast? = some l) (h : Entitled b log.dropLast) :
    Entitled { b with chan := selectSend b.chan l } log := by
  obtain ⟨h1, h2⟩ := h
  have hlog : log = log.dropLast ++ [l] := by
    rw [List.getLast?_eq_some_iff] at hl
    obtain ⟨ys, rfl⟩ := hl
    simp
  have hseen : b.seen = b.recv := by simp [Sub.seen, hc]
  rw [hseen] at h2
  refine ⟨by rw [hlog, List.length_append]; simp only; omega, ?_⟩
  rw [hlog, List.drop_append_of_le_length h1]
  simp only [Sub.seen, hc, selectSend, Option.toList_some]
  exact h2.append (List.Sublist.refl _)

/-- The subscribers that still wait for the state being published have their share of the log
before it; the others have their share of the whole log, and the listeners among them have
last seen what was last reported. -/
structure Subs (s : St) : Prop where
  owed : ∀ c, Owed s c → Entitled (s.subs c) s.log.dropLast
  paid : ∀ c, ¬ Owed s c → Entitled (s.subs c) s.log
  last : ∀ c ∈ s.linkListeners, ¬ Owed s c → s.reporter.reported ≠ .unknown →
    (s.subs c).seen.getLast? = some s.reporter.reported

lemma not_owed {s : St} (hp : s.pub = none) (c : ℕ) : ¬ Owed s c := by
  rintro ⟨p, h, -⟩
  simp [hp] at h

lemma owed_iff {s : St} {p : Publishing} (hp : s.pub = some p) (c : ℕ) :
    Owed s c ↔ c ∈ p.todo ∨ p.cur = some c := by
  simp [Owed, hp]

lemma subs_init : Subs {} where
  owed c h := absurd h (not_owed rfl c)
  paid c _ := ⟨by simp, by simp [Sub.seen]⟩
  last c h := by simp at h

lemma report_of_ne {l : LinkState} (h : l ≠ .unknown) : LinkModel.report l = [l] := by
  cases l <;> simp_all [LinkModel.report]

lemma log_since {s : St} (hr : Reports s) :
    s.log.drop (s.log.length - (LinkModel.report (current s.reporter)).length) =
      LinkModel.report (current s.reporter) := by
  by_cases h : s.reporter.reported = .unknown
  · simp [current, h, LinkModel.report]
  · obtain ⟨ys, hys⟩ := List.getLast?_eq_some_iff.mp (hr.log h)
    simp [current, report_of_ne h, hys]

lemma entitled_new {s : St} (hr : Reports s) :
    Entitled ⟨(LinkModel.report (current s.reporter)).head?, [],
      s.log.length - (LinkModel.report (current s.reporter)).length⟩ s.log := by
  refine ⟨Nat.sub_le _ _, ?_⟩
  rw [log_since hr]
  cases hc : current s.reporter <;> simp [Sub.seen, LinkModel.report]

lemma subs_publish {s : St} (hl : Locks s) (hs : Subs s) {p : Publishing} {c : ℕ}
    (hp : s.pub = some p) (hc : c ∈ p.todo) (hcur : p.cur = none) : Subs { s with
      pub := some { p with todo := p.todo.erase c, cur := some c }
      subs := Function.update s.subs c { s.subs c with chan := none } } := by
  obtain ⟨howed, hpaid, hlast⟩ := hs
  obtain ⟨hn, -, -⟩ := hl.todo p hp
  have hiff : ∀ d, Owed { s with
      pub := some { p with todo := p.todo.erase c, cur := some c }
      subs := Function.update s.subs c { s.subs c with chan := none } } d ↔ Owed s d := by
    intro d
    rw [owed_iff rfl, owed_iff hp, hcur, hn.mem_erase_iff]
    by_cases hd : d = c
    · subst hd; simp [hc]
    · simp [hd, Ne.symm hd]
  refine ⟨fun d hd => ?_, fun d hd => ?_, fun d hm hd => ?_⟩
  · rw [hiff] at hd
    by_cases hdc : d = c
    · subst hdc; simpa using (howed d hd).drain
    · simpa [hdc] using howed d hd
  · rw [hiff] at hd
    by_cases hdc : d = c
    · subst hdc; simpa using (hpaid d hd).drain
    · simpa [hdc] using hpaid d hd
  · rw [hiff] at hd
    have hdc : d ≠ c := by
      rintro rfl
      exact hd ((owed_iff hp d).mpr (Or.inl hc))
    simpa [hdc] using hlast d hm hd

lemma subs_publishPut {s : St} (hl : Locks s) (hr : Reports s) (hs : Subs s) {p : Publishing}
    {c : ℕ} (hp : s.pub = some p) (hc : p.cur = some c) : Subs { s with
      pub := some { p with cur := none }
      subs := Function.update s.subs c
        { s.subs c with chan := selectSend (s.subs c).chan p.state } } := by
  obtain ⟨howed, hpaid, hlast⟩ := hs
  obtain ⟨-, -, hcur⟩ := hl.todo p hp
  obtain ⟨hst, hne⟩ := hr.pub p hp
  have hchan := hl.chan p c hp hc
  have hlog : s.log.getLast? = some p.state := by rw [hst]; exact hr.log (hst ▸ hne)
  -- exactly `c` is paid by this step
  have hiff : ∀ d, Owed { s with
      pub := some { p with cur := none }
      subs := Function.update s.subs c
        { s.subs c with chan := selectSend (s.subs c).chan p.state } } d ↔
      Owed s d ∧ d ≠ c := by
    intro d
    rw [owed_iff rfl, owed_iff hp, hc]
    have := (hcur c hc).2
    by_cases hd : d = c
    · subst hd; simp [this]
    · simp [hd, Ne.symm hd]
  have howes : Owed s c := (owed_iff hp c).mpr (Or.inr hc)
  refine ⟨fun d hd => ?_, fun d hd => ?_, fun d hm hd hrep => ?_⟩
  · obtain ⟨hd, hdc⟩ := (hiff d).mp hd
    simpa [hdc] using howed d hd
  · by_cases hdc : d = c
    · subst hdc
      simpa using (howed d howes).put hchan hlog
    · have : ¬ Owed s d := fun h => hd ((hiff d).mpr ⟨h, hdc⟩)
      simpa [hdc] using hpaid d this
  · by_cases hdc : d = c
    · subst hdc
      simp [Sub.seen, hchan, selectSend, hst]
    · have : ¬ Owed s d := fun h => hd ((hiff d).mpr ⟨h, hdc⟩)
      simpa [hdc] using hlast d hm this hrep

lemma subs_subscribe {s : St} (hr : Reports s) (hs : Subs s) (hp : s.pub = none) :
    Subs (subscribeLinkState s) := by
  obtain ⟨-, hpaid, hlast⟩ := hs
  have hno : ∀ c, ¬ Owed (subscribeLinkState s) c := not_owed hp
  refine ⟨fun c h => absurd h (hno c), fun c _ => ?_, fun c hc _ hrep => ?_⟩
  · by_cases hcn : c = s.next
    · subst hcn
      simpa [subscribeLinkState] using entitled_new hr
    · simpa [subscribeLinkState, hcn] using hpaid c (not_owed hp c)
  · by_cases hcn : c = s.next
    · subst hcn
      simp only [subscribeLinkState, Function.update_self, Sub.seen, List.nil_append]
      rw [show LinkModel.report (current s.reporter) = [s.reporter.reported] from
        report_of_ne hrep]
      rfl
    · have hm : c ∈ s.linkListeners := by
        simpa [subscribeLinkState, hcn] using hc
      simpa [subscribeLinkState, hcn] using hlast c hm (not_owed hp c) hrep

lemma subs_read {s : St} (hs : Subs s) {c : ℕ} {v : LinkState}
    (hv : (s.subs c).chan = some v) : Subs { s with
      subs := Function.update s.subs c
        { s.subs c with chan := none, recv := (s.subs c).recv ++ [v] } } := by
  obtain ⟨howed, hpaid, hlast⟩ := hs
  have hseen : ∀ d, (Function.update s.subs c
      { s.subs c with chan := none, recv := (s.subs c).recv ++ [v] } d).seen =
        (s.subs d).seen := by
    intro d
    by_cases hdc : d = c
    · subst hdc; simp [Sub.seen, hv]
    · simp [hdc]
  have hsince : ∀ d, (Function.update s.subs c
      { s.subs c with chan := none, recv := (s.subs c).recv ++ [v] } d).since =
        (s.subs d).since := by
    intro d
    by_cases hdc : d = c
    · subst hdc; simp
    · simp [hdc]
  refine ⟨fun d hd => ?_, fun d hd => ?_, fun d hm hd hrep => ?_⟩
  · simpa [Entitled, hseen, hsince] using howed d hd
  · simpa [Entitled, hseen, hsince] using hpaid d hd
  · simpa [hseen] using hlast d hm hd hrep

lemma subs_step {s t : St} (hl : Locks s) (hr : Reports s) (hs : Subs s) (h : Does s t) :
    Subs t := by
  have hsubs := hs
  obtain ⟨howed, hpaid, hlast⟩ := hs
  cases h with
  | attach ha hn hp cur =>
    have hnone : ∀ c, c ∉ s.linkListeners := fun c hc => by have := hl.lt c hc; omega
    have hno : ∀ c, ¬ Owed (attachLink s cur) c :=
      not_owed (by cases cur <;> simp [attachLink, hp])
    refine ⟨fun c h => absurd h (hno c), fun c _ => ?_, fun c hc => ?_⟩
    · cases cur with
      | none => exact hpaid c (not_owed hp c)
      | some o => exact (hpaid c (not_owed hp c)).append _
    · cases cur <;> exact absurd hc (hnone c)
  | quiet hp o hh hl =>
    refine ⟨fun c h => absurd h (not_owed hp c), fun c _ => hpaid c (not_owed hp c),
      fun c hc _ hrep => ?_⟩
    obtain ⟨-, e⟩ | ⟨-, -, e⟩ | ⟨-, -, e⟩ := observe_cases s.reporter o
    · simp [e] at hrep
    · rw [e] at hrep ⊢
      exact hlast c hc (not_owed hp c) hrep
    · simp [e] at hl
  | report hp o hh hl =>
    refine ⟨fun c _ => ?_, fun c _ => (hpaid c (not_owed hp c)).append _, fun c hc hno => ?_⟩
    · simpa using hpaid c (not_owed hp c)
    · exact absurd ⟨_, rfl, Or.inl hc⟩ hno
  | publish p c hp hc hcur => exact subs_publish hl hsubs hp hc hcur
  | publishPut p c hp hc => exact subs_publishPut hl hr hsubs hp hc
  | unlock p hp htodo hcur =>
    have hno : ∀ c, ¬ Owed s c := by
      rintro c ⟨q, hq, h⟩
      rw [hp] at hq
      cases hq
      simp [htodo, hcur] at h
    exact ⟨fun c h => absurd h (not_owed rfl c), fun c _ => hpaid c (hno c),
      fun c hc _ => hlast c hc (hno c)⟩
  | subscribe hp => exact subs_subscribe hr hsubs hp
  | unsubscribe hp c =>
    exact ⟨howed, hpaid, fun d hd => hlast d (List.mem_of_mem_erase hd)⟩
  | read c v hv => exact subs_read hsubs hv
  | skip => exact ⟨howed, hpaid, hlast⟩
  | update o => exact ⟨howed, hpaid, hlast⟩
  | updatePut o hw => exact ⟨howed, hpaid, hlast⟩
  | take o ha hh he => exact ⟨howed, hpaid, hlast⟩

/-! ### Whole runs -/

structure Good (s : St) : Prop where
  locks : Locks s
  kept : Kept s
  reports : Reports s
  subs : Subs s

lemma good_run {idx : ℤ} {as : List Act} {s : St} (h : run (step idx) {} as = some s) :
    Good s :=
  run_inv (P := Good)
    (fun _ _ _ hg hst =>
      have hd := step_does hst
      ⟨locks_step hg.locks hd, kept_step hg.locks hg.kept hd, reports_step hg.reports hd,
        subs_step hg.locks hg.reports hg.subs hd⟩)
    ⟨locks_init, kept_init, reports_init, subs_init⟩ h

lemma publish_progress (idx : ℤ) {s : St} {p : Publishing} (hp : s.pub = some p) :
    ∃ a t, step idx s a = some t ∧ (a = .publishPut ∨ a = .unlock ∨ ∃ c, a = .publish c) := by
  cases hc : p.cur with
  | some c => exact ⟨.publishPut, _, by simp only [step, hp, Option.bind_some, hc]; rfl, by simp⟩
  | none =>
    rcases htodo : p.todo with _ | ⟨c, cs⟩
    · exact ⟨.unlock, { s with pub := none }, by simp [step, hp, htodo, hc], by simp⟩
    · have hmem : c ∈ p.todo := by simp [htodo]
      exact ⟨.publish c, _, by simp only [step, hp, Option.bind_some, hmem, hc, and_self]; rfl,
        by simp⟩

/-- **No link state is lost.** In every state of every run: publishing never waits, and the
value published is never discarded, neither on the channel of a subscriber nor on the events
channel, whose newest observation is processed once the channel is empty; what a subscriber
has received, and what it finds in its channel, is a subsequence of the states reported from
its subscription on, of which the first is the one current then; and once `observeLink` has
returned, every subscriber has last seen the carrier of the last observation processed, if
the interface was up in it. -/
theorem link_states_kept (idx : ℤ) (as : List Act) (s : St)
    (h : run (step idx) {} as = some s) :
    (∀ p, s.pub = some p →
      ∃ a t, step idx s a = some t ∧ (a = .publishPut ∨ a = .unlock ∨ ∃ c, a = .publish c)) ∧
    (∀ p c, s.pub = some p → p.cur = some c →
      ∃ t, step idx s .publishPut = some t ∧ (t.subs c).chan = some p.state) ∧
    (∀ o, s.watch = some o → ∃ t, step idx s .updatePut = some t ∧ t.events = some o) ∧
    (∀ o, s.newest = some o → s.watch = none → s.events = none → s.hand = none →
      s.last = some o) ∧
    (∀ c, (s.subs c).recv.Sublist (s.log.drop (s.subs c).since) ∧
      (s.subs c).seen.Sublist (s.log.drop (s.subs c).since)) ∧
    (∀ t, step idx s .subscribeLinkState = some t →
      t.log.drop (t.subs s.next).since = report (current s.reporter)) ∧
    ∀ o, s.last = some o → o.adminUp = true → s.pub = none → ∀ c ∈ s.linkListeners,
      (s.subs c).seen.getLast? = some (if o.carrier then .up else .down) := by
  obtain ⟨hl, hk, hr, hs⟩ := good_run h
  have hall : ∀ c, Entitled (s.subs c) s.log := by
    intro c
    by_cases hc : Owed s c
    · have hdl := (hs.owed c hc).append (s.log.drop (s.log.length - 1))
      rwa [List.dropLast_eq_take, List.take_append_drop] at hdl
    · exact hs.paid c hc
  refine ⟨fun p hp => publish_progress idx hp, fun p c hp hc => ?_, fun o ho => ?_,
    fun o ho hw he hh => ?_, fun c => ⟨?_, (hall c).2⟩, fun t ht => ?_,
    fun o ho hup hp c hc => ?_⟩
  · refine ⟨_, by simp only [step, hp, Option.bind_some, hc]; rfl, ?_⟩
    simp [hl.chan p c hp hc, selectSend]
  · refine ⟨_, by simp only [step, ho]; rfl, ?_⟩
    simp [hl.events (by simp [ho]), selectSend]
  · simpa [Newest, hw, he, hh] using hk.newest o ho
  · exact (List.sublist_append_left _ _).trans (hall c).2
  · simp only [step] at ht
    split at ht <;> cases ht
    simpa [subscribeLinkState] using log_since hr
  · have hrep : s.reporter.reported = carrierState o := by
      have := hr.settled o ho
      rwa [Settled, if_pos hup] at this
    have := hs.last c hc (not_owed hp c) (by rw [hrep]; simp)
    rwa [hrep] at this

/-- The carrier is lost after a first subscription, which does not read in time, and before a
second one. -/
def lateReader : List Act :=
  [.attachLink (some ⟨true, true⟩), .subscribeLinkState, .update ⟨7, false, 0x1⟩, .updatePut,
    .take, .observeLink, .publish 0, .publishPut, .unlock, .subscribeLinkState, .read 0]

theorem lateReader_down :
    ∃ s, run (step 7) {} lateReader = some s ∧ s.last = some ⟨true, false⟩ ∧
      ∀ c ∈ s.linkListeners, (s.subs c).seen.getLast? = some .down := by
  refine ⟨_, rfl, by decide, ?_⟩
  exact (link_states_kept 7 lateReader _ rfl).2.2.2.2.2.2 ⟨true, false⟩ (by decide) rfl rfl

end Kne.LinkFanout
