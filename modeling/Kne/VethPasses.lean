import Kne.VethKernel

/-!
The passes of `ConfigurePodLinks`, interrupted anywhere.

The assertion between two calls of a pass has two parts. One holds whatever others do: the kernel is
as in `VethKernel.Ok`, the pod has no devices that the pass does not know of, and a device the pass
has found is as it was found, unless it is gone. The other one, that devices are there, only holds
as long as no pair has been removed and no call has failed since the pass began.
-/

namespace Kne.VethPasses

open Kne.Interrupts Kne.MeshTopos Kne.Runs Kne.VethModel Kne.VethKernel

variable {L : Linux} {parseAddr : String → Option String} {P : Plan L parseAddr}
  {c c' : PodLinkConfig} {d d' m link : Device} {k k' : Kernel} {α : Type}

/-! ### The rules for a pass -/

/-- The kernel, and whether nothing has happened to the pass since it began. -/
abbrev World : Type := Bool × Kernel

def Rely (w w' : World) : Prop := w' = w ∨ w'.1 = false ∧ Removed w.2 w'.2

instance : Std.Refl Rely := ⟨fun _ => .inl rfl⟩

instance : IsTrans World Rely := by
  refine ⟨fun u v w huv hvw => ?_⟩
  rcases huv with rfl | huv
  · exact hvw
  · rcases hvw with rfl | hvw
    · exact .inr huv
    · exact .inr ⟨hvw.1, huv.2.trans hvw.2⟩

def answerTo (L : Linux) (failure : Option Errno) (c : Call) (w : World) : Reply c × World :=
  ((answer L failure c w.2).1, (w.1 && failure.isNone, (answer L failure c w.2).2))

/-- A pass is safe: the kernel is in order at each of its calls, and it does not fail unless
something has happened to it. -/
abbrev PassSafe (P : Plan L parseAddr) (Q : α → World → Prop) (p : Netlink α) (w : World) : Prop :=
  Safe Rely (answerTo L) (fun w => Ok P w.2) (fun _ w => w.1 = false) Q p w

/-- What holds in any case, and what holds if nothing has happened. -/
structure Asserts (N C : Kernel → Prop) (w : World) : Prop where
  always : N w.2
  calm : w.1 = true → C w.2

variable {N N' C C' : Kernel → Prop} {Q : α → World → Prop} {w : World}

lemma stable_asserts (hN : Closed N) : Stable Rely (Asserts N C) := by
  rintro w w' h (rfl | ⟨hb, hr⟩)
  · exact h
  · exact ⟨hN _ _ h.always hr, fun ht => absurd (hb.symm.trans ht) (by simp)⟩

lemma passSafe_ret (hN : Closed N) (hok : ∀ k, N k → Ok P k) {a : α}
    (hQ : ∀ w, Asserts N C w → Q a w) (hw : Asserts N C w) : PassSafe P Q (pure a) w :=
  safe_ret (stable_asserts hN) (fun w hw => ⟨hok _ hw.always, hQ w hw⟩) hw

lemma passSafe_fail (hok : Ok P k) (e : String) : PassSafe P Q (.fail e) (false, k) :=
  safe_fail (stable_asserts (C := fun _ => False) closed_ok)
    (fun w hw => ⟨hw.always, by simpa using hw.calm⟩) ⟨hok, by simp⟩

lemma passSafe_exec {call : Call} {f : Reply call → Netlink α} (hN : Closed N)
    (hok : ∀ k, N k → Ok P k) (hfail : ∀ k e, N k → PassSafe P Q (f (.error e)) (false, k))
    (hdo : ∀ b k, N k → (b = true → C k) →
      PassSafe P Q (f (L.perform call k).1) (b, (L.perform call k).2))
    (hw : Asserts N C w) : PassSafe P Q (exec call >>= f) w := by
  refine safe_call (stable_asserts hN) (fun w hw => ⟨hok _ hw.always, fun failure => ?_⟩) hw
  cases failure with
  | none =>
    change PassSafe P Q (f (L.perform call w.2).1) (w.1 && true, (L.perform call w.2).2)
    rw [Bool.and_true]
    exact hdo w.1 w.2 hw.always hw.calm
  | some e =>
    change PassSafe P Q (f (.error e)) (w.1 && false, w.2)
    rw [Bool.and_false]
    exact hfail w.2 e hw.always

/-! ### Devices found -/

lemma find_eq_some {netns : Option String} {name : String} (h : k.find netns name = some d) :
    d ∈ k.devices ∧ d.netns = netns ∧ d.name = name :=
  ⟨List.mem_of_find?_eq_some h, by simpa using List.find?_some h⟩

lemma find_eq_none {netns : Option String} {name : String} (h : k.find netns name = none) :
    ∀ d ∈ k.devices, d.netns = netns → d.name ≠ name := by
  simpa [Kernel.find] using h

lemma get_eq_some {netns : Option String} (h : k.get netns link = some d) :
    d ∈ k.devices ∧ Same link d ∧ d.netns = netns := by
  refine ⟨List.mem_of_find?_eq_some h, ?_⟩
  have := List.find?_some h
  simp only [decide_eq_true_eq] at this
  exact ⟨⟨this.1, this.2.1⟩, this.2.2⟩

lemma get_of_mem (hm : m ∈ k.devices) (hs : Same m link) :
    (k.get m.netns link).isSome := by
  simp only [Kernel.get, List.find?_isSome, decide_eq_true_eq]
  exact ⟨m, hm, hs.1.symm, hs.2.symm, rfl⟩

lemma closed_holds : Closed (Holds m) := fun _ _ h hr d hd => h d (hr.mem hd)

lemma passSafe_linkByName {netns : Option String} {name : String}
    {f : Except Errno Device → Netlink α} (hown : ¬ L.Other netns name) (hN : Closed N)
    (hok : ∀ k, N k → Ok P k)
    (hsome : ∀ b k d, N k → (b = true → C k) → d ∈ k.devices → d.netns = netns → d.name = name →
      PassSafe P Q (f (.ok d)) (b, k))
    (hnone : ∀ b k e, N k → (b = true → C k ∧ ∀ d ∈ k.devices, d.netns = netns → d.name ≠ name) →
      PassSafe P Q (f (.error e)) (b, k))
    (hw : Asserts N C w) : PassSafe P Q (exec (.linkByName netns name) >>= f) w := by
  refine passSafe_exec hN hok (fun k e hk => hnone false k e hk (by simp)) (fun b k hk hc => ?_) hw
  rw [L.linkByName k hown]
  cases hf : k.find netns name with
  | some d =>
    obtain ⟨hd, hn, hx⟩ := find_eq_some hf
    exact hsome b k d hk hc hd hn hx
  | none => exact hnone b k .notFound hk fun hb => ⟨hc hb, find_eq_none hf⟩

/-! ### The host pass -/

def Plugged (P : Plan L parseAddr) (k : Kernel) (c : PodLinkConfig) : Prop :=
  ∃ d ∈ k.devices, Plugs P c d

def InPod (P : Plan L parseAddr) (k : Kernel) (c : PodLinkConfig) : Prop :=
  ∃ d ∈ k.devices, Inside P c d

section Pass

variable {p : String} {links : List PodLinkConfig} {k₀ : Kernel} {rest : List PodLinkConfig}
  {existing : List String}

/-- In the host pass, in any case. -/
def HostAlways (P : Plan L parseAddr) (p : String) (existing : List String) (k : Kernel) : Prop :=
  Ok P k ∧ ∀ d ∈ k.devices, d.netns = some p → d.name ∈ existing

lemma closed_hostAlways : Closed (HostAlways P p existing) := closed_ok.and closed_forall

/-- In the host pass that began at `k₀`, if nothing has happened. -/
structure HostCalm (P : Plan L parseAddr) (p : String) (links : List PodLinkConfig) (k₀ : Kernel)
    (rest : List PodLinkConfig) (existing : List String) (k : Kernel) : Prop where
  plugged : ∀ c ∈ P.links, Plugged P k₀ c → Plugged P k c
  named : ∀ name ∈ existing, L.Other (some p) name ∨
    ∃ d ∈ k.devices, d.netns = some p ∧ d.name = name
  done : ∀ c ∈ links, c ∈ rest ∨ InPod P k c

lemma HostCalm.mono (h : HostCalm P p links k₀ rest existing k)
    (hsub : ∀ d ∈ k.devices, d.netns ≠ none → d ∈ k'.devices) :
    HostCalm P p links k₀ rest existing k' := by
  refine ⟨fun c hc hp => ?_, fun name hn => (h.named name hn).imp_right ?_, fun c hc => ?_⟩
  · obtain ⟨d, hd, hplug⟩ := h.plugged c hc hp
    exact ⟨d, hsub d hd (by simp [hplug.netns]), hplug⟩
  · rintro ⟨d, hd, hns, hname⟩
    exact ⟨d, hsub d hd (by simp [hns]), hns, hname⟩
  · refine (h.done c hc).imp_right fun ⟨d, hd, hin⟩ => ⟨d, hsub d hd (by simp [hin.1]), hin⟩

/-- The pass has found its end of the link on the host. -/
structure Waiting (c : PodLinkConfig) (link : Device) : Prop where
  netns : link.netns = none
  name : link.name = localHostName c

lemma passSafe_findAfterAdd (hc : c ∈ P.links)
    (hw : Asserts (HostAlways P p existing) (fun k => HostCalm P p links k₀ rest existing k ∧
      ∃ d ∈ k.devices, d.netns = none ∧ d.name = localHostName c) w) :
    PassSafe P (fun link w => Waiting c link ∧
      Asserts (fun k => HostAlways P p existing k ∧ Holds link k)
        (fun k => HostCalm P p links k₀ rest existing k ∧ link ∈ k.devices) w)
      (findAfterAdd c) w := by
  refine passSafe_linkByName (accepts_ns hc).host_free closed_hostAlways (fun k hk => hk.1) ?_ ?_
    hw
  · intro b k d hk hcalm hd hn hx
    exact passSafe_ret (closed_hostAlways.and closed_holds) (fun k hk => hk.1.1)
      (fun w hw => ⟨⟨hn, hx⟩, hw⟩) ⟨⟨hk, hk.1.holds hd⟩, fun hb => ⟨(hcalm hb).1, hd⟩⟩
  · intro b k e hk hcalm
    cases b with
    | false => exact passSafe_fail hk.1 _
    | true =>
      obtain ⟨⟨-, d, hd, hn, hx⟩, hno⟩ := hcalm rfl
      exact absurd hx (hno d hd hn)

lemma HostAlways.nowhere (h : HostAlways P (P.ns c) existing k)
    (hout : c.localIntf ∉ existing ∧ localHostName c ∉ existing)
    (hhost : ∀ d ∈ k.devices, d.netns = none → d.name ≠ localHostName c) :
    ∀ d ∈ k.devices, ¬ At P c d := by
  rintro d hd (⟨hn, hname⟩ | ⟨hn, hname⟩)
  · exact hhost d hd hn hname
  · have hknown := h.2 d hd hn
    rcases hname with hname | hname
    · exact hout.2 (hname ▸ hknown)
    · exact hout.1 (hname ▸ hknown)

lemma passSafe_addPair (hc : c ∈ P.links) (hns : P.ns c = p)
    (hout : c.localIntf ∉ existing ∧ localHostName c ∉ existing)
    (hw : Asserts (HostAlways P p existing) (fun k => HostCalm P p links k₀ rest existing k ∧
      ∀ d ∈ k.devices, d.netns = none → d.name ≠ localHostName c) w) :
    PassSafe P (fun link w => Waiting c link ∧
      Asserts (fun k => HostAlways P p existing k ∧ Holds link k)
        (fun k => HostCalm P p links k₀ rest existing k ∧ link ∈ k.devices) w) (addPair c) w := by
  subst hns
  refine passSafe_exec closed_hostAlways (fun k hk => hk.1) (fun k e hk => ?_)
    (fun b k hk hcalm => ?_) hw
  · by_cases he : e = .fileExists
    · subst he
      exact passSafe_findAfterAdd hc ⟨hk, by simp⟩
    · cases e <;> first | exact absurd rfl he | exact passSafe_fail hk.1 _
  · obtain ⟨c', hc', hm⟩ := P.mirror c hc
    have hpeer := peerHostName_eq hm (P.apart c hc)
    rw [L.linkAdd k (accepts_ns hc).host (hpeer ▸ (accepts_ns hc').host) (accepts_ns hc).mtu
      (accepts_ns hc).host_free (hpeer ▸ (accepts_ns hc').host_free) (hostNames_ne c)]
    by_cases hor : (k.find none (localHostName c)).isSome ∨ (k.find none (peerHostName c)).isSome
    · rw [if_pos hor]
      refine passSafe_findAfterAdd hc ⟨hk, fun hb => ?_⟩
      -- if nothing has happened, neither end is anywhere
      obtain ⟨-, hhost⟩ := hcalm hb
      have hno := hk.nowhere hout hhost
      rcases hor with hor | hor
      · obtain ⟨d, hd⟩ := Option.isSome_iff_exists.mp hor
        obtain ⟨hd, hn, hname⟩ := find_eq_some hd
        exact absurd hname (hhost d hd hn)
      · obtain ⟨d, hd⟩ := Option.isSome_iff_exists.mp hor
        obtain ⟨hd, hn, hname⟩ := find_eq_some hd
        exact absurd (.inl ⟨hn, hname.trans hpeer⟩) (hk.1.nowhere hc hc' hm hno d hd)
    · rw [if_neg hor]
      have hfree : k.find none (localHostName c) = none := by
        simpa using fun h => hor (.inl h)
      have hno := hk.nowhere hout (find_eq_none hfree)
      refine passSafe_findAfterAdd hc ⟨⟨hk.1.add hc hno, ?_⟩, fun hb => ⟨(hcalm hb).1.mono ?_, ?_⟩⟩
      · simpa [Kernel.add] using hk.2
      · exact fun d hd _ => List.mem_cons_of_mem _ (List.mem_cons_of_mem _ hd)
      · exact ⟨_, List.mem_cons_self, rfl, rfl⟩

lemma passSafe_findOrAdd (hc : c ∈ P.links) (hns : P.ns c = p)
    (hout : c.localIntf ∉ existing ∧ localHostName c ∉ existing)
    (hw : Asserts (HostAlways P p existing) (HostCalm P p links k₀ rest existing) w) :
    PassSafe P (fun link w => Waiting c link ∧
      Asserts (fun k => HostAlways P p existing k ∧ Holds link k)
        (fun k => HostCalm P p links k₀ rest existing k ∧ link ∈ k.devices) w) (findOrAdd c) w := by
  refine passSafe_linkByName (accepts_ns hc).host_free closed_hostAlways (fun k hk => hk.1) ?_ ?_
    hw
  · intro b k d hk hcalm hd hn hx
    exact passSafe_ret (closed_hostAlways.and closed_holds) (fun k hk => hk.1.1)
      (fun w hw => ⟨⟨hn, hx⟩, hw⟩) ⟨⟨hk, hk.1.holds hd⟩, fun hb => ⟨hcalm hb, hd⟩⟩
  · intro b k e hk hcalm
    exact passSafe_addPair hc hns hout ⟨hk, hcalm⟩

lemma keeps_move (hc : c ∈ P.links) (hwait : Waiting c link) :
    Keeps P link { link with netns := some (P.ns c), up := false, addrs := [] } where
  same := ⟨rfl, rfl⟩
  mtu := rfl
  place a ha hat := by
    obtain rfl := at_unique ha hc hat (.inl ⟨hwait.netns, hwait.name⟩)
    exact .inr ⟨rfl, .inl hwait.name⟩
  down _ _ _ := rfl

lemma HostCalm.move (h : HostCalm P (P.ns c) links k₀ (c :: rest) existing k)
    (hmem : link ∈ k.devices)
    (hhold : Holds link k) (hwait : Waiting c link) {f : Device → Device}
    (hf : (f link).netns = some (P.ns c) ∧ (f link).name = link.name) :
    HostCalm P (P.ns c) links k₀ rest (localHostName c :: existing) (k.update link f) := by
  have hmoved : f link ∈ (k.update link f).devices := (mem_update hhold).mpr (.inl ⟨hmem, rfl⟩)
  have hname : (f link).name = localHostName c := hf.2.trans hwait.name
  have h' : HostCalm P (P.ns c) links k₀ (c :: rest) existing (k.update link f) := by
    refine h.mono fun d hd hns => (mem_update hhold).mpr (.inr ⟨hd, fun hs => hns ?_⟩)
    rw [hhold d hd hs, hwait.netns]
  refine ⟨h'.plugged, ?_, fun a ha => ?_⟩
  · simp only [List.forall_mem_cons]
    exact ⟨.inr ⟨_, hmoved, hf.1, hname⟩, h'.named⟩
  · rcases h'.done a ha with hrest | hin
    · rcases List.mem_cons.mp hrest with rfl | hrest
      · exact .inr ⟨_, hmoved, hf.1, .inl hname⟩
      · exact .inl hrest
    · exact .inr hin

lemma HostAlways.move {f : Device → Device} (h : HostAlways P (P.ns c) existing k)
    (hhold : Holds link k) (hkeep : Keeps P link (f link))
    (hname : (f link).name = localHostName c) :
    HostAlways P (P.ns c) (localHostName c :: existing) (k.update link f) := by
  refine ⟨h.1.update hhold hkeep, fun e he hns => ?_⟩
  rcases (mem_update hhold).mp he with ⟨-, rfl⟩ | ⟨he, -⟩
  · exact List.mem_cons.mpr (.inl hname)
  · exact List.mem_cons_of_mem _ (h.2 e he hns)

lemma HostCalm.skip (h : HostCalm P (P.ns c) links k₀ (c :: rest) existing k) (hc : c ∈ P.links)
    (hin : c.localIntf ∈ existing ∨ localHostName c ∈ existing) :
    HostCalm P (P.ns c) links k₀ rest existing k := by
  refine ⟨h.plugged, h.named, fun a ha => (h.done a ha).elim (fun hrest => ?_) .inr⟩
  rcases List.mem_cons.mp hrest with rfl | hrest
  · refine .inr ?_
    rcases hin with hin | hin
    · obtain ⟨d, hd, hns, hname⟩ := (h.named _ hin).resolve_left (accepts_ns hc).intf_own
      exact ⟨d, hd, hns, .inr hname⟩
    · obtain ⟨d, hd, hns, hname⟩ := (h.named _ hin).resolve_left (accepts_ns hc).host_own
      exact ⟨d, hd, hns, .inl hname⟩
  · exact .inl hrest

/-- The other name of an end is free in the pod: what has it is at a place of this end. -/
lemma find_eq_none_of_at {name : String} (hok : Ok P k) (hc : c ∈ P.links) (hd : d ∈ k.devices)
    (hat : At P c d) (hname : name = localHostName c ∨ name = c.localIntf)
    (hne : ¬ (d.netns = some (P.ns c) ∧ d.name = name)) :
    k.find (some (P.ns c)) name = none := by
  cases hfind : k.find (some (P.ns c)) name with
  | none => rfl
  | some e =>
    obtain ⟨he, hns, rfl⟩ := find_eq_some hfind
    obtain rfl := hok.single d hd e he c hc hat (.inr ⟨hns, hname⟩)
    exact absurd ⟨hns, rfl⟩ hne

lemma passSafe_hostLink (hjob : P.Job p links) (hc : c ∈ links)
    (hw : Asserts (HostAlways P p existing) (HostCalm P p links k₀ (c :: rest) existing) w) :
    PassSafe P (fun existing => Asserts (HostAlways P p existing)
      (HostCalm P p links k₀ rest existing))
      (hostLink p existing c) w := by
  obtain ⟨hlink, rfl⟩ := hjob c hc
  unfold hostLink
  split
  · next hin =>
    exact passSafe_ret closed_hostAlways (fun k hk => hk.1) (fun w hw => hw)
      ⟨hw.always, fun hb => (hw.calm hb).skip hlink hin⟩
  · next hout =>
    rw [not_or] at hout
    refine ((passSafe_findOrAdd hlink rfl hout hw).mono fun link w hw => ?_).bind
    obtain ⟨hwait, hw⟩ := hw
    refine passSafe_exec (closed_hostAlways.and closed_holds) (fun k hk => hk.1.1)
      (fun k e hk => passSafe_fail hk.1.1 _) (fun b k hk hcalm => ?_) hw
    obtain ⟨halways, hhold⟩ := hk
    cases hget : k.get none link with
    | none =>
      rw [L.linkSetNsFd_gone hget]
      cases b with
      | false => exact passSafe_fail halways.1 _
      | true =>
        have := get_of_mem (hcalm rfl).2 ⟨rfl, rfl⟩
        rw [hwait.netns, hget] at this
        exact absurd this (by simp)
    | some d =>
      obtain ⟨hd, hsame, -⟩ := get_eq_some hget
      obtain rfl := hhold d hd hsame
      have hown : ¬ L.Other (some (P.ns c)) d.name := by
        rw [hwait.name]
        exact (accepts_ns hlink).host_own
      have hfree : k.find (some (P.ns c)) d.name = none :=
        find_eq_none_of_at halways.1 hlink hd (.inl ⟨hwait.netns, hwait.name⟩) (.inl hwait.name)
          (by simp [hwait.netns])
      rw [L.linkSetNsFd hget (accepts_ns hlink).opens hown, if_neg (by simp [hfree])]
      exact passSafe_ret closed_hostAlways (fun k hk => hk.1) (fun w hw => hw)
        ⟨halways.move hhold (keeps_move hlink hwait) hwait.name,
          fun hb => (hcalm hb).1.move hd hhold hwait ⟨rfl, rfl⟩⟩

/-! ### The pass in the pod -/

/-- In the pass in the pod, if nothing has happened. -/
structure PodCalm (P : Plan L parseAddr) (links : List PodLinkConfig) (k₀ : Kernel)
    (rest : List PodLinkConfig) (k : Kernel) : Prop where
  plugged : ∀ c ∈ P.links, Plugged P k₀ c → Plugged P k c
  inPod : ∀ c ∈ links, InPod P k c
  done : ∀ c ∈ links, c ∈ rest ∨ Plugged P k c

/-- The device gets no worse. -/
structure Better (P : Plan L parseAddr) (m m' : Device) : Prop where
  plugs : ∀ c ∈ P.links, Plugs P c m → Plugs P c m'
  inside : ∀ c ∈ P.links, Inside P c m → Inside P c m'

lemma exists_update {R : Device → Prop} {f : Device → Device} (hhold : Holds m k)
    (hf : R m → R (f m)) (h : ∃ d ∈ k.devices, R d) : ∃ d ∈ (k.update m f).devices, R d := by
  obtain ⟨d, hd, hR⟩ := h
  by_cases hs : Same m d
  · obtain rfl := hhold d hd hs
    exact ⟨f d, (mem_update hhold).mpr (.inl ⟨hd, rfl⟩), hf hR⟩
  · exact ⟨d, (mem_update hhold).mpr (.inr ⟨hd, hs⟩), hR⟩

lemma PodCalm.update {f : Device → Device} (h : PodCalm P links k₀ rest k) (hjob : P.Job p links)
    (hhold : Holds m k) (hf : Better P m (f m)) : PodCalm P links k₀ rest (k.update m f) where
  plugged c hc hp := exists_update hhold (hf.plugs c hc) (h.plugged c hc hp)
  inPod c hc := exists_update hhold (hf.inside c (hjob c hc).1) (h.inPod c hc)
  done c hc := (h.done c hc).imp_right (exists_update hhold (hf.plugs c (hjob c hc).1))

lemma PodCalm.next (h : PodCalm P links k₀ (c :: rest) k) (hm : m ∈ k.devices)
    (hplugs : Plugs P c m) :
    PodCalm P links k₀ rest k := by
  refine ⟨h.plugged, h.inPod, fun a ha => (h.done a ha).elim (fun hrest => ?_) .inr⟩
  rcases List.mem_cons.mp hrest with rfl | hrest
  · exact .inr ⟨m, hm, hplugs⟩
  · exact .inl hrest

/-- The pass knows the device, as it is now. -/
abbrev Knows (P : Plan L parseAddr) (links : List PodLinkConfig) (k₀ : Kernel)
    (rest : List PodLinkConfig) (m : Device) (w : World) : Prop :=
  Asserts (fun k => Ok P k ∧ Holds m k) (fun k => PodCalm P links k₀ rest k ∧ m ∈ k.devices) w

lemma closed_knows : Closed fun k => Ok P k ∧ Holds m k := closed_ok.and closed_holds

lemma holds_update {f : Device → Device} (hhold : Holds m k) (hf : Same m (f m)) :
    Holds (f m) (k.update m f) := by
  intro d hd hs
  rcases (mem_update hhold).mp hd with ⟨-, rfl⟩ | ⟨hd, hns⟩
  · rfl
  · exact absurd ⟨hs.1.trans hf.1, hs.2.trans hf.2⟩ hns

lemma knows_update {f : Device → Device} {b : Bool} (hjob : P.Job p links)
    (h : Knows P links k₀ rest m (b, k)) (hkeep : Keeps P m (f m)) (hbetter : Better P m (f m)) :
    Knows P links k₀ rest (f m) (b, k.update m f) := by
  refine ⟨⟨h.always.1.update h.always.2 hkeep, holds_update h.always.2 hkeep.same⟩, fun hb => ?_⟩
  exact ⟨(h.calm hb).1.update hjob h.always.2 hbetter,
    (mem_update h.always.2).mpr (.inl ⟨(h.calm hb).2, rfl⟩)⟩

lemma update_congr {f : Device → Device} (hs : Same m link) : k.update link f = k.update m f := by
  unfold Kernel.update
  rw [hs.1, hs.2]

lemma get_known {b : Bool} {netns : String} (h : Knows P links k₀ rest m (b, k)) (hs : Same m link)
    (hns : m.netns = some netns) : k.get (some netns) link = some m ∨
      k.get (some netns) link = none ∧ b = false := by
  cases hget : k.get (some netns) link with
  | some d =>
    obtain ⟨hd, hsame, -⟩ := get_eq_some hget
    obtain rfl := h.always.2 d hd ⟨hsame.1.trans hs.1, hsame.2.trans hs.2⟩
    exact .inl rfl
  | none =>
    refine .inr ⟨rfl, ?_⟩
    cases b with
    | false => rfl
    | true =>
      have := get_of_mem (h.calm rfl).2 hs
      rw [hns, hget] at this
      exact absurd this (by simp)

lemma passSafe_done (h : Knows P links k₀ (c :: rest) m w) (hplugs : w.1 = true → Plugs P c m) :
    PassSafe P (fun _ => Asserts (Ok P) (PodCalm P links k₀ rest)) (pure ()) w :=
  passSafe_ret closed_ok (fun _ => id) (fun _ => id)
    ⟨h.always.1, fun hb => (h.calm hb).1.next (h.calm hb).2 (hplugs hb)⟩

lemma passSafe_locate (hlink : c ∈ P.links) (hc : c ∈ links)
    (hw : Asserts (Ok P) (PodCalm P links k₀ rest) w) :
    PassSafe P (fun link w => Inside P c link ∧ Knows P links k₀ rest link w)
      (locate (P.ns c) c) w := by
  have hfound : ∀ b k d, Ok P k → (b = true → PodCalm P links k₀ rest k) → d ∈ k.devices →
      Inside P c d → PassSafe P (fun link w => Inside P c link ∧ Knows P links k₀ rest link w)
        (pure d) (b, k) := fun b k d hk hcalm hd hin =>
    passSafe_ret closed_knows (fun _ hk => hk.1) (fun w hw => ⟨hin, hw⟩)
      ⟨⟨hk, hk.holds hd⟩, fun hb => ⟨hcalm hb, hd⟩⟩
  refine passSafe_linkByName (accepts_ns hlink).host_own closed_ok (fun _ => id) ?_ ?_ hw
  · exact fun b k d hk hcalm hd hns hname => hfound b k d hk hcalm hd ⟨hns, .inl hname⟩
  · intro b k e hk hcalm
    refine passSafe_linkByName (C := fun k => PodCalm P links k₀ rest k ∧ ∀ d ∈ k.devices,
      d.netns = some (P.ns c) → d.name ≠ localHostName c) (accepts_ns hlink).intf_own closed_ok
      (fun _ => id) ?_ ?_ ⟨hk, hcalm⟩
    · exact fun b k d hk hcalm hd hns hname =>
        hfound b k d hk (fun hb => (hcalm hb).1) hd ⟨hns, .inr hname⟩
    · intro b k e hk hcalm
      cases b with
      | false => exact passSafe_fail hk _
      | true =>
        obtain ⟨⟨h, hno⟩, hno'⟩ := hcalm rfl
        obtain ⟨d, hd, hns, hname⟩ := h.inPod c hc
        rcases hname with hname | hname
        · exact absurd hname (hno d hd hns)
        · exact absurd hname (hno' d hd hns)

lemma keeps_up (hc : c ∈ P.links) (hname : m.name = c.localIntf) :
    Keeps P m { m with up := true } :=
  ⟨⟨rfl, rfl⟩, rfl, fun _ _ h => h, fun a ha h => absurd (hname.symm.trans h) (P.fresh c hc a ha)⟩

lemma better_up : Better P m { m with up := true } :=
  ⟨fun _ _ h => ⟨h.netns, h.name, rfl, h.addr⟩, fun _ _ h => h⟩

lemma keeps_addr (hc : c ∈ P.links) (hname : m.name = c.localIntf) (addr : String) :
    Keeps P m { m with addrs := addr :: m.addrs } :=
  ⟨⟨rfl, rfl⟩, rfl, fun _ _ h => h, fun a ha h => absurd (hname.symm.trans h) (P.fresh c hc a ha)⟩

lemma better_addr (addr : String) : Better P m { m with addrs := addr :: m.addrs } :=
  ⟨fun _ _ h => ⟨h.netns, h.name, h.up, fun hip => by
    obtain ⟨a, ha, hmem⟩ := h.addr hip
    exact ⟨a, ha, List.mem_cons_of_mem _ hmem⟩⟩, fun _ _ h => h⟩

lemma keeps_rename (hc : c ∈ P.links) (hns : m.netns = some (P.ns c))
    (hname : m.name = localHostName c) :
    Keeps P m { m with name := c.localIntf } where
  same := ⟨rfl, rfl⟩
  mtu := rfl
  place a ha hat := by
    obtain rfl := at_unique ha hc hat (.inr ⟨hns, .inl hname⟩)
    exact .inr ⟨hns, .inr rfl⟩
  down a ha h := absurd h (P.fresh c hc a ha)

lemma better_rename (hc : c ∈ P.links) (hns : m.netns = some (P.ns c))
    (hname : m.name = localHostName c) : Better P m { m with name := c.localIntf } where
  plugs a ha h := absurd (h.name.symm.trans hname) (P.fresh a ha c hc)
  inside a ha h := by
    obtain rfl := at_unique ha hc (.inr h) (.inr ⟨hns, .inl hname⟩)
    exact ⟨hns, .inr rfl⟩

lemma passSafe_addAddr (hjob : P.Job (P.ns c) links) (hc : c ∈ links) (hs : Same m link)
    (hns : m.netns = some (P.ns c)) (hname : m.name = c.localIntf) (hup : m.up = true)
    {addr : String}
    (haddr : parseAddr c.localIP = some addr) (hw : Knows P links k₀ (c :: rest) m w) :
    PassSafe P (fun _ => Asserts (Ok P) (PodCalm P links k₀ rest))
      (addAddr (P.ns c) c link addr) w := by
  refine passSafe_exec closed_knows (fun _ hk => hk.1) (fun k e hk => ?_)
    (fun b k hk hcalm => ?_) hw
  · by_cases he : e = .fileExists
    · subst he
      exact passSafe_done (c := c) (m := m) ⟨hk, by simp⟩ (by simp)
    · cases e <;> first | exact absurd rfl he | exact passSafe_fail hk.1 _
  · have hknows : Knows P links k₀ (c :: rest) m (b, k) := ⟨hk, hcalm⟩
    rw [L.addrAdd link k]
    rcases get_known hknows hs hns with hget | ⟨hget, rfl⟩
    · rw [hget, Option.elim_some]
      by_cases hmem : addr ∈ m.addrs
      · rw [if_pos hmem]
        exact passSafe_done hknows fun _ => ⟨hns, hname, hup, fun _ => ⟨addr, haddr, hmem⟩⟩
      · rw [if_neg hmem, update_congr hs]
        exact passSafe_done (knows_update hjob hknows (keeps_addr (hjob c hc).1 hname addr)
          (better_addr addr)) fun _ => ⟨hns, hname, hup, fun _ => ⟨addr, haddr, List.mem_cons_self⟩⟩
    · rw [hget, Option.elim_none]
      exact passSafe_fail hk.1 _

lemma passSafe_setUp (hjob : P.Job (P.ns c) links) (hc : c ∈ links) (hs : Same m link)
    (hns : m.netns = some (P.ns c)) (hname : m.name = c.localIntf)
    (hw : Knows P links k₀ (c :: rest) m w) :
    PassSafe P (fun _ => Asserts (Ok P) (PodCalm P links k₀ rest))
      (setUp parseAddr (P.ns c) c link) w := by
  refine passSafe_exec closed_knows (fun _ hk => hk.1) (fun k e hk => passSafe_fail hk.1 _)
    (fun b k hk hcalm => ?_) hw
  have hknows : Knows P links k₀ (c :: rest) m (b, k) := ⟨hk, hcalm⟩
  rw [L.linkSetUp link k]
  rcases get_known hknows hs hns with hget | ⟨hget, rfl⟩
  · rw [hget, Option.elim_some, update_congr hs]
    have hknows' := knows_update (f := fun d => { d with up := true }) hjob hknows
      (keeps_up (hjob c hc).1 hname) better_up
    dsimp only
    split
    · next hip => exact passSafe_done hknows' fun _ => ⟨hns, hname, rfl, fun h => absurd hip h⟩
    · next hip =>
      obtain ⟨addr, haddr⟩ := Option.isSome_iff_exists.mp (P.addr c (hjob c hc).1 hip)
      rw [haddr]
      exact passSafe_addAddr (m := { m with up := true }) hjob hc hs hns hname rfl haddr hknows'
  · rw [hget, Option.elim_none]
    exact passSafe_fail hk.1 _

lemma passSafe_linkDel (hok : Ok P k) :
    PassSafe P (fun _ => Asserts (Ok P) (PodCalm P links k₀ rest))
      (exec (.linkDel p link) >>= fun _ => pure ()) (false, k) := by
  have hret : ∀ b k, Ok P k → (b = true → False) →
      PassSafe P (fun _ => Asserts (Ok P) (PodCalm P links k₀ rest)) (pure ()) (b, k) :=
    fun b k hk hcalm => passSafe_ret closed_ok (fun _ => id) (fun _ => id)
      ⟨hk, fun hb => (hcalm hb).elim⟩
  refine passSafe_exec (C := fun _ => False) closed_ok (fun _ => id)
    (fun k _ hk => hret false k hk (by simp)) (fun b k hk hcalm => ?_) ⟨hok, by simp⟩
  refine hret b _ ?_ hcalm
  rw [L.linkDel link k]
  cases k.get (some p) link with
  | some d => exact closed_ok k _ hk (removed_remove k d.pair)
  | none => exact hk

lemma passSafe_configureLink (hjob : P.Job p links) (hc : c ∈ links)
    (hw : Asserts (Ok P) (PodCalm P links k₀ (c :: rest)) w) :
    PassSafe P (fun _ => Asserts (Ok P) (PodCalm P links k₀ rest))
      (configureLink parseAddr p c) w := by
  obtain ⟨hlink, rfl⟩ := hjob c hc
  refine ((passSafe_locate hlink hc hw).mono fun link w hw => ?_).bind
  obtain ⟨⟨hns, hname⟩, hw⟩ := hw
  split
  · next hfinal => exact passSafe_setUp hjob hc ⟨rfl, rfl⟩ hns hfinal hw
  · next htemp =>
    replace hname := hname.resolve_right htemp
    refine passSafe_exec closed_knows (fun _ hk => hk.1) (fun k e hk => ?_)
      (fun b k hk hcalm => ?_) hw
    · by_cases he : e = .fileExists
      · subst he
        exact passSafe_linkDel hk.1
      · cases e <;> first | exact absurd rfl he | exact passSafe_fail hk.1 _
    · have hknows : Knows P links k₀ (c :: rest) link (b, k) := ⟨hk, hcalm⟩
      rcases get_known hknows ⟨rfl, rfl⟩ hns with hget | ⟨hget, rfl⟩
      · have hmem := (get_eq_some hget).1
        have hdown := hk.1.down link hmem c hlink hname
        have hfree : k.find (some (P.ns c)) c.localIntf = none :=
          find_eq_none_of_at hk.1 hlink hmem (.inr ⟨hns, .inl hname⟩) (.inr rfl)
            fun h => htemp h.2
        rw [L.linkSetName hget hdown (accepts_ns hlink).intf (accepts_ns hlink).intf_own,
          if_neg (by simp [hfree])]
        exact passSafe_setUp hjob hc (m := { link with name := c.localIntf }) ⟨rfl, rfl⟩ hns rfl
          (knows_update (f := fun d => { d with name := c.localIntf }) hjob hknows
            (keeps_rename hlink hns hname) (better_rename hlink hns hname))
      · rw [L.linkSetName_gone hget]
        exact passSafe_fail hk.1 _

/-! ### The whole pass -/

lemma asserts_listed {b : Bool} (hok : Ok P k) (hcalm : b = true → k = k₀)
    (hlist : ∀ name, name ∈ existing ↔
      L.Other (some p) name ∨ ∃ d ∈ k.devices, d.netns = some p ∧ d.name = name) :
    Asserts (HostAlways P p existing) (HostCalm P p links k₀ links existing) (b, k) := by
  refine ⟨⟨hok, fun d hd hns => (hlist _).mpr (.inr ⟨d, hd, hns, rfl⟩)⟩,
    fun hb => ⟨?_, fun name => (hlist name).mp, fun c hc => .inl hc⟩⟩
  rw [hcalm hb]
  exact fun _ _ h => h

lemma passSafe_hostPass (hjob : P.Job p links)
    (hw : Asserts (HostAlways P p existing) (HostCalm P p links k₀ links existing) w) :
    PassSafe P (fun existing => Asserts (HostAlways P p existing)
      (HostCalm P p links k₀ [] existing))
      (links.foldlM (hostLink p) existing) w := by
  refine (safe_foldlM (J := fun rest existing w => (∀ c ∈ rest, c ∈ links) ∧
    Asserts (HostAlways P p existing) (HostCalm P p links k₀ rest existing) w) ?_ ?_ ?_
    ⟨fun _ => id, hw⟩).mono fun _ _ h => h.2
  · exact fun existing w w' h hr => ⟨h.1, stable_asserts closed_hostAlways w w' h.2 hr⟩
  · exact fun existing w h => h.2.always.1
  · rintro c rest existing w ⟨hsub, hw⟩
    rw [List.forall_mem_cons] at hsub
    exact (passSafe_hostLink hjob hsub.1 hw).mono fun _ _ h => ⟨hsub.2, h⟩

lemma passSafe_podPass (hjob : P.Job p links) (hw : Asserts (Ok P) (PodCalm P links k₀ links) w) :
    PassSafe P (fun _ => Asserts (Ok P) (PodCalm P links k₀ []))
      (links.foldlM (fun _ cfg => configureLink parseAddr p cfg) ()) w := by
  refine (safe_foldlM (J := fun rest _ w => (∀ c ∈ rest, c ∈ links) ∧
    Asserts (Ok P) (PodCalm P links k₀ rest) w) ?_ ?_ ?_ ⟨fun _ => id, hw⟩).mono fun _ _ h => h.2
  · exact fun _ w w' h hr => ⟨h.1, stable_asserts closed_ok w w' h.2 hr⟩
  · exact fun _ w h => h.2.always
  · rintro c rest _ w ⟨hsub, hw⟩
    rw [List.forall_mem_cons] at hsub
    exact (passSafe_configureLink hjob hsub.1 hw).mono fun _ _ h => ⟨hsub.2, h⟩

lemma passSafe_configurePodLinks (hjob : P.Job p links) {b : Bool} (hok : Ok P k₀) :
    PassSafe P (fun _ => Asserts (Ok P) (PodCalm P links k₀ []))
      (configurePodLinks parseAddr p links) (b, k₀) := by
  unfold configurePodLinks
  split
  · next hnil =>
    subst hnil
    exact passSafe_ret closed_ok (fun _ => id) (fun _ => id)
      ⟨hok, fun _ => ⟨fun _ _ h => h, by simp, by simp⟩⟩
  · next hne =>
    obtain ⟨c, hc⟩ := List.exists_mem_of_ne_nil links hne
    obtain ⟨hlink, rfl⟩ := hjob c hc
    have hopens := (accepts_ns hlink).opens
    refine passSafe_exec (C := fun k => k = k₀) closed_ok (fun _ => id)
      (fun k e hk => passSafe_fail hk _) (fun b k hk hcalm => ?_) ⟨hok, fun _ => rfl⟩
    rw [L.getNS k hopens]
    refine passSafe_exec (C := fun k => k = k₀) closed_ok (fun _ => id)
      (fun k e hk => passSafe_fail hk _) (fun b k hk hcalm => ?_) ⟨hk, hcalm⟩
    obtain ⟨names, hnames, hlist⟩ := L.linkList k hopens
    rw [hnames]
    refine ((passSafe_hostPass hjob (asserts_listed hk hcalm hlist)).mono
      fun existing w hw => ?_).bind
    refine passSafe_podPass hjob ⟨hw.always.1, fun hb => ?_⟩
    have h := hw.calm hb
    exact ⟨h.plugged, fun c hc => (h.done c hc).resolve_left (by simp), fun c hc => .inl hc⟩

end Pass

/-! ### Runs -/

lemma run_answerTo (p : Netlink α) (k : Kernel) :
    p.run (answerTo L none) (true, k) =
      ((p.run L.perform k).1, (true, (p.run L.perform k).2)) := by
  induction p generalizing k with
  | ret a => rfl
  | fail e => rfl
  | call c next ih => exact ih _ _

/-- **A pass that nobody interferes with** succeeds, whatever state it finds. -/
lemma pass_plugs {p : String} {links : List PodLinkConfig} (hok : Ok P k) (hjob : P.Job p links) :
    ∃ k', (configurePodLinks parseAddr p links).run L.perform k = (.ok (), k') ∧ Ok P k' ∧
      (∀ c ∈ links, Plugged P k' c) ∧ ∀ c ∈ P.links, Plugged P k c → Plugged P k' c := by
  have h := (passSafe_configurePodLinks hjob (b := true) hok).run none
  rw [run_answerTo] at h
  obtain ⟨hok', ⟨⟨⟩, hret, hQ⟩ | ⟨e, -, hE⟩⟩ := h
  · refine ⟨_, Prod.ext hret rfl, hok', fun c hc => ?_, (hQ.calm rfl).plugged⟩
    exact ((hQ.calm rfl).done c hc).resolve_left (by simp)
  · exact absurd hE (by simp)

lemma passes_plug {jobs : List (String × List PodLinkConfig)} (hok : Ok P k)
    (hjobs : ∀ j ∈ jobs, P.Job j.1 j.2) :
    ∃ k', passes parseAddr L jobs k = .ok k' ∧ Ok P k' ∧ (∀ j ∈ jobs, ∀ c ∈ j.2, Plugged P k' c) ∧
      ∀ c ∈ P.links, Plugged P k c → Plugged P k' c := by
  induction jobs generalizing k with
  | nil => exact ⟨k, rfl, hok, by simp, fun _ _ h => h⟩
  | cons j jobs ih =>
    rw [List.forall_mem_cons] at hjobs
    obtain ⟨k₁, hrun, hok₁, hdone, hkept⟩ := pass_plugs hok hjobs.1
    obtain ⟨k₂, hruns, hok₂, hdone', hkept'⟩ := ih hok₁ hjobs.2
    refine ⟨k₂, by rw [passes, hrun]; exact hruns, hok₂, ?_,
      fun c hc h => hkept' c hc (hkept c hc h)⟩
    rw [List.forall_mem_cons]
    exact ⟨fun c hc => hkept' c (hjobs.1 c hc).1 (hdone c hc), hdone'⟩

lemma plugged_pair (h : Ok P k) (hc : c ∈ P.links) (hc' : c' ∈ P.links)
    (hm : Mirror c c') (hplug : Plugged P k c) (hplug' : Plugged P k c') :
    ∃ d ∈ k.devices, ∃ d' ∈ k.devices, Plugs P c d ∧ Plugs P c' d' ∧ d'.pair = d.pair ∧
      d'.side = !d.side ∧ d.mtu = vethMTU c ∧ d'.mtu = vethMTU c := by
  obtain ⟨d, hd, hd₁⟩ := hplug
  obtain ⟨d', hd', hd₁'⟩ := hplug'
  obtain ⟨hp, hs⟩ := h.connected hd hd' hc hc' hm (.inr hd₁.inside) (.inr hd₁'.inside)
  refine ⟨d, hd, d', hd', hd₁, hd₁', hp, hs, h.mtu d hd c hc (.inr hd₁.inside), ?_⟩
  rw [h.mtu d' hd' c' hc' (.inr hd₁'.inside), vethMTU, vethMTU, P.mtu c hc c' hc' hm]

/-- The kernel is in order, and the pass that is going on is safe. -/
def Inv (P : Plan L parseAddr) (s : St) : Prop :=
  match s.job with
  | none => Ok P s.kernel
  | some prog => PassSafe P (fun _ _ => True) prog (false, s.kernel)

lemma Inv.ok {s : St} (h : Inv P s) : Ok P s.kernel := by
  cases hj : s.job with
  | none => simpa only [Inv, hj] using h
  | some prog =>
    simp only [Inv, hj] at h
    exact h.inv

lemma inv_idle (hok : Ok P k) : Inv P ⟨k, none⟩ := hok

lemma inv_step {s s' : St} {a : Act} (h : Inv P s) (hstep : step P s a = some s') : Inv P s' := by
  cases a with
  | start p links =>
    simp only [step] at hstep
    split at hstep
    · next hcond =>
      obtain rfl := Option.some.inj hstep
      exact (passSafe_configurePodLinks hcond.2 h.ok).mono fun _ _ _ => trivial
    · cases hstep
  | go failure =>
    cases hj : s.job with
    | none => simp [step, hj] at hstep
    | some prog =>
      have hsafe : PassSafe P (fun _ _ => True) prog (false, s.kernel) := by
        simpa only [Inv, hj] using h
      cases prog with
      | ret a =>
        simp only [step, hj] at hstep
        obtain rfl := Option.some.inj hstep
        exact inv_idle h.ok
      | fail e =>
        simp only [step, hj] at hstep
        obtain rfl := Option.some.inj hstep
        exact inv_idle h.ok
      | call c next =>
        simp only [step, hj] at hstep
        obtain rfl := Option.some.inj hstep
        exact hsafe.step failure
  | crash =>
    obtain rfl := Option.some.inj hstep
    exact inv_idle h.ok
  | remove pair =>
    obtain rfl := Option.some.inj hstep
    cases hj : s.job with
    | none =>
      simp only [Inv, hj] at h ⊢
      exact closed_ok _ _ h (removed_remove _ pair)
    | some prog =>
      simp only [Inv, hj] at h ⊢
      exact h.disturbed (.inr ⟨rfl, removed_remove _ pair⟩)

lemma go_run (prog : Netlink Unit) (k : Kernel) : ∃ n,
    run (step P) ⟨k, some prog⟩ (List.replicate n (.go none)) =
      some ⟨(prog.run L.perform k).2, none⟩ := by
  induction prog generalizing k with
  | ret a => exact ⟨1, rfl⟩
  | fail e => exact ⟨1, rfl⟩
  | call c next ih =>
    obtain ⟨n, hn⟩ := ih (L.perform c k).1 (L.perform c k).2
    exact ⟨n + 1, hn⟩

/-- Passes one after the other are a run in which nothing else happens. -/
theorem passes_run {jobs : List (String × List PodLinkConfig)} (hjobs : ∀ j ∈ jobs, P.Job j.1 j.2)
    (h : passes parseAddr L jobs k = .ok k') : ∃ as, run (step P) ⟨k, none⟩ as = some ⟨k', none⟩ ∧
      ∀ a ∈ as, a = .go none ∨ ∃ p links, a = .start p links := by
  induction jobs generalizing k with
  | nil =>
    obtain rfl := Except.ok.inj h
    exact ⟨[], rfl, by simp⟩
  | cons j jobs ih =>
    rw [List.forall_mem_cons] at hjobs
    obtain ⟨n, hn⟩ := go_run (P := P) (configurePodLinks parseAddr j.1 j.2) k
    have hstart : step P ⟨k, none⟩ (.start j.1 j.2) =
        some ⟨k, some (configurePodLinks parseAddr j.1 j.2)⟩ := if_pos ⟨rfl, hjobs.1⟩
    rw [passes] at h
    split at h
    · next k₁ hrun =>
      rw [hrun] at hn
      obtain ⟨as, has, hall⟩ := ih hjobs.2 h
      refine ⟨.start j.1 j.2 :: List.replicate n (.go none) ++ as, run_trans _ ?_ has, ?_⟩
      · rw [run_cons, hstart]
        exact hn
      · simp only [List.cons_append, List.forall_mem_cons, List.forall_mem_append]
        exact ⟨.inr ⟨_, _, rfl⟩, fun a ha => .inl (List.eq_of_mem_replicate ha), hall⟩
    · cases h

variable {as : List Act} {s : St}

lemma ok_of_run (hrun : run (step P) {} as = some s) : Ok P s.kernel :=
  (run_inv (fun _ _ _ h hs => inv_step h hs) (inv_idle ok_init) hrun).ok

/-- **Pairs are never crossed.** At any point of any run, with passes interrupted, calls that fail
and pairs that are lost: a device is at a place of one end of one link, and the other end of its
pair is the only device at the places of the other end of this link. -/
theorem ends_stay_paired (hrun : run (step P) {} as = some s) :
    ∀ d ∈ s.kernel.devices, ∃ c ∈ P.links, At P c d ∧ (∀ a ∈ P.links, At P a d → a = c) ∧
      ∃ c' ∈ P.links, Mirror c c' ∧ ∃ d' ∈ s.kernel.devices, d'.pair = d.pair ∧ d'.side = !d.side ∧
        At P c' d' ∧ ∀ e ∈ s.kernel.devices, At P c' e → e = d' := by
  intro d hd
  have h := ok_of_run hrun
  obtain ⟨c, hc, hat⟩ := h.placed d hd
  obtain ⟨c', hc', hm⟩ := P.mirror c hc
  obtain ⟨d', hd', hp, hs, hall⟩ := h.mate d hd
  have hat' := hall c hc c' hc' hm hat
  exact ⟨c, hc, hat, fun a ha h' => at_unique ha hc h' hat, c', hc', hm, d', hd', hp, hs, hat',
    fun e he h' => h.single d' hd' e he c' hc' hat' h'⟩

/-! A kernel that answers in this way, with `lo` and `eth0` in each namespace. -/

def validName (name : String) : Bool :=
  decide (name.toList.length ∈ List.range' 1 15) && decide (name ∉ [".", ".."]) &&
    name.toList.all fun c => decide (c ∉ ['/', ':', ' '])

def validMTU (mtu : ℤ) : Bool := decide (68 ≤ mtu) && decide (mtu ≤ 65535)

def others : List String := ["lo", "eth0"]

def accepted (c : PodLinkConfig) : Bool :=
  validName c.localIntf && validName (localHostName c) && validMTU (vethMTU c) &&
    decide (c.localIntf ∉ others) && decide (localHostName c ∉ others)

def respond : (c : Call) → Kernel → Reply c × Kernel
  | .getNS _, k => (.ok (), k)
  | .linkList netns, k =>
    (.ok (others ++ (k.devices.filter (·.netns = some netns)).map (·.name)), k)
  | .linkByName netns name, k =>
    -- there is no `Device` for what is no veth end, and no pass of a plan looks for it
    if name ∈ others then (.error .other, k)
    else ((k.find netns name).elim (.error .notFound) .ok, k)
  | .linkAdd name peerName mtu, k =>
    if ¬ (validName name ∧ validName peerName ∧ validMTU mtu) then (.error .invalid, k)
    else if name ∈ others ∨ peerName ∈ others ∨ name = peerName then (.error .fileExists, k)
    else if (k.find none name).isSome ∨ (k.find none peerName).isSome then (.error .fileExists, k)
    else (.ok (), k.add name peerName mtu)
  | .linkSetNsFd link netns, k =>
    (k.get none link).elim (.error .noDevice, k) fun d =>
      if d.name ∈ others then (.error .fileExists, k)
      else if (k.find (some netns) d.name).isSome then (.error .fileExists, k)
      else (.ok (), k.update link fun d => { d with netns := some netns, up := false, addrs := [] })
  | .linkSetName netns link name, k =>
    (k.get (some netns) link).elim (.error .noDevice, k) fun d =>
      if d.up then (.error .busy, k)
      else if ¬ validName name then (.error .invalid, k)
      else if name ∈ others then (.error .fileExists, k)
      else if (k.find (some netns) name).isSome then (.error .fileExists, k)
      else (.ok (), k.update link fun d => { d with name := name })
  | .linkDel netns link, k =>
    (k.get (some netns) link).elim (.error .noDevice, k) fun d => (.ok (), k.remove d.pair)
  | .linkSetUp netns link, k =>
    (k.get (some netns) link).elim (.error .noDevice, k) fun _ =>
      (.ok (), k.update link fun d => { d with up := true })
  | .addrAdd netns link addr, k =>
    (k.get (some netns) link).elim (.error .noDevice, k) fun d =>
      if addr ∈ d.addrs then (.error .fileExists, k)
      else (.ok (), k.update link fun d => { d with addrs := addr :: d.addrs })

def plainLinux : Linux where
  perform := respond
  ValidName name := validName name
  ValidMTU mtu := validMTU mtu
  Opens _ := True
  Other _ name := name ∈ others
  getNS _ _ := rfl
  linkList k _ := ⟨_, rfl, by simp [List.mem_map, and_assoc]⟩
  linkByName _ h := if_neg h
  linkAdd k hname hpeer hmtu hother hother' hne := by
    simp only [respond, hname, hpeer, hmtu, hother, hother', hne, and_self, not_true, or_self,
      if_false]
  linkSetNsFd h _ hother := by simp only [respond, h, Option.elim_some, if_neg hother]
  linkSetNsFd_gone h := by simp only [respond, h, Option.elim_none]
  linkSetName h hdown hname hother := by
    simp only [respond, h, Option.elim_some, hdown, hname, if_neg hother, not_true, if_false,
      Bool.false_eq_true]
  linkSetName_gone h := by simp only [respond, h, Option.elim_none]
  linkDel _ _ := rfl
  linkSetUp _ _ := rfl
  addrAdd _ _ := rfl

lemma plainLinux_accepts {netns : String} (h : accepted c) : plainLinux.Accepts netns c := by
  simp only [accepted, Bool.and_eq_true, decide_eq_true_eq] at h
  obtain ⟨⟨⟨⟨hintf, hhost⟩, hmtu⟩, hown⟩, hown'⟩ := h
  exact ⟨hintf, hhost, hmtu, trivial, hown, hown', hown'⟩

/-! A link between two pods. The pass of one pod is interrupted when it has moved its end; that of
the other fails when it lists the devices of its pod. -/

def endOf (pod peer ip : String) : PodLinkConfig :=
  { podName := pod, peerPodName := peer, linkUID := 1, kubeNs := "lab", localIntf := "eth1",
    localIP := ip, peerIntf := "eth1", peerIP := "", mtu := 0 }

def labLinks : List PodLinkConfig := [endOf "r1" "r2" "10.0.0.1/30", endOf "r2" "r1" ""]

lemma labLinks_accepted : ∀ c ∈ labLinks, accepted c := by decide

def lab : Plan plainLinux some where
  links := labLinks
  netns _ pod := pod
  mirror := by decide
  apart := by decide
  mtu := by decide
  host := by decide
  intf := by decide
  fresh := by decide
  addr := by decide
  accepts c hc := plainLinux_accepts (labLinks_accepted c hc)

def interrupted : List Act :=
  .start "r1" [endOf "r1" "r2" "10.0.0.1/30"] :: List.replicate 6 (.go none) ++
    [.crash, .start "r2" [endOf "r2" "r1" ""], .go none, .go (some .other), .go none]

lemma interrupted_half :
    (run (step lab) {} interrupted).any fun s =>
      s.kernel.devices.map (fun d => (d.netns, d.name)) =
        [(some "r1", "vnm-ed04595d-0"), (none, "vnm-ed04595d-1")] := by
  decide

theorem ends_stay_paired_interrupted :
    ∃ s, run (step lab) {} interrupted = some s ∧ ∃ d ∈ s.kernel.devices, ∃ d' ∈ s.kernel.devices,
      d'.pair = d.pair ∧ d'.side = !d.side ∧ ∃ c ∈ lab.links, At lab c d ∧
        ∃ c' ∈ lab.links, Mirror c c' ∧ At lab c' d' := by
  obtain ⟨s, hrun, hs⟩ := (Option.any_eq_true _ _).mp interrupted_half
  have hmap := of_decide_eq_true hs
  cases hd : s.kernel.devices with
  | nil => simp [hd] at hmap
  | cons d rest =>
    have hmem : d ∈ s.kernel.devices := hd ▸ List.mem_cons_self
    obtain ⟨c, hc, hat, -, c', hc', hm, d', hd', hp, hside, hat', -⟩ :=
      ends_stay_paired hrun d hmem
    exact ⟨s, hrun, d, hd ▸ hmem, d', hd ▸ hd', hp, hside, c, hc, hat, c', hc', hm, hat'⟩

/-- **Passes connect the pods.** From whatever state any run has left the kernel in: passes for the
pods of a node, in any order, succeed, and each link with both of its pods among them then is a pair
between the two interfaces, both up, with their addresses and the MTU of the link. What was there
before stays. -/
theorem passes_connect (hrun : run (step P) {} as = some s)
    {jobs : List (String × List PodLinkConfig)} (hjobs : ∀ j ∈ jobs, P.Job j.1 j.2) :
    ∃ k, passes parseAddr L jobs s.kernel = .ok k ∧
      (∀ c ∈ P.links, Plugged P s.kernel c → Plugged P k c) ∧
      ∀ j ∈ jobs, ∀ j' ∈ jobs, ∀ c ∈ j.2, ∀ c' ∈ j'.2, Mirror c c' →
        ∃ d ∈ k.devices, ∃ d' ∈ k.devices, Plugs P c d ∧ Plugs P c' d' ∧ d'.pair = d.pair ∧
          d'.side = !d.side ∧ d.mtu = vethMTU c ∧ d'.mtu = vethMTU c := by
  obtain ⟨k, hk, hok, hdone, hkept⟩ := passes_plug (ok_of_run hrun) hjobs
  refine ⟨k, hk, hkept, fun j hj j' hj' c hc c' hc' hm => ?_⟩
  exact plugged_pair hok (hjobs j hj c hc).1 (hjobs j' hj' c' hc').1 hm (hdone j hj c hc)
    (hdone j' hj' c' hc')

theorem passes_connect_interrupted :
    ∃ s k, run (step lab) {} interrupted = some s ∧
      passes some plainLinux [("r2", [endOf "r2" "r1" ""]), ("r1", [endOf "r1" "r2" "10.0.0.1/30"])]
        s.kernel = .ok k ∧
      ∃ d ∈ k.devices, ∃ d' ∈ k.devices, Plugs lab (endOf "r1" "r2" "10.0.0.1/30") d ∧
        Plugs lab (endOf "r2" "r1" "") d' ∧ d'.pair = d.pair ∧ d'.side = !d.side := by
  obtain ⟨s, hrun, -⟩ := (Option.any_eq_true _ _).mp interrupted_half
  have hjobs : ∀ j ∈ [("r2", [endOf "r2" "r1" ""]), ("r1", [endOf "r1" "r2" "10.0.0.1/30"])],
      lab.Job j.1 j.2 := by decide
  obtain ⟨k, hk, -, hall⟩ := passes_connect hrun hjobs
  obtain ⟨d, hd, d', hd', hplug, hplug', hp, hside, -⟩ :=
    hall _ (List.mem_cons_of_mem _ List.mem_cons_self) _ List.mem_cons_self
      (endOf "r1" "r2" "10.0.0.1/30") (by decide) (endOf "r2" "r1" "") (by decide) (by decide)
  exact ⟨s, k, hrun, hk, d, hd, d', hd', hplug, hplug', hp, hside⟩

/-- A pod that is linked to itself is what `Plan.apart` leaves out: its two ends take one name, and
the second is not found. -/
def selfLink : List PodLinkConfig :=
  [{ endOf "r1" "r1" "" with localIntf := "eth1", peerIntf := "eth2" },
    { endOf "r1" "r1" "" with localIntf := "eth2", peerIntf := "eth1" }]

lemma selfLink_fails : (passes some plainLinux [("r1", selfLink)] {}).toOption = none := by
  decide

end Kne.VethPasses
