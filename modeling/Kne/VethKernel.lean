import Kne.VethModel

/-!
What the veth devices of a node look like at any time: every device is an end of one of the links,
at one of the three places this end can be, and the other end of its pair is at a place of the other
end of the link. The changes that a pass makes keep this, and so does the loss of any pairs.
-/

namespace Kne.VethKernel

open Kne.MeshTopos Kne.VethModel

/-! ### The names on the host -/

lemma side_ne (text : String) : text ++ "-0" ≠ text ++ "-1" := by
  intro h
  have h' := congrArg String.toList h
  rw [String.toList_append, String.toList_append] at h'
  exact absurd (List.append_cancel_left h') (by decide)

lemma hostNames_ne (c : PodLinkConfig) : localHostName c ≠ peerHostName c := by
  unfold localHostName peerHostName hostVethNames
  dsimp only
  generalize (if c.peerPodName < c.podName then (c.peerPodName, c.podName)
    else (c.podName, c.peerPodName)) = pods
  split
  · exact side_ne _
  · exact (side_ne _).symm

lemma peerHostName_eq {c c' : PodLinkConfig} (h : Mirror c c') (hne : c.podName ≠ c.peerPodName) :
    peerHostName c = localHostName c' := by
  unfold localHostName peerHostName hostVethNames
  rw [h.pod, h.peer, h.uid, h.ns]
  rcases lt_or_gt_of_ne hne with hlt | hlt
  · simp [hlt, hlt.not_gt, hne.symm]
  · simp [hlt, hlt.not_gt, hne]

lemma mirror_symm {c c' : PodLinkConfig} (h : Mirror c c') : Mirror c' c :=
  ⟨h.peer.symm, h.pod.symm, h.uid.symm, h.ns.symm⟩

variable {L : Linux} {parseAddr : String → Option String} {P : Plan L parseAddr}
  {c c' : PodLinkConfig} {d d' m : Device} {k k' : Kernel}

lemma mirror_unique {c'' : PodLinkConfig} (hc : c ∈ P.links) (hc' : c' ∈ P.links)
    (hc'' : c'' ∈ P.links) (h : Mirror c c') (h' : Mirror c c'') : c' = c'' :=
  P.host c' hc' c'' hc''
    ((peerHostName_eq h (P.apart c hc)).symm.trans (peerHostName_eq h' (P.apart c hc)))

lemma accepts_ns (hc : c ∈ P.links) : L.Accepts (P.ns c) c := P.accepts c hc

/-! ### Places -/

/-- The device is in the pod, under the name from the host or under its own. -/
def Inside (P : Plan L parseAddr) (c : PodLinkConfig) (d : Device) : Prop :=
  d.netns = some (P.ns c) ∧ (d.name = localHostName c ∨ d.name = c.localIntf)

/-- The device is at a place of this end of the link. -/
def At (P : Plan L parseAddr) (c : PodLinkConfig) (d : Device) : Prop :=
  d.netns = none ∧ d.name = localHostName c ∨ Inside P c d

/-- The device is what the pod should have. -/
structure Plugs (P : Plan L parseAddr) (c : PodLinkConfig) (d : Device) : Prop where
  netns : d.netns = some (P.ns c)
  name : d.name = c.localIntf
  up : d.up = true
  addr : c.localIP ≠ "" → ∃ addr ∈ parseAddr c.localIP, addr ∈ d.addrs

lemma Plugs.inside (h : Plugs P c d) : Inside P c d := ⟨h.netns, .inr h.name⟩

lemma at_unique (hc : c ∈ P.links) (hc' : c' ∈ P.links) (h : At P c d) (h' : At P c' d) :
    c = c' := by
  rcases h with ⟨hn, hname⟩ | ⟨hn, hname⟩ <;> rcases h' with ⟨hn', hname'⟩ | ⟨hn', hname'⟩
  · exact P.host c hc c' hc' (hname.symm.trans hname')
  · exact absurd (hn.symm.trans hn') (by simp)
  · exact absurd (hn.symm.trans hn') (by simp)
  · rcases hname with hname | hname <;> rcases hname' with hname' | hname'
    · exact P.host c hc c' hc' (hname.symm.trans hname')
    · exact absurd (hname'.symm.trans hname) (P.fresh c' hc' c hc)
    · exact absurd (hname.symm.trans hname') (P.fresh c hc c' hc')
    · exact P.intf c hc c' hc' (Option.some.inj (hn.symm.trans hn')) (hname.symm.trans hname')

/-- The two devices are one. -/
def Same (d d' : Device) : Prop := d'.pair = d.pair ∧ d'.side = d.side

structure Ok (P : Plan L parseAddr) (k : Kernel) : Prop where
  fresh : ∀ d ∈ k.devices, d.pair < k.next
  ends : ∀ d ∈ k.devices, ∀ d' ∈ k.devices, Same d d' → d' = d
  placed : ∀ d ∈ k.devices, ∃ c ∈ P.links, At P c d
  single : ∀ d ∈ k.devices, ∀ d' ∈ k.devices, ∀ c ∈ P.links, At P c d → At P c d' → d' = d
  mate : ∀ d ∈ k.devices, ∃ d' ∈ k.devices, d'.pair = d.pair ∧ d'.side = !d.side ∧
    ∀ c ∈ P.links, ∀ c' ∈ P.links, Mirror c c' → At P c d → At P c' d'
  mtu : ∀ d ∈ k.devices, ∀ c ∈ P.links, At P c d → d.mtu = vethMTU c
  /-- A device that has not been renamed is down. -/
  down : ∀ d ∈ k.devices, ∀ c ∈ P.links, d.name = localHostName c → d.up = false

lemma ok_init : Ok P {} :=
  ⟨by simp, by simp, by simp, by simp, by simp, by simp, by simp⟩

lemma Ok.connected (h : Ok P k) (hd : d ∈ k.devices) (hd' : d' ∈ k.devices) (hc : c ∈ P.links)
    (hc' : c' ∈ P.links) (hm : Mirror c c') (hat : At P c d) (hat' : At P c' d') :
    d'.pair = d.pair ∧ d'.side = !d.side := by
  obtain ⟨e, he, hp, hs, hall⟩ := h.mate d hd
  obtain rfl := h.single e he d' hd' c' hc' (hall c hc c' hc' hm hat) hat'
  exact ⟨hp, hs⟩

lemma Ok.nowhere (h : Ok P k) (hc : c ∈ P.links) (hc' : c' ∈ P.links) (hm : Mirror c c')
    (hno : ∀ d ∈ k.devices, ¬ At P c d) : ∀ d ∈ k.devices, ¬ At P c' d := by
  intro d hd hat
  obtain ⟨e, he, -, -, hall⟩ := h.mate d hd
  exact hno e he (hall c' hc' c hc (mirror_symm hm) hat)

/-! ### Loss -/

/-- Some pairs are gone. -/
def Removed (k k' : Kernel) : Prop :=
  ∃ keep : ℕ → Bool, k' = { k with devices := k.devices.filter fun d => keep d.pair }

lemma Removed.trans {k'' : Kernel} (h : Removed k k') (h' : Removed k' k'') : Removed k k'' := by
  obtain ⟨keep, rfl⟩ := h
  obtain ⟨keep', rfl⟩ := h'
  exact ⟨fun n => keep' n && keep n, by simp [List.filter_filter]⟩

lemma removed_remove (k : Kernel) (pair : ℕ) : Removed k (k.remove pair) :=
  ⟨fun n => n ≠ pair, by simp [Kernel.remove]⟩

lemma Removed.mem (h : Removed k k') (hd : d ∈ k'.devices) : d ∈ k.devices := by
  obtain ⟨keep, rfl⟩ := h
  exact (List.mem_filter.mp hd).1

/-- What remains true when pairs are gone. -/
def Closed (N : Kernel → Prop) : Prop := ∀ k k', N k → Removed k k' → N k'

lemma Closed.and {N N' : Kernel → Prop} (h : Closed N) (h' : Closed N') :
    Closed fun k => N k ∧ N' k :=
  fun k k' hk hr => ⟨h k k' hk.1 hr, h' k k' hk.2 hr⟩

lemma closed_forall {R : Device → Prop} : Closed fun k => ∀ d ∈ k.devices, R d :=
  fun _ _ hk hr d hd => hk d (hr.mem hd)

lemma closed_ok : Closed (Ok P) := by
  rintro k _ h ⟨keep, rfl⟩
  refine ⟨fun d hd => ?_, fun d hd d' hd' => ?_, fun d hd => ?_, fun d hd d' hd' => ?_,
    fun d hd => ?_, fun d hd => ?_, fun d hd => ?_⟩ <;> rw [List.mem_filter] at hd
  · exact h.fresh d hd.1
  · exact h.ends d hd.1 d' (List.mem_filter.mp hd').1
  · exact h.placed d hd.1
  · exact h.single d hd.1 d' (List.mem_filter.mp hd').1
  · obtain ⟨d', hd', hp, hs⟩ := h.mate d hd.1
    exact ⟨d', List.mem_filter.mpr ⟨hd', hp ▸ hd.2⟩, hp, hs⟩
  · exact h.mtu d hd.1
  · exact h.down d hd.1

/-! ### A new pair -/

lemma Ok.add (h : Ok P k) (hc : c ∈ P.links) (hno : ∀ d ∈ k.devices, ¬ At P c d) :
    Ok P (k.add (localHostName c) (peerHostName c) (vethMTU c)) := by
  obtain ⟨c', hc', hm⟩ := P.mirror c hc
  have hno' := h.nowhere hc hc' hm hno
  rw [peerHostName_eq hm (P.apart c hc)]
  have hne : c ≠ c' := fun he => hostNames_ne c (by rw [peerHostName_eq hm (P.apart c hc), ← he])
  -- the new ends are at places of `c` and `c'` only
  have hat : ∀ a ∈ P.links, ∀ side,
      At P a ⟨k.next, side, none, localHostName c, vethMTU c, false, []⟩ → a = c :=
    fun a ha side h' => at_unique ha hc h' (.inl ⟨rfl, rfl⟩)
  have hat' : ∀ a ∈ P.links, ∀ side,
      At P a ⟨k.next, side, none, localHostName c', vethMTU c, false, []⟩ → a = c' :=
    fun a ha side h' => at_unique ha hc' h' (.inl ⟨rfl, rfl⟩)
  have hlt : ∀ d ∈ k.devices, d.pair ≠ k.next := fun d hd => (h.fresh d hd).ne
  refine ⟨?_, ?_, ?_, ?_, ?_, ?_, ?_⟩ <;> simp only [Kernel.add, List.forall_mem_cons]
  · exact ⟨by simp, by simp, fun d hd => Nat.lt_succ_of_lt (h.fresh d hd)⟩
  · refine ⟨⟨by simp, by simp [Same], ?_⟩, ⟨by simp [Same], by simp, ?_⟩, fun d hd => ⟨?_, ?_, ?_⟩⟩
    · exact fun d hd hs => absurd hs.1 (hlt d hd)
    · exact fun d hd hs => absurd hs.1 (hlt d hd)
    · exact fun hs => absurd hs.1.symm (hlt d hd)
    · exact fun hs => absurd hs.1.symm (hlt d hd)
    · exact h.ends d hd
  · exact ⟨⟨c, hc, .inl ⟨rfl, rfl⟩⟩, ⟨c', hc', .inl ⟨rfl, rfl⟩⟩, h.placed⟩
  · refine ⟨⟨by simp, ?_, ?_⟩, ⟨?_, by simp, ?_⟩, fun d hd => ⟨?_, ?_, ?_⟩⟩
    · exact fun a ha h₀ h₁ => absurd ((hat a ha _ h₀).symm.trans (hat' a ha _ h₁)) hne
    · exact fun d hd a ha h₀ h₁ => absurd (hat a ha _ h₀ ▸ h₁) (hno d hd)
    · exact fun a ha h₀ h₁ => absurd ((hat a ha _ h₁).symm.trans (hat' a ha _ h₀)) hne
    · exact fun d hd a ha h₀ h₁ => absurd (hat' a ha _ h₀ ▸ h₁) (hno' d hd)
    · exact fun a ha h₀ h₁ => absurd (hat a ha _ h₁ ▸ h₀) (hno d hd)
    · exact fun a ha h₀ h₁ => absurd (hat' a ha _ h₁ ▸ h₀) (hno' d hd)
    · exact h.single d hd
  · refine ⟨⟨_, List.mem_cons_of_mem _ List.mem_cons_self, rfl, rfl, ?_⟩,
      ⟨_, List.mem_cons_self, rfl, rfl, ?_⟩, fun d hd => ?_⟩
    · intro a ha a' ha' hma h₀
      obtain rfl := hat a ha _ h₀
      obtain rfl := mirror_unique ha hc' ha' hm hma
      exact .inl ⟨rfl, rfl⟩
    · intro a ha a' ha' hma h₀
      obtain rfl := hat' a ha _ h₀
      obtain rfl := mirror_unique ha hc ha' (mirror_symm hm) hma
      exact .inl ⟨rfl, rfl⟩
    · obtain ⟨d', hd', hmate⟩ := h.mate d hd
      exact ⟨d', List.mem_cons_of_mem _ (List.mem_cons_of_mem _ hd'), hmate⟩
  · refine ⟨fun a ha h₀ => ?_, fun a ha h₀ => ?_, h.mtu⟩
    · rw [hat a ha _ h₀]
    · rw [hat' a ha _ h₀]
      simp only [vethMTU, P.mtu c hc c' hc' hm]
  · exact ⟨by simp, by simp, h.down⟩

/-! ### A change of one end -/

/-- If the device is there, it is still as it was found. -/
def Holds (m : Device) (k : Kernel) : Prop := ∀ d ∈ k.devices, Same m d → d = m

lemma Ok.holds (h : Ok P k) (hm : m ∈ k.devices) : Holds m k := fun d hd hs => h.ends m hm d hd hs

lemma mem_update {f : Device → Device} (hm : Holds m k) :
    d ∈ (k.update m f).devices ↔ m ∈ k.devices ∧ d = f m ∨ d ∈ k.devices ∧ ¬ Same m d := by
  simp only [Kernel.update, List.mem_map]
  constructor
  · rintro ⟨e, he, rfl⟩
    by_cases hs : e.pair = m.pair ∧ e.side = m.side
    · obtain rfl := hm e he hs
      exact .inl ⟨he, by simp⟩
    · rw [if_neg hs]
      exact .inr ⟨he, hs⟩
  · rintro (⟨hmem, rfl⟩ | ⟨hd, hs⟩)
    · exact ⟨m, hmem, by simp⟩
    · exact ⟨d, hd, if_neg hs⟩

/-- A change that leaves the device at a place of its link. -/
structure Keeps (P : Plan L parseAddr) (m m' : Device) : Prop where
  same : Same m m'
  mtu : m'.mtu = m.mtu
  place : ∀ c ∈ P.links, At P c m → At P c m'
  down : ∀ c ∈ P.links, m'.name = localHostName c → m'.up = false

lemma Keeps.at {m' : Device} (h : Keeps P m m') (hm : ∃ c ∈ P.links, At P c m) (hc : c ∈ P.links)
    (hat : At P c m') : At P c m := by
  obtain ⟨c₀, hc₀, h₀⟩ := hm
  exact at_unique hc₀ hc (h.place c₀ hc₀ h₀) hat ▸ h₀

lemma Ok.update {f : Device → Device} (h : Ok P k) (hm : Holds m k) (hf : Keeps P m (f m)) :
    Ok P (k.update m f) := by
  have hmem : ∀ {d}, d ∈ (k.update m f).devices →
      m ∈ k.devices ∧ d = f m ∨ d ∈ k.devices ∧ ¬ Same m d := (mem_update hm).mp
  refine ⟨fun d hd => ?_, fun d hd d' hd' hs => ?_, fun d hd => ?_,
    fun d hd d' hd' c hc hat hat' => ?_, fun d hd => ?_, fun d hd c hc hat => ?_,
    fun d hd c hc hname => ?_⟩
  · rcases hmem hd with ⟨hmk, rfl⟩ | ⟨hdk, -⟩
    · exact hf.same.1 ▸ h.fresh m hmk
    · exact h.fresh d hdk
  · rcases hmem hd with ⟨hmk, rfl⟩ | ⟨hdk, hns⟩ <;> rcases hmem hd' with ⟨hmk', rfl⟩ | ⟨hdk', hns'⟩
    · rfl
    · exact absurd ⟨hs.1.trans hf.same.1, hs.2.trans hf.same.2⟩ hns'
    · exact absurd ⟨hs.1.symm.trans hf.same.1, hs.2.symm.trans hf.same.2⟩ hns
    · exact h.ends d hdk d' hdk' hs
  · rcases hmem hd with ⟨hmk, rfl⟩ | ⟨hdk, -⟩
    · obtain ⟨c, hc, hat⟩ := h.placed m hmk
      exact ⟨c, hc, hf.place c hc hat⟩
    · exact h.placed d hdk
  · rcases hmem hd with ⟨hmk, rfl⟩ | ⟨hdk, hns⟩ <;> rcases hmem hd' with ⟨hmk', rfl⟩ | ⟨hdk', hns'⟩
    · rfl
    · obtain rfl := h.single m hmk d' hdk' c hc (hf.at (h.placed m hmk) hc hat) hat'
      exact absurd ⟨rfl, rfl⟩ hns'
    · obtain rfl := h.single m hmk' d hdk c hc (hf.at (h.placed m hmk') hc hat') hat
      exact absurd ⟨rfl, rfl⟩ hns
    · exact h.single d hdk d' hdk' c hc hat hat'
  · rcases hmem hd with ⟨hmk, rfl⟩ | ⟨hdk, hns⟩
    · obtain ⟨e, he, hp, hs, hall⟩ := h.mate m hmk
      have hne : ¬ Same m e := fun hsame => absurd (hs.symm.trans hsame.2) (by simp)
      refine ⟨e, (mem_update hm).mpr (.inr ⟨he, hne⟩), hp.trans hf.same.1.symm, ?_,
        fun c hc c' hc' hcc' hat => ?_⟩
      · rw [hs, hf.same.2]
      · exact hall c hc c' hc' hcc' (hf.at (h.placed m hmk) hc hat)
    · obtain ⟨e, he, hp, hs, hall⟩ := h.mate d hdk
      by_cases hsame : Same m e
      · obtain rfl := hm e he hsame
        refine ⟨f e, (mem_update hm).mpr (.inl ⟨he, rfl⟩), hf.same.1.trans hp, hf.same.2.trans hs,
          fun c hc c' hc' hcc' hat => ?_⟩
        exact hf.place c' hc' (hall c hc c' hc' hcc' hat)
      · exact ⟨e, (mem_update hm).mpr (.inr ⟨he, hsame⟩), hp, hs, hall⟩
  · rcases hmem hd with ⟨hmk, rfl⟩ | ⟨hdk, -⟩
    · exact hf.mtu.trans (h.mtu m hmk c hc (hf.at (h.placed m hmk) hc hat))
    · exact h.mtu d hdk c hc hat
  · rcases hmem hd with ⟨hmk, rfl⟩ | ⟨hdk, -⟩
    · exact hf.down c hc hname
    · exact h.down d hdk c hc hname

end Kne.VethKernel
