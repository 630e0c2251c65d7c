import Kne.WireMesh

/-!
Frames stay on their link. Link numbers are given out by topology, so a link is a namespace and a
number. In whatever order wires are made, updated, removed and made again, messages are served,
answered and lost: as long as no daemon restarts, a frame is only ever written to a TAP device of an
end of its own link, on another node.

The reason is that an id stands for one wire for as long as the daemon runs, so that an id once
learned from a peer stays the id of an end of the link, even after the end is gone.
-/

namespace Kne.WireSafety

open Kne.Runs Kne.WireModel Kne.WireTables Kne.WireMesh

variable {ι : Type} {ip : ι → String} {s s' : Mesh ι}

/-! ### Knowing an end -/

/-- `n` has made a wire with this id for the link. -/
def Known (s : Mesh ι) (n : ι) (uid : ℤ) (topo : String) (id : ℕ) : Prop :=
  ∃ w, (s.daemon n).objs id = some w ∧ w.uid = uid ∧ w.topoNamespace = topo

/-- The daemon at `peerIP`, which is not that of `n`, has made a wire with this id for the link. -/
def Far (ip : ι → String) (s : Mesh ι) (n : ι) (peerIP : String) (uid : ℤ) (topo : String)
    (id : ℕ) : Prop :=
  ∃ m, ip m = peerIP ∧ m ≠ n ∧ Known s m uid topo id

/-- The wires of the daemons stay what they are. -/
def Later (s s' : Mesh ι) : Prop := ∀ n, Grows (s.daemon n) (s'.daemon n)

lemma Known.later {n : ι} {uid : ℤ} {topo : String} {id : ℕ} (h : Known s n uid topo id)
    (hl : Later s s') : Known s' n uid topo id := by
  obtain ⟨w, hw, hu, ht⟩ := h
  obtain ⟨w', hw', hs⟩ := (hl n).objs id w hw
  exact ⟨w', hw', hs.uid.trans hu, hs.topo.trans ht⟩

lemma Far.later {n : ι} {peerIP : String} {uid : ℤ} {topo : String} {id : ℕ}
    (h : Far ip s n peerIP uid topo id) (hl : Later s s') : Far ip s' n peerIP uid topo id := by
  obtain ⟨m, hm, hne, hk⟩ := h
  exact ⟨m, hm, hne, hk.later hl⟩

section Links

variable (owner : ι → String → String)

/-- What a definition for the daemon at `peerIP` says is so: it names the end of the link on `n`. -/
structure DefOk (ip : ι → String) (s : Mesh ι) (n : ι) (netNS peerIP : String) (uid : ℤ)
    (wireDef : WireDef) : Prop where
  link : wireDef.linkUid = uid
  peer : wireDef.peerNodeIp = ip n
  topo : wireDef.topoNs = owner n netNS
  there : ∀ m, ip m = peerIP → wireDef.topoNs = owner m wireDef.localPodNetNs
  known : Known s n uid (owner n netNS) wireDef.wireIfIdOnPeerNode

/-- An item of an answer is the id of an end of the link. -/
def ItemOk (s : Mesh ι) (m : ι) (topo : String) (uid : ℤ) (item : Option ℕ) : Prop :=
  ∀ id, item = some id → Known s m uid topo id

/-- What a job carries is so. In a batch the items stand at the places of their links. -/
def JobOk (ip : ι → String) (s : Mesh ι) : Job ι → Prop
  | .plan n netNS peerIP links defs =>
    peerIP ≠ ip n ∧ List.Forall₂ (DefOk owner ip s n netNS peerIP) links defs
  | .batch n m netNS peerIP links items todo =>
    ip m = peerIP ∧ m ≠ n ∧ ∃ answered rest, links = answered ++ rest ∧
      List.Forall₂ (ItemOk s m (owner n netNS)) answered items ∧
      List.Forall₂ (DefOk owner ip s n netNS peerIP) rest todo
  | .answer n netNS peerIP links items =>
    ∃ m, ip m = peerIP ∧ m ≠ n ∧ List.Forall₂ (ItemOk s m (owner n netNS)) links items
  | .update n id peerIntfId peerNodeIP =>
    ∃ uid topo, Known s n uid topo id ∧ Far ip s n peerNodeIP uid topo peerIntfId
  | .remove _ _ _ _ => True
  | .packet n id peerIP remotIntfId _ =>
    ∃ uid topo, Known s n uid topo id ∧ Far ip s n peerIP uid topo remotIntfId

/-- A frame was written to an end of its link on another node. -/
def WrittenOk (s : Mesh ι) (r : Written ι) : Prop :=
  r.src ≠ r.dst ∧ ∃ w w', (s.daemon r.src).objs r.srcId = some w ∧
    (s.daemon r.dst).objs r.dstId = some w' ∧ w'.uid = w.uid ∧
    w'.topoNamespace = w.topoNamespace ∧ r.tap = w'.tap

structure Inv (ip : ι → String) (s : Mesh ι) : Prop where
  wf : ∀ n, Wf (s.daemon n)
  own : ∀ n id w, (s.daemon n).objs id = some w → w.topoNamespace = owner n w.localPodNetNS
  peers : ∀ n id w, (s.daemon n).objs id = some w → w.wireIfaceIDOnPeerNode ≠ 0 →
    Far ip s n w.peerNodeIP w.uid w.topoNamespace w.wireIfaceIDOnPeerNode
  jobs : ∀ t ∈ s.jobs, JobOk owner ip s t
  written : ∀ r ∈ s.written, WrittenOk s r

/-- A wire after a step: it was there with the same peer, or its peer is an end of its link. -/
def WireOk (ip : ι → String) (s : Mesh ι) (n : ι) (id : ℕ) (w : GRPCWire) : Prop :=
  (∃ v, (s.daemon n).objs id = some v ∧ SamePeer v w) ∨
    w.topoNamespace = owner n w.localPodNetNS ∧ (w.wireIfaceIDOnPeerNode ≠ 0 →
      Far ip s n w.peerNodeIP w.uid w.topoNamespace w.wireIfaceIDOnPeerNode)

variable {owner}

lemma wireOk_old {n : ι} {id : ℕ} {w : GRPCWire} (hw : (s.daemon n).objs id = some w) :
    WireOk owner ip s n id w :=
  .inl ⟨w, hw, .refl w⟩

lemma DefOk.later {n : ι} {netNS peerIP : String} {uid : ℤ} {wireDef : WireDef}
    (h : DefOk owner ip s n netNS peerIP uid wireDef) (hl : Later s s') :
    DefOk owner ip s' n netNS peerIP uid wireDef :=
  ⟨h.link, h.peer, h.topo, h.there, h.known.later hl⟩

lemma ItemOk.later {m : ι} {topo : String} {uid : ℤ} {item : Option ℕ}
    (h : ItemOk s m topo uid item) (hl : Later s s') : ItemOk s' m topo uid item :=
  fun id hid => (h id hid).later hl

lemma JobOk.later {t : Job ι} (h : JobOk owner ip s t) (hl : Later s s') :
    JobOk owner ip s' t := by
  cases t with
  | plan n netNS peerIP links defs => exact ⟨h.1, h.2.imp fun _ _ hd => hd.later hl⟩
  | batch n m netNS peerIP links items todo =>
    obtain ⟨hm, hne, answered, rest, hlinks, hitems, htodo⟩ := h
    exact ⟨hm, hne, answered, rest, hlinks, hitems.imp fun _ _ hi => hi.later hl,
      htodo.imp fun _ _ hd => hd.later hl⟩
  | answer n netNS peerIP links items =>
    obtain ⟨m, hm, hne, hitems⟩ := h
    exact ⟨m, hm, hne, hitems.imp fun _ _ hi => hi.later hl⟩
  | update n id peerIntfId peerNodeIP =>
    obtain ⟨uid, topo, hk, hf⟩ := h
    exact ⟨uid, topo, hk.later hl, hf.later hl⟩
  | remove n id inMem stage => trivial
  | packet n id peerIP remotIntfId frame =>
    obtain ⟨uid, topo, hk, hf⟩ := h
    exact ⟨uid, topo, hk.later hl, hf.later hl⟩

lemma WrittenOk.later {r : Written ι} (h : WrittenOk s r) (hl : Later s s') : WrittenOk s' r := by
  obtain ⟨hne, w, w', hw, hw', hu, ht, htap⟩ := h
  obtain ⟨v, hv, hs⟩ := (hl r.src).objs _ w hw
  obtain ⟨v', hv', hs'⟩ := (hl r.dst).objs _ w' hw'
  exact ⟨hne, v, v', hv, hv', by rw [hs.uid, hs'.uid, hu], by rw [hs.topo, hs'.topo, ht],
    by rw [hs'.tap, htap]⟩

lemma Inv.known_of_lookup (h : Inv owner ip s) {n : ι} {ns : String} {uid : ℤ} {id : ℕ}
    (hk : (s.daemon n).getWireByUID ⟨ns, uid⟩ = some id) : Known s n uid (owner n ns) id := by
  obtain ⟨w, hw, hkey⟩ := (h.wf n).keyed _ id hk
  have hns : w.localPodNetNS = ns := congrArg LinkKey.ns hkey
  exact ⟨w, hw, congrArg LinkKey.linkUID hkey, hns ▸ h.own n id w hw⟩

lemma inv_init : Inv owner ip ({} : Mesh ι) where
  wf _ := wf_empty
  own _ _ _ h := by cases h
  peers _ _ _ h := by cases h
  jobs _ h := by simp at h
  written _ h := by simp at h

end Links

variable [DecidableEq ι] {a : Act ι}

/-! ### The tables of every daemon -/

lemma wf_section {d d' : Daemon} (h : Section d d') (hwf : Wf d) : Wf d' ∧ Grows d d' := by
  cases h with
  | skip => exact ⟨hwf, .refl d⟩
  | createLocal wireDef tapOk => exact hwf.createLocal wireDef tapOk
  | createOrFind wireDef tapOk => exact hwf.createOrFind wireDef tapOk
  | update id peerIntfId peerNodeIP => exact hwf.update id peerIntfId peerNodeIP
  | extract k => exact ⟨hwf.erase k, grows_of_objs rfl le_rfl⟩
  | stop id => exact ⟨hwf.stop id, grows_stop id⟩
  | close id => exact ⟨hwf.close id, grows_of_objs rfl le_rfl⟩
  | delete id => exact hwf.atomicDelete id
  | nextIndex => exact ⟨hwf.nextIndex, grows_of_objs rfl (Nat.le_succ _)⟩
  | recon wireDef =>
    exact ⟨hwf.make (createGWire_id wireDef), grows_make (createGWire_id wireDef) hwf⟩

lemma wf_step (hwf : ∀ n, Wf (s.daemon n)) (h : step ip s a = some s') (n : ι) :
    Wf (s'.daemon n) := by
  rcases step_section h n with hs | ⟨-, hs⟩
  · exact (wf_section hs (hwf n)).1
  · rw [hs]
    exact wf_empty

/-- **The wire maps.** In every run, restarts of daemons included, every entry of a wire map is a
wire with the key of the entry, no two entries are wires of one pod for one link, every wire has an
id of its own, and an open handle is that of the TAP device of the wire with its id. -/
theorem wire_maps_sound (ip : ι → String) {as : List (Act ι)} {s : Mesh ι}
    (hrun : run (step ip) {} as = some s) (n : ι) :
    (∀ k id, (s.daemon n).wires.lookup k = some id →
      ∃ w, (s.daemon n).objs id = some w ∧ w.localPodNetNS = k.ns ∧ w.uid = k.linkUID ∧
        w.localNodeIfaceID = id) ∧
    (∀ k k' id id' w w', (s.daemon n).wires.lookup k = some id →
      (s.daemon n).wires.lookup k' = some id' → (s.daemon n).objs id = some w →
      (s.daemon n).objs id' = some w' → w'.topoNamespace = w.topoNamespace →
      w'.localPodName = w.localPodName → w'.uid = w.uid → k = k' ∧ id = id') ∧
    ∀ id tap, (s.daemon n).handles id = some tap →
      ∃ w, (s.daemon n).objs id = some w ∧ w.localNodeIfaceID = id ∧
        tap = ⟨w.localPodNetNS, w.localPodIfaceName⟩ := by
  have hwf : ∀ n, Wf (s.daemon n) :=
    run_inv (P := fun s => ∀ n, Wf (s.daemon n)) (fun _ _ _ h hs => wf_step h hs)
      (fun _ => wf_empty) hrun
  refine ⟨fun k id hk => ?_, fun k k' id id' w w' hk hk' hw hw' ht hp hu => ?_, fun id tap ht => ?_⟩
  · obtain ⟨w, hw, rfl⟩ := (hwf n).keyed k id hk
    exact ⟨w, hw, rfl, rfl, ((hwf n).ids id w hw).1⟩
  · obtain rfl := (hwf n).single k k' id id' w w' hk hk' hw hw' ht hp hu
    exact ⟨rfl, Option.some.inj (hk.symm.trans hk')⟩
  · obtain ⟨w, hw, rfl⟩ := (hwf n).taps id tap ht
    exact ⟨w, hw, ((hwf n).ids id w hw).1, rfl⟩

/-! ### The steps -/

section Steps

variable {owner : ι → String → String}

/-- No daemon restarts, and a network namespace belongs to one topology: the namespace of a topology
that a wire is made for, or that a peer is asked for, is that of the network namespace. -/
def Sound (owner : ι → String → String) (ip : ι → String) : Act ι → Prop
  | .createLocal n wireDef _ => wireDef.topoNs = owner n wireDef.localPodNetNs
  | .fetch (.plan n netNS peerIP _ _) peerDef =>
    peerDef.topoNs = owner n netNS ∧
      ∀ m, ip m = peerIP → peerDef.topoNs = owner m peerDef.localPodNetNs
  | .restart _ | .recon _ _ => False
  | _ => True

lemma later_of_wf (hwf : ∀ n, Wf (s.daemon n)) (h : step ip s a = some s')
    (ha : ∀ n, a ≠ .restart n) : Later s s' := by
  intro n
  rcases step_section h n with hs | ⟨rfl, -⟩
  · exact (wf_section hs (hwf n)).2
  · exact absurd rfl (ha n)

lemma later_step (hwf : ∀ n, Wf (s.daemon n)) (hsound : Sound owner ip a)
    (h : step ip s a = some s') : Later s s' := by
  refine later_of_wf hwf h ?_
  rintro n rfl
  exact hsound

lemma Inv.next (h : Inv owner ip s) (hsound : Sound owner ip a) (hstep : step ip s a = some s')
    (hobjs : ∀ n id w, (s'.daemon n).objs id = some w → WireOk owner ip s n id w)
    (hjobs : ∀ t ∈ s'.jobs, t ∈ s.jobs ∨ JobOk owner ip s' t)
    (hwritten : ∀ r ∈ s'.written, r ∈ s.written ∨ WrittenOk s r) : Inv owner ip s' := by
  have hl : Later s s' := later_step h.wf hsound hstep
  refine ⟨wf_step h.wf hstep, fun n id w hw => ?_, fun n id w hw hpos => ?_, fun t ht => ?_,
    fun r hr => ?_⟩
  · rcases hobjs n id w hw with ⟨v, hv, hs⟩ | ⟨ho, -⟩
    · rw [hs.topo, hs.netNS]
      exact h.own n id v hv
    · exact ho
  · rcases hobjs n id w hw with ⟨v, hv, hs⟩ | ⟨-, hp⟩
    · rw [hs.peerId] at hpos ⊢
      rw [hs.peerIP, hs.uid, hs.topo]
      exact (h.peers n id v hv hpos).later hl
    · exact (hp hpos).later hl
  · exact (hjobs t ht).elim (fun ht => (h.jobs t ht).later hl) fun ht => ht
  · exact ((hwritten r hr).elim (h.written r) fun hr => hr).later hl

lemma wireOk_set {m : ι} {d : Daemon}
    (hd : ∀ id w, d.objs id = some w → WireOk owner ip s m id w) (n : ι) (id : ℕ) (w : GRPCWire)
    (hw : ((s.set m d).daemon n).objs id = some w) : WireOk owner ip s n id w := by
  by_cases hn : n = m
  · subst hn
    exact hd id w (by simpa [Mesh.set] using hw)
  · exact wireOk_old (by simpa [Mesh.set, hn] using hw)

lemma mem_replace {t u : Job ι} {ts : List (Job ι)} (h : u ∈ (s.replace t ts).jobs) :
    u ∈ s.jobs ∨ u ∈ ts :=
  (List.mem_append.mp h).imp_left List.mem_of_mem_erase

lemma Inv.createLocal (h : Inv owner ip s) {n : ι} {wireDef : WireDef} {tapOk : Bool}
    (hsound : Sound owner ip (.createLocal n wireDef tapOk))
    (hstep : step ip s (.createLocal n wireDef tapOk) = some s') : Inv owner ip s' := by
  refine h.next hsound hstep ?_ ?_ ?_
  all_goals cases hstep
  · refine wireOk_set fun id w hw => ?_
    unfold Daemon.createGRPCWireLocal at hw
    split at hw
    · obtain ⟨v, hv, rfl | rfl⟩ := of_objs_modify hw
      · exact wireOk_old hv
      · exact .inl ⟨v, hv, ⟨rfl, rfl, rfl, rfl, rfl, rfl, rfl⟩, rfl, rfl⟩
    · split at hw
      · rcases of_objs_make (createGWireLocal_id _) (h.wf n) hw with ⟨-, rfl⟩ | hold
        · exact .inr ⟨hsound, fun hpos => absurd rfl hpos⟩
        · exact .inl hold
      · exact wireOk_old hw
  · exact fun t ht => .inl ht
  · exact fun r hr => .inl hr

lemma Inv.replace (h : Inv owner ip s) (hsound : Sound owner ip a) {t : Job ι} {ts : List (Job ι)}
    (hstep : step ip s a = some (s.replace t ts)) (hts : ∀ u ∈ ts, JobOk owner ip s u) :
    Inv owner ip (s.replace t ts) := by
  have hl : Later s (s.replace t ts) := later_step h.wf hsound hstep
  exact h.next hsound hstep (fun _ _ _ => wireOk_old)
    (fun u hu => (mem_replace hu).imp_right fun hu => (hts u hu).later hl) fun _ => .inl

lemma Inv.add (h : Inv owner ip s) (hsound : Sound owner ip a) {t : Job ι}
    (hstep : step ip s a = some { s with jobs := s.jobs ++ [t] }) (ht : JobOk owner ip s t) :
    Inv owner ip { s with jobs := s.jobs ++ [t] } := by
  refine h.next hsound hstep (fun _ _ _ => wireOk_old) (fun u hu => ?_) fun _ => .inl
  refine (List.mem_append.mp hu).imp_right fun hu => ?_
  rw [List.mem_singleton.mp hu]
  exact ht.later (later_step h.wf hsound hstep)

lemma Inv.fetch (h : Inv owner ip s) {t : Job ι} {peerDef : WireDef}
    (hsound : Sound owner ip (.fetch t peerDef))
    (hstep : step ip s (.fetch t peerDef) = some s') : Inv owner ip s' := by
  have hstep' := hstep
  simp only [step] at hstep
  split at hstep
  · next hmem =>
    unfold WireMesh.fetch at hstep
    split at hstep
    · next n netNS peerIP links defs =>
      obtain rfl := Option.some.inj hstep
      refine h.replace hsound hstep' fun u hu => ?_
      obtain ⟨hne, hdefs⟩ := h.jobs _ hmem
      split at hu
      · next id hid =>
        rw [List.mem_singleton.mp hu]
        refine ⟨hne, List.rel_append hdefs (.cons ⟨rfl, rfl, hsound.1, hsound.2, ?_⟩ .nil)⟩
        exact h.known_of_lookup hid
      · simp at hu
    · cases hstep
  · cases hstep

lemma Inv.send (h : Inv owner ip s) {t : Job ι} {m : ι} {size : ℕ}
    (hstep : step ip s (.send t m size) = some s') : Inv owner ip s' := by
  have hstep' := hstep
  simp only [step] at hstep
  split at hstep
  · next hmem =>
    unfold WireMesh.send at hstep
    split at hstep
    · next n netNS peerIP links defs =>
      split at hstep
      · next hm =>
        obtain rfl := Option.some.inj hstep
        obtain ⟨hne, hdefs⟩ := h.jobs _ hmem
        refine h.replace (a := .send _ m size) trivial hstep' fun u hu => ?_
        rcases List.mem_cons.mp hu with rfl | hu
        · refine ⟨hm, ?_, [], links.take size, rfl, .nil, List.forall₂_take size hdefs⟩
          rintro rfl
          exact hne hm.symm
        · rw [List.mem_singleton.mp hu]
          exact ⟨hne, List.forall₂_drop size hdefs⟩
      · cases hstep
    · cases hstep
  · cases hstep

omit [DecidableEq ι] in
lemma mem_updateFound {m : ι} {wireDef : WireDef} {r : Option (ℕ × Bool)} {t : Job ι}
    (h : t ∈ updateFound m wireDef r) : ∃ id, r = some (id, false) ∧
      t = .update m id wireDef.wireIfIdOnPeerNode wireDef.peerNodeIp := by
  unfold updateFound at h
  split at h
  · next id => exact ⟨id, rfl, List.mem_singleton.mp h⟩
  · simp at h

/-- An item is answered with the id of an end of its link, and the end that is found or made learns
of an end of its link. -/
lemma Inv.serve (h : Inv owner ip s) {t : Job ι} {tapOk : Bool}
    (hstep : step ip s (.serve t tapOk) = some s') : Inv owner ip s' := by
  have hstep' := hstep
  simp only [step] at hstep
  split at hstep
  · next hmem =>
    unfold WireMesh.serve at hstep
    split at hstep
    · next n m netNS peerIP links items wireDef todo =>
      obtain ⟨hm, hne, answered, rest, hlinks, hitems, htodo⟩ := h.jobs _ hmem
      obtain ⟨uid, rest, hdef, hrest, rfl⟩ := List.forall₂_cons_right_iff.mp htodo
      have hl : Later s s' := later_of_wf h.wf hstep' (by simp)
      obtain rfl := Option.some.inj hstep
      -- the wire that the peer asked for, and the end of the peer
      have htopo : owner m wireDef.localPodNetNs = owner n netNS :=
        (hdef.there m hm).symm.trans hdef.topo
      have hfar : Far ip s m wireDef.peerNodeIp uid (owner n netNS) wireDef.wireIfIdOnPeerNode :=
        ⟨n, hdef.peer.symm, hne.symm, hdef.known⟩
      refine h.next (a := .serve _ tapOk) trivial hstep' ?_ (fun u hu => ?_) fun r hr => .inl hr
      · refine wireOk_set fun id w hw => ?_
        rcases of_objs_createOrFind (h.wf m) hw with rfl | hold
        · refine .inr ⟨hdef.there m hm, fun _ => ?_⟩
          change Far ip s m wireDef.peerNodeIp wireDef.linkUid wireDef.topoNs _
          rw [hdef.link, hdef.topo]
          exact hfar
        · exact .inl hold
      · refine (mem_replace hu).imp_right fun hu => ?_
        rcases List.mem_cons.mp hu with rfl | hu
        · refine ⟨hm, hne, answered ++ [uid], rest, by simp [hlinks], ?_,
            hrest.imp fun _ _ hd => hd.later hl⟩
          refine List.rel_append (hitems.imp fun _ _ hi => hi.later hl) (.cons ?_ .nil)
          intro id hid
          obtain ⟨⟨_, new⟩, hr, rfl⟩ := Option.map_eq_some_iff.mp hid
          rcases of_createOrFind hr with ⟨-, hlook, -⟩ | ⟨-, hobj⟩
          · rw [← htopo, ← hdef.link]
            exact (h.known_of_lookup hlook).later hl
          · exact ⟨_, by simpa [Mesh.set] using hobj, hdef.link, hdef.topo⟩
        · obtain ⟨id, hr, rfl⟩ := mem_updateFound hu
          rcases of_createOrFind hr with ⟨-, hlook, -⟩ | ⟨hnew, -⟩
          · refine ⟨uid, owner n netNS, ?_, hfar.later hl⟩
            rw [← htopo, ← hdef.link]
            exact (h.known_of_lookup hlook).later hl
          · cases hnew
    · cases hstep
  · cases hstep

lemma Inv.reply (h : Inv owner ip s) {t : Job ι} (hstep : step ip s (.reply t) = some s') :
    Inv owner ip s' := by
  have hstep' := hstep
  simp only [step] at hstep
  split at hstep
  · next hmem =>
    unfold WireMesh.reply at hstep
    split at hstep
    · next n m netNS peerIP links items =>
      obtain rfl := Option.some.inj hstep
      obtain ⟨hm, hne, answered, rest, rfl, hitems, hrest⟩ := h.jobs _ hmem
      obtain rfl := List.forall₂_nil_right_iff.mp hrest
      refine h.replace (a := .reply _) trivial hstep' fun u hu => ?_
      rw [List.mem_singleton.mp hu]
      exact ⟨m, hm, hne, by simpa using hitems⟩
    · cases hstep
  · cases hstep

lemma Inv.receive (h : Inv owner ip s) {t : Job ι} (hstep : step ip s (.receive t) = some s') :
    Inv owner ip s' := by
  have hstep' := hstep
  simp only [step] at hstep
  split at hstep
  · next hmem =>
    unfold WireMesh.receive at hstep
    split at hstep
    · next n netNS peerIP uid links item items =>
      obtain rfl := Option.some.inj hstep
      obtain ⟨m, hm, hne, hitems⟩ := h.jobs _ hmem
      obtain ⟨hitem, hitems⟩ := List.forall₂_cons.mp hitems
      refine h.replace (a := .receive _) trivial hstep' fun u hu => ?_
      rcases List.mem_cons.mp hu with rfl | hu
      · exact ⟨m, hm, hne, hitems⟩
      · cases item with
        | none => simp [updateAnswered] at hu
        | some peerIntfId =>
          cases hlook : (s.daemon n).getWireByUID ⟨netNS, uid⟩ with
          | none => simp [updateAnswered, hlook] at hu
          | some id =>
            rw [hlook] at hu
            rw [List.mem_singleton.mp hu]
            exact ⟨uid, owner n netNS, h.known_of_lookup hlook, m, hm, hne, hitem _ rfl⟩
    · cases hstep
  · cases hstep

lemma Inv.update (hip : ∀ n, ip n ≠ "") (h : Inv owner ip s) {t : Job ι}
    (hstep : step ip s (.update t) = some s') : Inv owner ip s' := by
  have hstep' := hstep
  simp only [step] at hstep
  split at hstep
  · next hmem =>
    unfold WireMesh.update at hstep
    split at hstep
    · next n id peerIntfId peerNodeIP =>
      obtain rfl := Option.some.inj hstep
      obtain ⟨uid, topo, ⟨v, hv, hu, ht⟩, hfar⟩ := h.jobs _ hmem
      have hne : peerNodeIP ≠ "" := by
        obtain ⟨m, rfl, -⟩ := hfar
        exact hip m
      refine h.next (a := .update _) trivial hstep' (wireOk_set fun j w hw => ?_)
        (fun u hu => (mem_replace hu).imp_right (by simp)) fun r hr => .inl hr
      rw [Daemon.updateWire, objs_modify] at hw
      split at hw
      · -- the wire that learns of its peer
        next hj =>
        subst hj
        rw [hv] at hw
        obtain rfl := Option.some.inj hw
        refine .inr ⟨h.own n j v hv, fun _ => ?_⟩
        change Far ip s n peerNodeIP v.uid v.topoNamespace peerIntfId
        rw [hu, ht]
        exact hfar
      · exact wireOk_old hw
    · cases hstep
  · cases hstep

lemma Inv.remove (h : Inv owner ip s) {t : Job ι} (hstep : step ip s (.remove t) = some s') :
    Inv owner ip s' := by
  have hstep' := hstep
  simp only [step] at hstep
  split at hstep
  · unfold WireMesh.remove at hstep
    split at hstep
    · obtain rfl := Option.some.inj hstep
      refine h.next (a := .remove _) trivial hstep'
        (wireOk_set fun j w hw => .inl (samePeer_of_stop hw))
        (fun u hu => (mem_replace hu).imp_right fun hu => ?_) fun r hr => .inl hr
      rw [List.mem_singleton.mp hu]
      trivial
    · obtain rfl := Option.some.inj hstep
      refine h.next (a := .remove _) trivial hstep' (wireOk_set fun j w hw => wireOk_old hw)
        (fun u hu => (mem_replace hu).imp_right fun hu => ?_) fun r hr => .inl hr
      split at hu
      · rw [List.mem_singleton.mp hu]
        trivial
      · simp at hu
    · obtain rfl := Option.some.inj hstep
      refine h.next (a := .remove _) trivial hstep' (wireOk_set fun j w hw => wireOk_old ?_)
        (fun u hu => (mem_replace hu).imp_right (by simp)) fun r hr => .inl hr
      unfold Daemon.atomicDelete at hw
      split at hw <;> exact hw
    · cases hstep
  · cases hstep

lemma Inv.deliver (hinj : Function.Injective ip) (h : Inv owner ip s) {t : Job ι} {m : ι}
    (hstep : step ip s (.deliver t m) = some s') : Inv owner ip s' := by
  have hstep' := hstep
  simp only [step] at hstep
  split at hstep
  · next hmem =>
    unfold WireMesh.deliver at hstep
    split at hstep
    · next n id peerIP remotIntfId frame =>
      split at hstep
      · next hm =>
        obtain rfl := Option.some.inj hstep
        obtain ⟨uid, topo, ⟨w, hw, hu, ht⟩, m', hm', hne, w', hw', hu', ht'⟩ := h.jobs _ hmem
        obtain rfl : m' = m := hinj (hm'.trans hm.symm)
        refine h.next (a := .deliver _ _) trivial hstep' (fun _ _ _ => wireOk_old)
          (fun u hu => (mem_replace hu).imp_right (by simp)) fun r hr => ?_
        refine (List.mem_append.mp hr).imp_right fun hr => ?_
        obtain ⟨tap, htap, rfl⟩ := List.mem_map.mp hr
        obtain ⟨v, hv, rfl⟩ := (h.wf m').taps remotIntfId tap (Option.mem_toList.mp htap)
        obtain rfl : w' = v := Option.some.inj (hw'.symm.trans hv)
        exact ⟨hne.symm, w, w', hw, hw', hu'.trans hu.symm, ht'.trans ht.symm, rfl⟩
      · cases hstep
    · cases hstep
  · cases hstep

lemma inv_step (hinj : Function.Injective ip) (hip : ∀ n, ip n ≠ "") (h : Inv owner ip s)
    (hsound : Sound owner ip a) (hstep : step ip s a = some s') : Inv owner ip s' := by
  have hstep' := hstep
  cases a with
  | createLocal n wireDef tapOk => exact h.createLocal hsound hstep
  | plan n netNS peerIP =>
    simp only [step] at hstep
    split at hstep
    · next hne =>
      obtain rfl := Option.some.inj hstep
      exact h.add (a := .plan n netNS peerIP) trivial hstep' ⟨hne, .nil⟩
    · cases hstep
  | fetch t peerDef => exact h.fetch hsound hstep
  | send t m size => exact h.send hstep
  | serve t tapOk => exact h.serve hstep
  | reply t => exact h.reply hstep
  | receive t => exact h.receive hstep
  | update t => exact h.update hip hstep
  | extract n k =>
    obtain ⟨id, -, rfl⟩ := Option.map_eq_some_iff.mp hstep
    refine h.next hsound hstep' (wireOk_set fun _ _ => wireOk_old) (fun u hu => ?_) fun r hr =>
      .inl hr
    refine (List.mem_append.mp hu).imp_right fun hu => ?_
    rw [List.mem_singleton.mp hu]
    trivial
  | down n k =>
    obtain ⟨id, -, rfl⟩ := Option.map_eq_some_iff.mp hstep
    exact h.add hsound hstep' trivial
  | remove t => exact h.remove hstep
  | forward n id frame =>
    obtain ⟨r, hr, rfl⟩ := Option.map_eq_some_iff.mp hstep
    obtain ⟨w, hw, hroute⟩ := Option.bind_eq_some_iff.mp hr
    unfold GRPCWire.route at hroute
    split at hroute
    · next hready =>
      obtain rfl := Option.some.inj hroute
      exact h.add hsound hstep' ⟨w.uid, w.topoNamespace, ⟨w, hw, rfl, rfl⟩,
        h.peers n id w hw (Nat.pos_iff_ne_zero.mp hready.2.1)⟩
    · cases hroute
  | deliver t m => exact h.deliver hinj hstep
  | lose t =>
    simp only [step] at hstep
    split at hstep
    · obtain rfl := Option.some.inj hstep
      exact h.replace hsound hstep' (by simp)
    · cases hstep
  | genNodeIfaceName n =>
    obtain rfl := Option.some.inj hstep
    exact h.next hsound hstep' (wireOk_set fun _ _ => wireOk_old) (fun u hu => .inl hu) fun r hr =>
      .inl hr
  | restart n => exact hsound.elim
  | recon n wireDef => exact hsound.elim

end Steps

/-! ### Whole runs -/

section Runs

variable {owner : ι → String → String} {as : List (Act ι)}

lemma inv_run (hinj : Function.Injective ip) (hip : ∀ n, ip n ≠ "")
    (hrun : run (step ip) {} as = some s) (hsound : ∀ a ∈ as, Sound owner ip a) :
    Inv owner ip s :=
  run_inv_along (fun _ _ _ h ha hs => inv_step hinj hip h ha hs) inv_init
    (along_of_mem hsound ({} : Mesh ι)) hrun

/-- **Frames stay on their link.** In every run without restarts in which a network namespace
belongs to one topology: a frame that comes from a wire is only written to a TAP device of a wire of
the same link of the same topology, on another node. -/
theorem frames_stay_on_link (hinj : Function.Injective ip) (hip : ∀ n, ip n ≠ "")
    (hrun : run (step ip) {} as = some s) (hsound : ∀ a ∈ as, Sound owner ip a) :
    ∀ r ∈ s.written, r.src ≠ r.dst ∧ ∃ w w', (s.daemon r.src).objs r.srcId = some w ∧
      (s.daemon r.dst).objs r.dstId = some w' ∧ w'.uid = w.uid ∧
      w'.topoNamespace = w.topoNamespace ∧ r.tap = ⟨w'.localPodNetNS, w'.localPodIfaceName⟩ :=
  (inv_run hinj hip hrun hsound).written

/-- **A wire that exists has another end.** When `GRPCWireExists` reports a wire, with the id that
frames are sent under, the daemon at the address they are sent to has made a wire with this id for
the same link. -/
theorem exists_has_peer (hinj : Function.Injective ip) (hip : ∀ n, ip n ≠ "")
    (hrun : run (step ip) {} as = some s) (hsound : ∀ a ∈ as, Sound owner ip a) {n : ι}
    {k : LinkKey} {peerId : ℕ} (hex : (s.daemon n).grpcWireExists k = some peerId) :
    ∃ id w m w', (s.daemon n).getWireByUID k = some id ∧ (s.daemon n).objs id = some w ∧
      ip m = w.peerNodeIP ∧ m ≠ n ∧ (s.daemon m).objs peerId = some w' ∧ w'.uid = k.linkUID ∧
      w'.topoNamespace = w.topoNamespace := by
  have h := inv_run hinj hip hrun hsound
  obtain ⟨id, hid, hex⟩ := Option.bind_eq_some_iff.mp hex
  obtain ⟨w, hw, hex⟩ := Option.bind_eq_some_iff.mp hex
  split at hex
  · next hready =>
    obtain rfl := Option.some.inj hex
    obtain ⟨m, hm, hne, w', hw', hu, ht⟩ := h.peers n id w hw (Nat.pos_iff_ne_zero.mp hready.2)
    obtain ⟨v, hv, hkey⟩ := (h.wf n).keyed k id hid
    obtain rfl : v = w := Option.some.inj (hv.symm.trans hw)
    refine ⟨id, v, m, w', hid, hw, hm, hne, hw', hu.trans ?_, ht⟩
    rw [← hkey]
    rfl
  · cases hex

end Runs

/-! ### Two nodes -/

def address (n : Bool) : String := if n then "B" else "A"

/-- The end of link `uid` at the pod `p` on node `A`, and the one at `q` on node `B`. -/
def endA (uid : ℤ) : WireDef :=
  { linkUid := uid, topoNs := "t", localPodName := "p", localPodNetNs := "x", intfNameInPod := "e1"
    peerNodeIp := "B" }

def endB (uid : ℤ) (intf : String) (idA : ℕ) : WireDef :=
  { linkUid := uid, topoNs := "t", localPodName := "q", localPodNetNs := "y", intfNameInPod := intf
    wireIfIdOnPeerNode := idA, peerNodeIp := "A" }

/-- `A` makes its end of link 1, asks `B` for the other one, and learns its id. -/
def handshake : List (Act Bool) :=
  [.createLocal false (endA 1) true, .plan false "x" "B", .fetch (.plan false "x" "B" [] [])
      (endB 1 "e2" 0), .send (.plan false "x" "B" [1] [endB 1 "e2" 1]) true 50,
    .serve (.batch false true "x" "B" [1] [] [endB 1 "e2" 1]) true,
    .reply (.batch false true "x" "B" [1] [some 1] []),
    .receive (.answer false "x" "B" [1] [some 1]),
    .update (.update false 1 1 "B")]

/-- A frame goes from `A` to `B`. -/
def frame : List (Act Bool) := [.forward false 1 [7], .deliver (.packet false 1 "B" 1 [7]) true]

lemma address_injective : Function.Injective address := by decide

lemma address_ne (n : Bool) : address n ≠ "" := by revert n; decide

lemma handshake_sound : ∀ a ∈ handshake ++ frame, Sound (fun _ _ => "t") address a := by
  simp [handshake, frame, Sound, endA, endB]

theorem frames_stay_on_link_handshake : ∃ s, run (step address) {} (handshake ++ frame) = some s ∧
    s.written.map (fun r => (r.src, r.dst, r.tap)) = [(false, true, ⟨"y", "e2"⟩)] ∧
    ∀ r ∈ s.written, r.src ≠ r.dst ∧ ∃ w w', (s.daemon r.src).objs r.srcId = some w ∧
      (s.daemon r.dst).objs r.dstId = some w' ∧ w'.uid = w.uid ∧
      w'.topoNamespace = w.topoNamespace ∧ r.tap = ⟨w'.localPodNetNS, w'.localPodIfaceName⟩ := by
  have hend : (run (step address) {} (handshake ++ frame)).any fun s =>
      s.written.map (fun r => (r.src, r.dst, r.tap)) = [(false, true, ⟨"y", "e2"⟩)] := by decide
  obtain ⟨s, hrun, hs⟩ := (Option.any_eq_true _ _).mp hend
  exact ⟨s, hrun, of_decide_eq_true hs, frames_stay_on_link address_injective address_ne hrun
    handshake_sound⟩

theorem exists_has_peer_handshake : ∃ s, run (step address) {} handshake = some s ∧
    (s.daemon false).grpcWireExists ⟨"x", 1⟩ = some 1 ∧
    ∃ id w m w', (s.daemon false).getWireByUID ⟨"x", 1⟩ = some id ∧
      (s.daemon false).objs id = some w ∧ address m = w.peerNodeIP ∧ m ≠ false ∧
      (s.daemon m).objs 1 = some w' ∧ w'.uid = 1 ∧ w'.topoNamespace = w.topoNamespace := by
  have hend : (run (step address) {} handshake).any fun s =>
      (s.daemon false).grpcWireExists ⟨"x", 1⟩ = some 1 := by decide
  obtain ⟨s, hrun, hs⟩ := (Option.any_eq_true _ _).mp hend
  have hex := of_decide_eq_true hs
  exact ⟨s, hrun, hex, exists_has_peer address_injective address_ne hrun
    (fun a ha => handshake_sound a (List.mem_append_left _ ha)) hex⟩

/-- `B` has an end of link 2 as well, restarts, and makes its wires again in another order. -/
def restarted : List (Act Bool) :=
  handshake ++ [.createLocal true (endB 2 "e3" 0) true, .restart true, .recon true (endB 2 "e3" 2),
    .recon true (endB 1 "e2" 1)]

theorem wire_maps_sound_restarted : ∃ s, run (step address) {} restarted = some s ∧
    ((s.daemon true).wires.lookup ⟨"y", 2⟩ = some 1 ∧
      (s.daemon true).wires.lookup ⟨"y", 1⟩ = some 2 ∧
      (s.daemon true).handles 1 = some ⟨"y", "e3"⟩) ∧
    (∀ k id, (s.daemon true).wires.lookup k = some id →
      ∃ w, (s.daemon true).objs id = some w ∧ w.localPodNetNS = k.ns ∧ w.uid = k.linkUID ∧
        w.localNodeIfaceID = id) ∧
    (∀ k k' id id' w w', (s.daemon true).wires.lookup k = some id →
      (s.daemon true).wires.lookup k' = some id' → (s.daemon true).objs id = some w →
      (s.daemon true).objs id' = some w' → w'.topoNamespace = w.topoNamespace →
      w'.localPodName = w.localPodName → w'.uid = w.uid → k = k' ∧ id = id') ∧
    ∀ id tap, (s.daemon true).handles id = some tap →
      ∃ w, (s.daemon true).objs id = some w ∧ w.localNodeIfaceID = id ∧
        tap = ⟨w.localPodNetNS, w.localPodIfaceName⟩ := by
  have hend : (run (step address) {} restarted).any fun s =>
      (s.daemon true).wires.lookup ⟨"y", 2⟩ = some 1 ∧
        (s.daemon true).wires.lookup ⟨"y", 1⟩ = some 2 ∧
        (s.daemon true).handles 1 = some ⟨"y", "e3"⟩ := by decide
  obtain ⟨s, hrun, hs⟩ := (Option.any_eq_true _ _).mp hend
  exact ⟨s, hrun, of_decide_eq_true hs, wire_maps_sound address hrun true⟩

/-- After a restart ids are given out again: a frame of link 1 goes to the TAP device of link 2. -/
theorem frame_crosses_after_restart : ∃ s, run (step address) {} (restarted ++ frame) = some s ∧
    ((s.daemon false).objs 1).map (·.uid) = some 1 ∧
    s.written.map (fun r => (r.src, r.srcId, r.dst, r.tap)) = [(false, 1, true, ⟨"y", "e3"⟩)] := by
  have hend : (run (step address) {} (restarted ++ frame)).any fun s =>
      ((s.daemon false).objs 1).map (·.uid) = some 1 ∧
        s.written.map (fun r => (r.src, r.srcId, r.dst, r.tap)) =
          [(false, 1, true, ⟨"y", "e3"⟩)] := by decide
  obtain ⟨s, hrun, hs⟩ := (Option.any_eq_true _ _).mp hend
  exact ⟨s, hrun, of_decide_eq_true hs⟩

end Kne.WireSafety
