import Kne.Renaming

/-!
The ports that a node of Lemming, cdnos, Arista or Keysight asks its operator to expose. Each of the
four packages goes through the service map of the node and writes a port map under the names of the
services. The key of a service is the port under which it is to be reached from outside. Lemming and
cdnos use it; Arista and Keysight use the field `outside` in its place.

`Manager.push` gives a name to the services that have none, before the nodes are created, but after
Keysight has built its resource.
-/

namespace Kne.OperatorPorts

open Kne.Renaming

/-- A `Service` of the topology. -/
structure Service where
  name : String := ""
  names : List String := []
  inside : ℕ := 0
  outside : ℕ := 0
  deriving DecidableEq, Repr

/-- The services of a node by their ports. The order of its keys stands for that in which Go ranges
over them. -/
abbrev ServiceMap := AList fun _ : ℕ => Service

/-- An entry of a port map. -/
structure ServicePort where
  inner : ℕ
  outer : ℕ
  deriving DecidableEq, Repr

abbrev Ports := AList fun _ : String => ServicePort

def maxUint16 : ℕ := 65535

/-- `updateServicePortName`. -/
def updateServicePortName (s : Service) (port : ℕ) : Service :=
  let names := s.names.filter (· ≠ "")
  { s with
    names := names
    name := if s.name ≠ "" then s.name else names.headD ("port-" ++ toString port) }

/-- The loop over the services. -/
def portMap (outer : ℕ → Service → ℕ) : Ports → List (ℕ × Service) → Except String Ports
  | ports, [] => .ok ports
  | ports, (k, v) :: services =>
    if v.inside > maxUint16 then
      .error ("inside port " ++ toString v.inside ++ " out of range (max: " ++
        toString maxUint16 ++ ")")
    else if outer k v > maxUint16 then
      .error ("outside port " ++ toString (outer k v) ++ " out of range (max: " ++
        toString maxUint16 ++ ")")
    else portMap outer (ports.insert v.name ⟨v.inside, outer k v⟩) services

/-- `Ports` of a `Lemming`. -/
def lemmingPorts (services : List (ℕ × Service)) : Except String Ports :=
  portMap (fun k _ => k) ∅ services

/-- `Ports` of a `Cdnos`. -/
def cdnosPorts (services : List (ℕ × Service)) : Except String Ports :=
  portMap (fun k _ => k) ∅ services

/-- `Services` of a `CEosLabDevice`. -/
def ceosServices (services : List (ℕ × Service)) : Except String Ports :=
  portMap (fun _ v => v.outside) ∅ services

/-- `ApiEndPoint` of an `IxiaTG`. -/
def ixiaApiEndPoint (services : List (ℕ × Service)) : Except String Ports :=
  portMap (fun _ v => v.outside) ∅ services

inductive Operator
  | lemming | cdnos | arista | keysight
  deriving DecidableEq, Repr

def services (m : ServiceMap) : List (ℕ × Service) := ranged m m.keys

/-- The services after the loop of `Manager.push`. -/
def updated (m : ServiceMap) : List (ℕ × Service) :=
  (services m).map fun kv => (kv.1, updateServicePortName kv.2 kv.1)

/-- The port map that is put into the custom resource. -/
def customPorts : Operator → ServiceMap → Except String Ports
  | .lemming, m => lemmingPorts (updated m)
  | .cdnos, m => cdnosPorts (updated m)
  | .arista, m => ceosServices (updated m)
  | .keysight, m => ixiaApiEndPoint (services m)

/-! ### The port map as a renaming -/

/-- The name of a service when the resource is built. -/
def nameOf : Operator → ℕ → Service → String
  | .keysight, _, v => v.name
  | _, k, v => (updateServicePortName v k).name

/-- The port a service is exposed on. -/
def outerOf : Operator → ℕ → Service → ℕ
  | .lemming, k, _ | .cdnos, k, _ => k
  | .arista, _, v | .keysight, _, v => v.outside

/-- The entries that are written, one after the other. -/
def written (op : Operator) (m : ServiceMap) : List (String × ServicePort) :=
  (services m).map fun kv => (nameOf op kv.1 kv.2, ⟨kv.2.inside, outerOf op kv.1 kv.2⟩)

lemma portMap_ok_iff {outer : ℕ → Service → ℕ} {ports out : Ports} {es : List (ℕ × Service)} :
    portMap outer ports es = .ok out ↔
      (∀ kv ∈ es, kv.2.inside ≤ maxUint16 ∧ outer kv.1 kv.2 ≤ maxUint16) ∧
        renameFrom keep () ports
          (es.map fun kv => (kv.2.name, ⟨kv.2.inside, outer kv.1 kv.2⟩)) = out := by
  induction es generalizing ports with
  | nil => simp [portMap, renameFrom]
  | cons kv es ih =>
    obtain ⟨k, v⟩ := kv
    rw [portMap]
    split_ifs with hin hout
    · simp only [List.forall_mem_cons, false_iff]
      omega
    · simp only [List.forall_mem_cons, false_iff]
      omega
    · rw [ih, List.forall_mem_cons, List.map_cons, renameFrom]
      simp [Nat.not_lt.mp hin, Nat.not_lt.mp hout, keep]

variable {op : Operator} {m : ServiceMap} {ports : Ports} {k : ℕ} {v : Service}

lemma mem_services : (k, v) ∈ services m ↔ m.lookup k = some v := mem_ranged (.refl _)

lemma map_fst_services (m : ServiceMap) : (services m).map Prod.fst = m.keys :=
  map_fst_ranged fun _ hk => AList.mem_keys.mpr hk

lemma nodup_services (m : ServiceMap) : (services m).Nodup := by
  refine List.Nodup.of_map Prod.fst ?_
  rw [map_fst_services]
  exact AList.keys_nodup m

lemma forall_services {P : ℕ → Service → Prop} :
    (∀ kv ∈ services m, P kv.1 kv.2) ↔ ∀ k v, m.lookup k = some v → P k v := by
  simp only [← mem_services, Prod.forall]

lemma portMap_updated_ok_iff {outer : ℕ → Service → ℕ}
    (houter : ∀ k v, outer k (updateServicePortName v k) = outer k v) :
    portMap outer ∅ (updated m) = .ok ports ↔
      (∀ k v, m.lookup k = some v → v.inside ≤ maxUint16 ∧ outer k v ≤ maxUint16) ∧
        rename keep () ((services m).map fun kv =>
          ((updateServicePortName kv.2 kv.1).name, ⟨kv.2.inside, outer kv.1 kv.2⟩)) = ports := by
  rw [portMap_ok_iff, updated, List.forall_mem_map, List.map_map, ← forall_services]
  simp only [houter, Function.comp_def]
  rfl

lemma customPorts_ok_iff : customPorts op m = .ok ports ↔
    (∀ k v, m.lookup k = some v → v.inside ≤ maxUint16 ∧ outerOf op k v ≤ maxUint16) ∧
      rename keep () (written op m) = ports := by
  cases op with
  | lemming | cdnos | arista => exact portMap_updated_ok_iff fun _ _ => rfl
  | keysight =>
    rw [← forall_services]
    exact portMap_ok_iff

/-! ### When every service is exposed -/

/-- The map has an entry for each service, which leads from its key to its inside port. -/
def Exposed (op : Operator) (m : ServiceMap) : Prop :=
  ∃ ports, customPorts op m = .ok ports ∧ ports.keys.length = m.keys.length ∧
    ∀ k v, m.lookup k = some v → ∃ name, ports.lookup name = some ⟨v.inside, k⟩

/-- No two services have one name when the resource is built. -/
def NamesApart (op : Operator) (m : ServiceMap) : Prop :=
  ∀ k v k' v', m.lookup k = some v → m.lookup k' = some v' →
    nameOf op k v = nameOf op k' v' → k = k'

/-- For each service there is one with its inside port and with its key as the port outside. -/
def Covered (op : Operator) (m : ServiceMap) : Prop :=
  ∀ k v, m.lookup k = some v →
    ∃ k' v', m.lookup k' = some v' ∧ v'.inside = v.inside ∧ outerOf op k' v' = k

lemma length_written : (written op m).length = m.keys.length := by
  rw [written, List.length_map, ← map_fst_services m, List.length_map]

lemma namesApart_iff : NamesApart op m ↔ ((written op m).map Prod.fst).Nodup := by
  have hnames : (written op m).map Prod.fst = (services m).map fun kv => nameOf op kv.1 kv.2 := by
    simp [written]
  rw [hnames, List.nodup_map_iff_inj_on (nodup_services m)]
  constructor
  · rintro h ⟨k, v⟩ hk ⟨k', v'⟩ hk' heq
    rw [mem_services] at hk hk'
    obtain rfl := h k v k' v' hk hk' heq
    rw [Option.some.inj (hk.symm.trans hk')]
  · intro h k v k' v' hk hk' heq
    exact congrArg Prod.fst (h (k, v) (mem_services.mpr hk) (k', v') (mem_services.mpr hk') heq)

lemma lookup_written (h : NamesApart op m) {name : String} {p : ServicePort} :
    (rename keep () (written op m)).lookup name = some p ↔
      ∃ k v, m.lookup k = some v ∧ nameOf op k v = name ∧ ⟨v.inside, outerOf op k v⟩ = p := by
  rw [lookup_rename_keep (namesApart_iff.mp h)]
  simp [written, mem_services]

/-- If the services cover the keys, no port outside is anything but a key: there are no more of the
one than of the other. -/
lemma outerOf_mem_keys (hcov : Covered op m) (hk : m.lookup k = some v) :
    outerOf op k v ∈ m.keys := by
  let outers := (services m).map fun kv => outerOf op kv.1 kv.2
  have hsub : m.keys.toFinset ⊆ outers.toFinset := by
    intro k' hk'
    rw [List.mem_toFinset] at hk'
    obtain ⟨v', hv'⟩ :=
      Option.isSome_iff_exists.mp (AList.lookup_isSome.mpr (AList.mem_keys.mpr hk'))
    obtain ⟨k'', v'', hk'', -, rfl⟩ := hcov k' v' hv'
    exact List.mem_toFinset.mpr (List.mem_map.mpr ⟨(k'', v''), mem_services.mpr hk'', rfl⟩)
  have hcard : outers.toFinset.card ≤ m.keys.toFinset.card := by
    calc outers.toFinset.card ≤ outers.length := List.toFinset_card_le _
      _ = m.keys.length := by rw [List.length_map, ← map_fst_services m, List.length_map]
      _ = m.keys.toFinset.card := (List.toFinset_card_of_nodup (AList.keys_nodup m)).symm
  have heq := Finset.eq_of_subset_of_card_le hsub hcard
  have hmem : outerOf op k v ∈ outers.toFinset :=
    List.mem_toFinset.mpr (List.mem_map.mpr ⟨(k, v), mem_services.mpr hk, rfl⟩)
  rwa [← heq, List.mem_toFinset] at hmem

/-- **When every service is exposed on its key.** For services whose keys and inside ports are port
numbers: exactly if no two of them have one name when the resource is built, and the ports outside
are the keys. For Lemming and cdnos the second always holds. -/
theorem services_exposed_iff (op : Operator) (m : ServiceMap)
    (hports : ∀ k v, m.lookup k = some v → k ≤ maxUint16 ∧ v.inside ≤ maxUint16) :
    Exposed op m ↔ NamesApart op m ∧ Covered op m := by
  have hcount : (rename keep () (written op m)).keys.length = (written op m).length ↔
      (names keep () ((written op m).map Prod.fst)).Nodup :=
    length_keys_rename_iff () (written op m)
  rw [length_written, names_keep, ← namesApart_iff] at hcount
  constructor
  · rintro ⟨ports, hok, hlen, hentry⟩
    obtain ⟨-, rfl⟩ := customPorts_ok_iff.mp hok
    have hapart : NamesApart op m := hcount.mp hlen
    refine ⟨hapart, fun k v hk => ?_⟩
    obtain ⟨name, hname⟩ := hentry k v hk
    obtain ⟨k', v', hk', -, heq⟩ := (lookup_written hapart).mp hname
    exact ⟨k', v', hk', congrArg ServicePort.inner heq, congrArg ServicePort.outer heq⟩
  · rintro ⟨hapart, hcov⟩
    have hrange : ∀ k v, m.lookup k = some v →
        v.inside ≤ maxUint16 ∧ outerOf op k v ≤ maxUint16 := by
      intro k v hk
      obtain ⟨v', hv'⟩ := Option.isSome_iff_exists.mp
        (AList.lookup_isSome.mpr (AList.mem_keys.mpr (outerOf_mem_keys hcov hk)))
      exact ⟨(hports k v hk).2, (hports _ v' hv').1⟩
    refine ⟨_, customPorts_ok_iff.mpr ⟨hrange, rfl⟩, hcount.mpr hapart, fun k v hk => ?_⟩
    obtain ⟨k', v', hk', hin, hout⟩ := hcov k v hk
    refine ⟨nameOf op k' v', (lookup_written hapart).mpr ⟨k', v', hk', rfl, ?_⟩⟩
    rw [hin, hout]

/-- A node with two services, one of them without a name. -/
def twoServices : ServiceMap :=
  ((∅ : ServiceMap).insert 22 { name := "ssh", inside := 22 }).insert 9339 { inside := 6030 }

theorem twoServices_exposed : Exposed .lemming twoServices ∧ Exposed .cdnos twoServices := by
  have hports : ∀ k v, twoServices.lookup k = some v → k ≤ maxUint16 ∧ v.inside ≤ maxUint16 :=
    forall_services.mp (by decide +kernel)
  refine ⟨(services_exposed_iff .lemming twoServices hports).mpr ⟨?_, ?_⟩,
    (services_exposed_iff .cdnos twoServices hports).mpr ⟨?_, ?_⟩⟩
  · exact namesApart_iff.mpr (by decide +kernel)
  · exact fun k v hk => ⟨k, v, hk, rfl, rfl⟩
  · exact namesApart_iff.mpr (by decide +kernel)
  · exact fun k v hk => ⟨k, v, hk, rfl, rfl⟩

/-- Two services of one name. -/
def sameName : ServiceMap :=
  ((∅ : ServiceMap).insert 9339 { name := "grpc", inside := 9339 }).insert 9340
    { name := "grpc", inside := 9340 }

/-- With one name a service is lost, and with Arista the port outside is not the key. -/
theorem services_hidden :
    ¬ Exposed .lemming sameName ∧
    (customPorts .arista twoServices).toOption.bind (·.lookup "ssh") = some ⟨22, 0⟩ ∧
    ¬ Exposed .arista twoServices := by
  refine ⟨?_, by decide +kernel, ?_⟩
  · rintro ⟨ports, hok, hlen, -⟩
    obtain ⟨-, rfl⟩ := customPorts_ok_iff.mp hok
    exact absurd hlen (by decide +kernel)
  · rintro ⟨ports, hok, -, hentry⟩
    obtain ⟨-, rfl⟩ := customPorts_ok_iff.mp hok
    have hssh : twoServices.lookup 22 = some { name := "ssh", inside := 22 } := by decide +kernel
    obtain ⟨name, hname⟩ := hentry 22 _ hssh
    obtain ⟨k, v, hk, -, heq⟩ :=
      (lookup_written (namesApart_iff.mpr (by decide +kernel))).mp hname
    have hout : v.outside = 22 := congrArg ServicePort.outer heq
    have hzero : ∀ k v, twoServices.lookup k = some v → v.outside = 0 :=
      forall_services.mp (by decide +kernel)
    rw [hzero k v hk] at hout
    cases hout

end Kne.OperatorPorts
