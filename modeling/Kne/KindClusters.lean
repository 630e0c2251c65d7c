import Kne.KindModel

/-!
Which cluster the commands of a `KindSpec` are about. `kind` takes the name `kind` where the flag
`--name` is left out, and calls the context of a cluster `kind-` and its name. For a spec without a
name the operations fill in three different ones: the flag is left out by `create`, `Delete` and
`loadContainerImages`, the check for a cluster to recycle looks at the context `kind-`, and
`Healthy` at `kind-kne`.
-/

namespace Kne.KindClusters

open Kne.Commands Kne.KindModel Kne.Texts

/-! ### The cluster of a command -/

def name? : Flag → Option String
  | .name s => some s
  | _ => none

/-- The cluster that a command is about, for those that are about one. -/
def cluster : Cmd → Option String
  | .kind _ flags => some ((flags.findSome? name?).getD "kind")
  | .clusterInfo context =>
    if hasPrefix context "kind-" then some (trimPrefix context "kind-") else none
  | _ => none

/-- What `kind` makes of the name of a spec. -/
def kindCluster (name : String) : String := if name ≠ "" then name else "kind"

/-- The command is about no cluster outside of `clusters`. -/
def About (clusters : Set String) (c : Cmd) : Prop := ∀ x, cluster c = some x → x ∈ clusters

lemma cluster_clusterInfo (name : String) :
    cluster (.clusterInfo ("kind-" ++ name)) = some name := by
  rw [cluster, if_pos (hasPrefix_append _ _), trimPrefix_append]

lemma cluster_kind (words : List String) (name : String) {flags : List Flag}
    (h : flags.findSome? name? = none) :
    cluster (.kind words (nameFlag name ++ flags)) = some (kindCluster name) := by
  rw [cluster, List.findSome?_append, h, Option.or_none, nameFlag, kindCluster]
  split_ifs <;> rfl

lemma cluster_kind_nameFlag (words : List String) (name : String) :
    cluster (.kind words (nameFlag name)) = some (kindCluster name) := by
  rw [← List.append_nil (nameFlag name)]
  exact cluster_kind words name rfl

lemma cluster_create (k : KindSpec) :
    cluster (.kind ["create", "cluster"] k.createFlags) = some (kindCluster k.name) := by
  unfold KindSpec.createFlags
  simp only [List.append_assoc]
  refine cluster_kind _ _ ?_
  -- none of the optional flags is a name
  simp only [List.findSome?_append, Option.or_eq_none_iff]
  refine ⟨rfl, ?_, ?_, ?_, ?_⟩ <;> split_ifs <;> rfl

variable {clusters : Set String}

lemma about_of_cluster {c : Cmd} {x : String} (hc : cluster c = some x) (hx : x ∈ clusters) :
    About clusters c := by
  intro y hy
  rw [hc] at hy
  cases hy
  exact hx

lemma about_of_none {c : Cmd} (hc : cluster c = none) : About clusters c := by
  intro y hy
  rw [hc] at hy
  cases hy

/-! ### The clusters of the operations -/

section Only

variable {P : Cmd → Prop} (h : Host) (k : KindSpec)

lemma only_runOr {wrap : String → String} {c : Cmd} (hc : P c) : Only P (h.runOr wrap c) := by
  refine (only_exec hc).bind fun r => ?_
  cases r.err with
  | none => exact only_pure _
  | some err => exact only_throw _

lemma only_createCluster (hx : kindCluster k.name ∈ clusters) :
    Only (About clusters) (k.createCluster h) := by
  refine (only_exec (about_of_cluster (cluster_create k) hx)).bind fun r => ?_
  split
  · exact only_pure _
  · exact only_throw _

lemma only_create (hx : kindCluster k.name ∈ clusters) (hname : k.name ∈ clusters) :
    Only (About clusters) (k.create h) := by
  unfold KindSpec.create
  split
  · exact only_throw _
  · split
    · refine (only_exec (about_of_cluster (cluster_clusterInfo k.name) hname)).bind fun r => ?_
      split
      · exact only_pure _
      · exact only_createCluster h k hx
    · exact only_createCluster h k hx

lemma only_pull (src : String) (retries : ℕ) : Only (About clusters) (pull h src retries) := by
  induction retries with
  | zero => exact only_runOr h (about_of_none rfl)
  | succ retries ih =>
    refine (only_exec (about_of_none rfl)).bind fun r => ?_
    split
    · exact only_pure _
    · split
      · exact only_throw _
      · exact ih

variable {name : String} (hx : kindCluster name ∈ clusters) (src dst : String)

include hx

lemma only_retag : Only (About clusters) (retagInKindNodes h src dst name) := by
  refine (only_exec (about_of_cluster (cluster_kind_nameFlag _ name) hx)).bind fun r => ?_
  split
  · exact only_throw _
  · split
    · exact only_throw _
    · exact only_forM fun n _ => only_runOr h (about_of_none rfl)

lemma only_loadArchive (tmpDir : String) :
    Only (About clusters) (loadArchive h src dst name tmpDir) := by
  refine (only_exec (about_of_none rfl)).bind fun exported => ?_
  split
  · exact only_pure _
  · refine (only_exec (about_of_cluster (cluster_kind_nameFlag _ name) hx)).bind fun loaded => ?_
    split
    · exact only_pure _
    · split
      · refine (only_retag h hx src dst).attempt.bind fun tagged => ?_
        split <;> exact only_pure _
      · exact only_pure _

lemma only_tryLoad : Only (About clusters) (tryLoadFromContainerd h src dst name) := by
  unfold tryLoadFromContainerd
  split
  · exact only_pure _
  · split
    · split
      · exact only_pure _
      · refine (only_exec (about_of_none rfl)).bind fun found => ?_
        split
        · exact only_pure _
        · split
          · exact only_pure _
          · exact only_loadArchive h hx src _ _
    · exact only_pure _

lemma only_loadFromDocker : Only (About clusters) (loadFromDocker h src dst name) := by
  have hload : Only (About clusters) (h.runOr (("failed to load " ++ dst.quote ++ ": ") ++ ·)
      (.kind ["load", "docker-image", dst] (nameFlag name))) :=
    only_runOr h (about_of_cluster (cluster_kind_nameFlag _ name) hx)
  refine (only_pull h src 3).bind fun _ => ?_
  split
  · exact (only_runOr h (about_of_none rfl)).bind fun _ => hload
  · exact hload

lemma only_load : Only (About clusters) (loadContainerImageWithFallback h src dst name) := by
  refine (only_tryLoad h hx src dst).bind fun loaded => ?_
  split
  · exact only_pure _
  · exact only_loadFromDocker h hx src dst

end Only

lemma only_loadContainerImage (k : KindSpec) (h : Host) (hx : kindCluster k.name ∈ clusters)
    (image : String × String) : Only (About clusters) (loadContainerImage k h image) := by
  obtain ⟨s, d⟩ := image
  rw [loadContainerImage]
  split
  · exact only_throw _
  · exact only_load h hx s _

/-- The operations that run commands for a cluster; the check for one to recycle is a part of
`create`. -/
inductive Operation
  | create | healthy | delete | loadContainerImages
  deriving DecidableEq, Repr

def Operation.program (k : KindSpec) (h : Host) : Operation → Program Unit
  | create => k.create h
  | healthy => k.healthy h
  | delete => k.delete h
  | loadContainerImages => k.loadContainerImages h

/-- On some host, the operation runs a command that is about the cluster. -/
def Addresses (k : KindSpec) (o : Operation) (x : String) : Prop :=
  ∃ h log c, Ran (o.program k h) log c ∧ cluster c = some x

lemma eq_name_of_addresses {k : KindSpec} (hname : k.name ≠ "") {o : Operation} {x : String}
    (hx : Addresses k o x) : x = k.name := by
  obtain ⟨h, log, c, hc, hcluster⟩ := hx
  have hkind : kindCluster k.name ∈ ({k.name} : Set String) := if_pos hname
  have hget : k.getName = k.name := if_pos hname
  have honly : Only (About {k.name}) (o.program k h) := by
    cases o with
    | create => exact only_create h k hkind rfl
    | healthy =>
      exact only_runOr h (about_of_cluster (cluster_clusterInfo k.getName) hget)
    | delete => exact only_runOr h (about_of_cluster (cluster_kind_nameFlag _ k.name) hkind)
    | loadContainerImages =>
      exact only_forM fun image _ => only_loadContainerImage k h hkind image
  exact honly.of_ran hc x hcluster

/-- A host on which every command succeeds, and one on which every command fails. -/
def ready : Host := { reply := fun _ _ => {} }

def down : Host := { reply := fun _ _ => { err := some "exit status 1" } }

lemma ran_runOr (h : Host) (wrap : String → String) (c : Cmd) (log : List Cmd) :
    Ran (h.runOr wrap c) log c := by
  refine (ran_exec h.reply c log).bind (P := fun _ => True) fun r => ?_
  cases r.err with
  | none => exact only_pure _
  | some err => exact only_throw _

lemma addresses_delete (k : KindSpec) : Addresses k .delete (kindCluster k.name) :=
  ⟨ready, [], _, ran_runOr ready _ _ [], cluster_kind_nameFlag _ k.name⟩

lemma addresses_healthy (k : KindSpec) : Addresses k .healthy k.getName :=
  ⟨ready, [], _, ran_runOr ready _ _ [], cluster_clusterInfo k.getName⟩

lemma ran_createCluster (k : KindSpec) (h : Host) (log : List Cmd) :
    Ran (k.createCluster h) log (.kind ["create", "cluster"] k.createFlags) := by
  refine (ran_exec h.reply _ log).bind (P := fun _ => True) fun r => ?_
  split
  · exact only_pure _
  · exact only_throw _

lemma addresses_create (k : KindSpec) : Addresses k .create (kindCluster k.name) := by
  refine ⟨down, [], _, ?_, cluster_create k⟩
  change Ran (if k.recycle then _ else k.createCluster down) [] _
  split
  · have hfirst : down.run (.clusterInfo ("kind-" ++ k.name)) [] =
        .ok { err := some "exit status 1" } ([] ++ [.clusterInfo ("kind-" ++ k.name)]) := rfl
    exact Ran.bind_of_ok hfirst (ran_createCluster k down _)
  · exact ran_createCluster k down []

lemma addresses_recycle {k : KindSpec} (hrecycle : k.recycle = true) :
    Addresses k .create k.name := by
  refine ⟨ready, [], _, ?_, cluster_clusterInfo k.name⟩
  change Ran (if k.recycle then _ else k.createCluster ready) [] _
  rw [if_pos hrecycle]
  refine (ran_exec ready.reply _ []).bind (P := About Set.univ) fun r => ?_
  split
  · exact only_pure _
  · exact only_createCluster ready k (Set.mem_univ _)

lemma ran_load (s d name : String) : Ran (loadContainerImageWithFallback ready s d name) []
    (.kind ["load", "docker-image", d] (nameFlag name)) := by
  have hpull : (pull ready s 3) [] = .ok () ([] ++ [.docker ["pull", s]]) := rfl
  change Ran (loadFromDocker ready s d name) [] _
  refine Ran.bind_of_ok hpull ?_
  split
  · have htag : ready.runOr (("failed to tag " ++ s.quote ++ " with " ++ d.quote ++ ": ") ++ ·)
        (.docker ["tag", s, d]) ([] ++ [.docker ["pull", s]]) =
        .ok () ([] ++ [.docker ["pull", s]] ++ [.docker ["tag", s, d]]) := rfl
    exact Ran.bind_of_ok htag (ran_runOr ready _ _ _)
  · exact ran_runOr ready _ _ _

lemma addresses_load {k : KindSpec} {s d : String} {images : List (String × String)}
    (himages : k.containerImages = (s, d) :: images) (hs : s ≠ "") :
    Addresses k .loadContainerImages (kindCluster k.name) := by
  refine ⟨ready, [], .kind ["load", "docker-image", if d = "" then s else d] (nameFlag k.name), ?_,
    cluster_kind_nameFlag _ k.name⟩
  have hfirst : Ran (loadContainerImage k ready (s, d)) []
      (.kind ["load", "docker-image", if d = "" then s else d] (nameFlag k.name)) := by
    rw [loadContainerImage, if_neg hs]
    exact ran_load s _ k.name
  change Ran (k.containerImages.forM (loadContainerImage k ready)) [] _
  rw [himages]
  exact hfirst.bind (P := About Set.univ) fun _ =>
    only_forM fun image _ => only_loadContainerImage k ready (Set.mem_univ _) image

/-- **All commands of a spec are about one cluster** just when the spec has a name. -/
theorem one_cluster_iff (k : KindSpec) :
    (∃ x, ∀ o y, Addresses k o y → y = x) ↔ k.name ≠ "" := by
  constructor
  · rintro ⟨x, hx⟩ hname
    have hdelete : kindCluster k.name = x := hx .delete _ (addresses_delete k)
    have hhealthy : k.getName = x := hx .healthy _ (addresses_healthy k)
    rw [kindCluster, hname] at hdelete
    rw [KindSpec.getName, hname, ← hdelete] at hhealthy
    exact absurd hhealthy (by decide)
  · intro hname
    exact ⟨k.name, fun o y hy => eq_name_of_addresses hname hy⟩

/-- A spec without a name that asks for all of it. -/
def unnamed : KindSpec := { recycle := true, containerImages := [("alpine", "")] }

/-- The cluster `kind` is created, filled and deleted, and two others are asked about. -/
theorem unnamed_clusters :
    unnamed.name = "" ∧ Addresses unnamed .create "kind" ∧ Addresses unnamed .create "" ∧
      Addresses unnamed .healthy "kne" ∧ Addresses unnamed .delete "kind" ∧
      Addresses unnamed .loadContainerImages "kind" :=
  ⟨rfl, addresses_create unnamed, addresses_recycle rfl, addresses_healthy unnamed,
    addresses_delete unnamed, addresses_load rfl (by decide)⟩

end Kne.KindClusters
