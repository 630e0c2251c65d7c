import Kne.WirePlan

/-!
The addresses that `peerEndpoint` (`topo/node/forward/forward.go`) makes for the peers of a wire. An
address that `SplitHostPort` refuses gets the default port; one that it accepts stays as it is, also
if its port is empty. Brackets inside of a name or an address stay too, and then the result has no
host and port at all.
-/

namespace Kne.PeerAddresses

open Kne.HostPorts Kne.WirePlan

/-- The port of the bridge daemon as a text. -/
def defaultPort : String := toString wirePort

lemma defaultPort_bare : Bare defaultPort.toList := by decide

lemma defaultPort_no_colon : ':' ∉ defaultPort.toList := by decide

/-- The host of an address, without brackets. -/
def hostName (addr : String) : String :=
  match splitHostPort addr with
  | .ok (host, _) => host
  | .error _ => trimBrackets addr

/-- The address has a host and a port that is not empty. -/
def Dialable (addr : String) : Prop :=
  ∃ host port, splitHostPort addr = .ok (host, port) ∧ port ≠ ""

/-- The address that is made for an endpoint is dialable; for a remote one it is the given address
if that is dialable, and else the host of it with the default port. -/
def Normalised (e : Endpoint) (addr : String) : Prop :=
  Dialable addr ∧
    match e with
    | .remoteNode given _ =>
      (Dialable given → addr = given) ∧
        (¬ Dialable given → splitHostPort addr = .ok (hostName given, defaultPort))
    | _ => True

/-- No bracket is out of place, and no port is empty. -/
def Orderly : Endpoint → Prop
  | .localNode name _ => Bare name.toList ∨
      ∃ host : List Char, Bare host ∧ ':' ∉ host ∧ name.toList = '[' :: host ++ [']']
  | .remoteNode addr _ =>
    match splitHostPort addr with
    | .ok (_, port) => port ≠ ""
    | .error _ => Bare (trimBrackets addr).toList
  | _ => True

/-! ### The default port -/

lemma dialable_join_iff (name : String) : Dialable (joinHostPort name defaultPort) ↔
    Bare name.toList ∨
      ∃ host : List Char, Bare host ∧ ':' ∉ host ∧ name.toList = '[' :: host ++ [']'] := by
  constructor
  · rintro ⟨host, port, hsplit, -⟩
    rw [splitHostPort_joinHostPort_iff defaultPort_bare defaultPort_no_colon] at hsplit
    obtain ⟨-, hbare, rfl | ⟨hcolon, hname⟩⟩ := hsplit
    · exact .inl hbare
    · exact .inr ⟨host.toList, hbare, hcolon, hname⟩
  · intro h
    obtain ⟨host, hhost⟩ : ∃ host, splitHostPort (joinHostPort name defaultPort) =
        .ok (host, defaultPort) := by
      simp only [splitHostPort_joinHostPort_iff defaultPort_bare defaultPort_no_colon, true_and]
      rcases h with hbare | ⟨cs, hbare, hcolon, hname⟩
      · exact ⟨name, hbare, .inl rfl⟩
      · refine ⟨String.ofList cs, ?_⟩
        rw [String.toList_ofList]
        exact ⟨hbare, .inr ⟨hcolon, hname⟩⟩
    exact ⟨host, defaultPort, hhost, by decide⟩

lemma trimBrackets_ne (s : String) (cs : List Char) : (trimBrackets s).toList ≠ cs ++ [']'] := by
  let bracket := fun c : Char => c = '[' || c = ']'
  intro h
  have hreverse : (s.toList.dropWhile bracket).reverse.dropWhile bracket = ']' :: cs.reverse := by
    rw [trimBrackets, String.toList_ofList, List.reverse_eq_iff] at h
    rw [h, List.reverse_append, List.reverse_singleton, List.singleton_append]
  have hne : (s.toList.dropWhile bracket).reverse.dropWhile bracket ≠ [] := by
    rw [hreverse]
    exact List.cons_ne_nil _ _
  have hhead := List.head_dropWhile_not bracket hne
  simp only [hreverse, List.head_cons] at hhead
  exact absurd hhead (by decide)

lemma split_join_trimmed_iff (addr : String) {host port : String} :
    splitHostPort (joinHostPort (trimBrackets addr) defaultPort) = .ok (host, port) ↔
      port = defaultPort ∧ Bare host.toList ∧ host = trimBrackets addr := by
  rw [splitHostPort_joinHostPort_iff defaultPort_bare defaultPort_no_colon]
  have hnot : (trimBrackets addr).toList ≠ '[' :: host.toList ++ [']'] := trimBrackets_ne addr _
  simp only [hnot, and_false, or_false]

/-! ### Endpoints -/

lemma normalised_localNode_iff (name interface : String) :
    Normalised (.localNode name interface) (joinHostPort name defaultPort) ↔
      Orderly (.localNode name interface) := by
  unfold Normalised
  simp only [and_true]
  exact dialable_join_iff name

lemma normalised_kept_iff {addr host port : String} (interface : String)
    (h : splitHostPort addr = .ok (host, port)) :
    Normalised (.remoteNode addr interface) addr ↔ port ≠ "" := by
  have hdialable : Dialable addr ↔ port ≠ "" := by
    refine ⟨?_, fun hport => ⟨host, port, h, hport⟩⟩
    rintro ⟨host', port', h', hport⟩
    rw [h] at h'
    cases h'
    exact hport
  rw [← hdialable]
  refine ⟨fun hn => hn.1, fun hd => ⟨hd, fun _ => rfl, fun hnot => absurd hd hnot⟩⟩

lemma normalised_joined_iff {addr why : String} (interface : String)
    (h : splitHostPort addr = .error why) :
    Normalised (.remoteNode addr interface) (joinHostPort (trimBrackets addr) defaultPort) ↔
      Bare (trimBrackets addr).toList := by
  have hnot : ¬ Dialable addr := by
    rintro ⟨host, port, hok, -⟩
    rw [h] at hok
    cases hok
  have hname : hostName addr = trimBrackets addr := by rw [hostName, h]
  constructor
  · rintro ⟨⟨host, port, hsplit, -⟩, -⟩
    obtain ⟨-, hbare, rfl⟩ := (split_join_trimmed_iff addr).mp hsplit
    exact hbare
  · intro hbare
    have hsplit := (split_join_trimmed_iff addr).mpr ⟨rfl, hbare, rfl⟩
    refine ⟨⟨_, _, hsplit, by decide⟩, fun hd => absurd hd hnot, fun _ => ?_⟩
    rw [hname]
    exact hsplit

/-- **Peer addresses are normalised** just for orderly endpoints: those whose port is not empty
where one is given, and that have brackets only around a host. -/
theorem peer_normalised_iff (e : Endpoint) (addr interface : String)
    (h : peerEndpoint e = .ok (addr, interface)) : Normalised e addr ↔ Orderly e := by
  cases e with
  | unset => cases h
  | interface name => cases h
  | localNode name intf =>
    rw [peerEndpoint] at h
    split_ifs at h
    obtain ⟨rfl, rfl⟩ := Prod.mk.inj (Except.ok.inj h)
    exact normalised_localNode_iff name intf
  | remoteNode given intf =>
    rw [peerEndpoint] at h
    split_ifs at h
    cases hsplit : splitHostPort given with
    | ok found =>
      obtain ⟨host, port⟩ := found
      simp only [hsplit] at h
      obtain ⟨rfl, rfl⟩ := Prod.mk.inj (Except.ok.inj h)
      rw [normalised_kept_iff intf hsplit, Orderly, hsplit]
    | error why =>
      simp only [hsplit] at h
      obtain ⟨rfl, rfl⟩ := Prod.mk.inj (Except.ok.inj h)
      rw [Orderly, hsplit]
      exact normalised_joined_iff intf hsplit

theorem bracketed_normalised :
    peerEndpoint (.remoteNode "[fe80::1]" "eth1") = .ok ("[fe80::1]:50058", "eth1") ∧
    (Normalised (.remoteNode "[fe80::1]" "eth1") "[fe80::1]:50058" ↔
      Orderly (.remoteNode "[fe80::1]" "eth1")) := by
  have hpeer : peerEndpoint (.remoteNode "[fe80::1]" "eth1") = .ok ("[fe80::1]:50058", "eth1") := by
    decide
  exact ⟨hpeer, peer_normalised_iff _ _ _ hpeer⟩

/-- A colon without a port after it is taken for a port. -/
theorem empty_port_kept :
    peerEndpoint (.remoteNode "peer:" "eth1") = .ok ("peer:", "eth1") ∧
    splitHostPort "peer:" = .ok ("peer", "") ∧
    ¬ Normalised (.remoteNode "peer:" "eth1") "peer:" := by
  have hsplit : splitHostPort "peer:" = .ok ("peer", "") := by decide
  refine ⟨by decide, hsplit, fun hn => ?_⟩
  exact (normalised_kept_iff "eth1" hsplit).mp hn rfl

end Kne.PeerAddresses
