import Kne.Octets

/-!
The addresses of the services (`inc`, `makePool` and the choice of the network in
`MetalLBSpec.Deploy`, `deploy/deploy.go`). The pool begins fifty addresses after that of the docker
network and goes on for the configured number of addresses. Whether the network has so many is not
looked at.
-/

namespace Kne.MetalPool

open Kne.Octets

/-! ### Networks -/

/-- A valid subnet of docker, of IPv4 or IPv6: its bytes, and how many bits are fixed. -/
structure Subnet where
  addr : List UInt8
  bits : ℕ
  length_addr : addr.length = 4 ∨ addr.length = 16
  bits_le : bits ≤ 8 * addr.length

/-- `net.IPNet`. The address is that of the network. -/
structure IPNet where
  ip : List UInt8
  ones : ℕ
  length_ip : ip.length = 4 ∨ ip.length = 16
  ones_le : ones ≤ 8 * ip.length
  masked_ip : masked ones ip = ip

/-- The network that `net.ParseCIDR` finds for a subnet. -/
def parseCIDR (s : Subnet) : IPNet where
  ip := masked s.bits s.addr
  ones := s.bits
  length_ip := by simpa using s.length_addr
  ones_le := by simpa using s.bits_le
  masked_ip := masked_masked s.bits_le

/-- `IP.To4`. -/
def to4 (ip : List UInt8) : Option (List UInt8) :=
  if ip.length = 4 then some ip
  else if ip.length = 16 ∧ ip.take 12 = List.replicate 10 0 ++ [0xff, 0xff] then some (ip.drop 12)
  else none

/-- A network of docker and its ranges, some of which may have no valid subnet. -/
structure Network where
  name : String := ""
  ranges : List (Option Subnet) := []

/-! ### The pool -/

/-- `inc`. Without a positive count nothing is done. -/
def inc (ip : List UInt8) (cnt : ℤ) : List UInt8 := bump^[cnt.toNat] ip

/-- A range of addresses, which is written as `start - end`. -/
structure AddressRange where
  start : List UInt8
  stop : List UInt8
  deriving DecidableEq, Repr

structure IPAddressPool where
  poolNamespace : String
  name : String
  addresses : List AddressRange
  deriving DecidableEq, Repr

def makePool (n : IPNet) (count : ℤ) : IPAddressPool :=
  let start := inc n.ip 50
  let stop := inc start count
  ⟨"metallb-system", "kne-service-pool", [⟨start, stop⟩]⟩

structure MetalLBSpec where
  ipCount : ℤ
  dockerNetworkResourceName : String := ""

/-- The first network of IPv4 in the docker network of the name. -/
def findNet (m : MetalLBSpec) (nr : List Network) : Option IPNet :=
  let name := if m.dockerNetworkResourceName = "" then "bridge" else m.dockerNetworkResourceName
  let netSummary := (nr.find? fun v => v.name = name).getD {}
  netSummary.ranges.findSome? fun ipRange =>
    (ipRange.map parseCIDR).filter fun ipNet => (to4 ipNet.ip).isSome

/-- The pool that `Deploy` creates if there is none, for the networks of docker. -/
def deployPool (m : MetalLBSpec) (nr : List Network) : Except String IPAddressPool :=
  match findNet m nr with
  | none => .error "failed to find kind ipv4 docker net"
  | some n => .ok (makePool n m.ipCount)

/-! ### Addresses -/

variable {n : IPNet} {ip : List UInt8}

@[simp] lemma length_inc (ip : List UInt8) (cnt : ℤ) : (inc ip cnt).length = ip.length :=
  length_iterate_bump _ _

lemma value_inc (ip : List UInt8) (c : ℕ) :
    value (inc ip c) = (value ip + c) % 256 ^ ip.length := by
  rw [inc, Int.toNat_natCast, value_iterate_bump]

namespace IPNet

/-- How many addresses a network has. -/
def size (n : IPNet) : ℕ := 2 ^ (8 * n.ip.length - n.ones)

/-- The last address, as a number. -/
def broadcast (n : IPNet) : ℕ := value n.ip + n.size - 1

/-- `Contains`, for an address of as many bytes as those of the network. -/
def Contains (n : IPNet) (ip : List UInt8) : Prop := masked n.ones ip = n.ip

instance (n : IPNet) (ip : List UInt8) : Decidable (n.Contains ip) :=
  inferInstanceAs (Decidable (_ = _))

lemma size_pos (n : IPNet) : 0 < n.size := Nat.two_pow_pos _

lemma value_ip (n : IPNet) : value n.ip / n.size * n.size = value n.ip := by
  rw [size, ← value_masked n.ones_le, n.masked_ip]

lemma value_ip_add_size_le (n : IPNet) : value n.ip + n.size ≤ 256 ^ n.ip.length := by
  have hall : (256 : ℕ) ^ n.ip.length = 2 ^ n.ones * n.size := by
    have hbytes : (256 : ℕ) ^ n.ip.length = 2 ^ (8 * n.ip.length) := by rw [pow_mul]; norm_num
    have hle := n.ones_le
    rw [hbytes, size, ← pow_add]
    congr 1
    omega
  have hlt := value_lt n.ip
  rw [hall, ← n.value_ip] at hlt ⊢
  have hquot := Nat.lt_of_mul_lt_mul_right hlt
  calc
    value n.ip / n.size * n.size + n.size = (value n.ip / n.size + 1) * n.size := by ring
    _ ≤ 2 ^ n.ones * n.size := Nat.mul_le_mul_right _ hquot

/-- **The addresses of a network** are those from its own on. -/
lemma contains_iff (hlen : ip.length = n.ip.length) :
    n.Contains ip ↔ value n.ip ≤ value ip ∧ value ip < value n.ip + n.size := by
  have hround : value (masked n.ones ip) = value ip / n.size * n.size := by
    rw [value_masked (hlen ▸ n.ones_le), hlen, size]
  have hsame : n.Contains ip ↔ value ip / n.size * n.size = value n.ip := by
    rw [← hround]
    exact ⟨fun h => congrArg value h, eq_of_value_eq (by simpa using hlen)⟩
  rw [hsame]
  constructor
  · intro h
    rw [← h]
    exact ⟨Nat.div_mul_le_self _ _, Nat.lt_div_mul_add n.size_pos⟩
  · rintro ⟨hle, hlt⟩
    rw [← n.value_ip] at hle hlt ⊢
    have hquot : value ip / n.size = value n.ip / n.size :=
      Nat.div_eq_of_lt_le hle (by rwa [Nat.succ_mul])
    rw [hquot]

end IPNet

/-! ### The pool in the network -/

/-- The range is one and lies in the network, before its last address. -/
structure Fits (n : IPNet) (r : AddressRange) : Prop where
  ordered : value r.start ≤ value r.stop
  start_mem : n.Contains r.start
  stop_mem : n.Contains r.stop
  start_lt : value r.start < n.broadcast
  stop_lt : value r.stop < n.broadcast

lemma fits_of_lt {start stop : List UInt8} (hordered : value start ≤ value stop)
    (hstart : n.Contains start) (hstop : n.Contains stop) (hlt : value stop < n.broadcast) :
    Fits n ⟨start, stop⟩ :=
  ⟨hordered, hstart, hstop, hordered.trans_lt hlt, hlt⟩

lemma add_mod_cases {a b m : ℕ} (ha : a < m) (hb : b < m) :
    (a + b < m ∧ (a + b) % m = a + b) ∨ (m ≤ a + b ∧ (a + b) % m = a + b - m) := by
  rcases Nat.lt_or_ge (a + b) m with hlt | hge
  · exact .inl ⟨hlt, Nat.mod_eq_of_lt hlt⟩
  · exact .inr ⟨hge, by rw [Nat.mod_eq_sub_mod hge, Nat.mod_eq_of_lt (by omega)]⟩

/-- **When a pool fits.** If an address before the pool's end is beyond the network, or the numbers
start again from zero, it shows in one of the five. -/
lemma fits_iff (n : IPNet) (c : ℕ) : Fits n ⟨inc n.ip 50, inc (inc n.ip 50) c⟩ ↔
    50 + c % 256 ^ n.ip.length + 1 < n.size := by
  have hlarge : 50 < 256 ^ n.ip.length := by
    rcases n.length_ip with h | h <;> rw [h] <;> norm_num
  have hstart : value (inc n.ip 50) = (value n.ip + 50) % 256 ^ n.ip.length := value_inc n.ip 50
  have hstop : value (inc (inc n.ip 50) c) =
      (value (inc n.ip 50) + c % 256 ^ n.ip.length) % 256 ^ n.ip.length := by
    rw [value_inc, length_inc, Nat.add_mod_mod]
  have hround := n.value_ip_add_size_le
  have hpos := n.size_pos
  have hfirst := add_mod_cases (value_lt n.ip) hlarge
  have hlast := add_mod_cases (length_inc n.ip 50 ▸ value_lt (inc n.ip 50))
    (Nat.mod_lt c (by omega : 0 < 256 ^ n.ip.length))
  rw [← hstart] at hfirst
  rw [← hstop] at hlast
  constructor
  · rintro ⟨hordered, hmem, hmem', hlt, hlt'⟩
    rw [n.contains_iff (by simp)] at hmem hmem'
    unfold IPNet.broadcast at hlt hlt'
    dsimp only at *
    omega
  · intro h
    have hfirst' : value (inc n.ip 50) = value n.ip + 50 := by omega
    have hlast' : value (inc (inc n.ip 50) c) =
        value n.ip + 50 + c % 256 ^ n.ip.length := by omega
    have hmem : n.Contains (inc n.ip 50) := (n.contains_iff (by simp)).mpr (by omega)
    have hmem' : n.Contains (inc (inc n.ip 50) c) := (n.contains_iff (by simp)).mpr (by omega)
    have hlt : value (inc (inc n.ip 50) c) < n.broadcast := by
      unfold IPNet.broadcast
      omega
    have hordered : value (inc n.ip 50) ≤ value (inc (inc n.ip 50) c) := by omega
    exact fits_of_lt hordered hmem hmem' hlt

lemma deployPool_ok_iff {m : MetalLBSpec} {nr : List Network} {pool : IPAddressPool} :
    deployPool m nr = .ok pool ↔ ∃ n, findNet m nr = some n ∧ makePool n m.ipCount = pool := by
  unfold deployPool
  cases findNet m nr <;> simp

/-- **The pool of the services.** Counting on adds to the number that the bytes hold, whatever their
number. The pool that is created fits in the network just if the network has more than fifty
addresses before it, those of the pool, and one after it. -/
theorem pool_fits_iff (ip : List UInt8) (c : ℕ) (m : MetalLBSpec) (nr : List Network)
    (pool : IPAddressPool) :
    ((inc ip c).length = ip.length ∧ value (inc ip c) = (value ip + c) % 256 ^ ip.length) ∧
    (0 ≤ m.ipCount → deployPool m nr = .ok pool →
      ∃ n r, findNet m nr = some n ∧ pool.addresses = [r] ∧
        (Fits n r ↔ 50 + m.ipCount.toNat % 256 ^ n.ip.length + 1 < n.size)) := by
  refine ⟨⟨length_inc ip c, value_inc ip c⟩, fun hcount hpool => ?_⟩
  obtain ⟨n, hfind, rfl⟩ := deployPool_ok_iff.mp hpool
  refine ⟨n, _, hfind, rfl, ?_⟩
  obtain ⟨count, hc⟩ := Int.eq_ofNat_of_zero_le hcount
  rw [hc]
  exact fits_iff n count

/-- A docker network with 64 addresses. -/
def smallNet : Subnet := ⟨[172, 17, 0, 0], 26, by decide, by decide⟩

theorem small_pool_fits :
    value (inc [172, 17, 0, 250] 10) = value [172, 17, 1, 4] ∧
      ∃ n r, findNet ⟨10, ""⟩ [⟨"bridge", [some smallNet]⟩] = some n ∧
        deployPool ⟨10, ""⟩ [⟨"bridge", [some smallNet]⟩] =
          .ok ⟨"metallb-system", "kne-service-pool", [r]⟩ ∧ Fits n r := by
  have hpool : deployPool ⟨10, ""⟩ [⟨"bridge", [some smallNet]⟩] =
      .ok ⟨"metallb-system", "kne-service-pool", [⟨[172, 17, 0, 50], [172, 17, 0, 60]⟩]⟩ := by
    decide +kernel
  obtain ⟨⟨-, hvalue⟩, hfits⟩ := pool_fits_iff [172, 17, 0, 250] 10 ⟨10, ""⟩ _ _
  obtain ⟨n, r, hfind, haddr, hiff⟩ := hfits (by decide) hpool
  obtain rfl := List.singleton_inj.mp haddr
  obtain rfl := Option.some.inj (hfind.symm.trans (rfl : _ = some (parseCIDR smallNet)))
  exact ⟨hvalue.trans (by decide), _, _, hfind, hpool, hiff.mpr (by decide +kernel)⟩

/-- **A pool that leaves the network**, whose last address is `172.17.0.63`. -/
theorem pool_leaves_network :
    findNet ⟨20, ""⟩ [⟨"bridge", [some smallNet]⟩] = some (parseCIDR smallNet) ∧
      deployPool ⟨20, ""⟩ [⟨"bridge", [some smallNet]⟩] =
        .ok ⟨"metallb-system", "kne-service-pool", [⟨[172, 17, 0, 50], [172, 17, 0, 70]⟩]⟩ ∧
      ¬ (parseCIDR smallNet).Contains [172, 17, 0, 70] ∧
      ¬ Fits (parseCIDR smallNet) ⟨[172, 17, 0, 50], [172, 17, 0, 70]⟩ := by
  have hout : ¬ (parseCIDR smallNet).Contains [172, 17, 0, 70] := by decide +kernel
  exact ⟨rfl, by decide +kernel, hout, fun h => hout h.stop_mem⟩

end Kne.MetalPool
