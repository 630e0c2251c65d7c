import Kne.Checked
import Kne.NodeRename
import Kne.Patterns
import Kne.Texts
import Mathlib.Data.String.Basic

/-!
The ports of a Cisco node: `getCiscoInterfaceID` makes the name of a port from the number in the key
of an interface, and `setE8000Env` and `setXRDEnv` put the names into the environment of the
container. A key is searched for the pattern and not compared with it, and the number is bounded
from above only.
-/

namespace Kne.CiscoPorts

open Kne.Checked Kne.NodeRename Kne.Patterns Kne.Patterns.Regex Kne.Texts

/-- The models for which `defaults` sets an environment. -/
inductive Model
  | m8201
  | m8202
  | m8201x32FH
  | m8101x32H
  | m8102x64H
  | xrd
  deriving DecidableEq, Repr

/-- The model as the topology gives it. -/
def Model.text : Model → String
  | .m8201 => "8201"
  | .m8202 => "8202"
  | .m8201x32FH => "8201-32FH"
  | .m8101x32H => "8101-32H"
  | .m8102x64H => "8102-64H"
  | .xrd => "xrd"

/-- The part of a node that the environment is made from. An interface is its `Name`. -/
structure CiscoNode where
  model : Model
  interfaces : AList fun _ : String => String
  configPath : String
  configFile : String
  env : AList fun _ : String => String

/-- A word that may stop after each letter and repeat what follows it: `t(h(e)*)*` for `the`. -/
def nested : List Char → Regex
  | [] => empty
  | [c] => char (· == c)
  | c :: cs => seq (char (· == c)) (star (nested cs))

/-- `e(t(h(e(r(n(e(t)*)*)*)*)*)*)`. -/
def ethRegx : Regex := seq (char (· == 'e')) (nested ['t', 'h', 'e', 'r', 'n', 'e', 't'])

def ethWithIDRegx : Regex := seq ethRegx (plus digit)

def fmtInt100 (eid : Int64) : String := "HundredGigE0/0/0/" ++ toString eid

def fmtInt400 (eid : Int64) : String := "FourHundredGigE0/0/0/" ++ toString eid

def unmapped (ethID : Int64) (last : String) (model : Model) : String :=
  "interface id " ++ toString ethID ++ " can not be mapped to a cisco interface, eth1.." ++ last ++
    " is supported on " ++ model.text ++ " "

/-- The number in a key: what stands between the first two matches of `ethRegx`. The error of `Atoi`
is dropped. -/
def ethID (eth : String) : Int64 := (atoi ((ethRegx.split eth)[1]?.getD [])).1

/-- The `switch` on the model. -/
def portName (model : Model) (ethID : Int64) : Except String String :=
  let eid := ethID - 1
  match model with
  | .m8201 =>
    if eid ≤ 23 then .ok (fmtInt400 eid)
    else if eid ≤ 35 then .ok (fmtInt100 eid)
    else .error (unmapped ethID "eth36" model)
  | .m8202 =>
    if eid ≤ 47 then .ok (fmtInt100 eid)
    else if eid ≤ 59 then .ok (fmtInt400 eid)
    else if eid ≤ 71 then .ok (fmtInt100 eid)
    else .error (unmapped ethID "eth72" model)
  | .m8201x32FH =>
    if eid ≤ 31 then .ok (fmtInt400 eid) else .error (unmapped ethID "eth32" model)
  | .m8101x32H =>
    if eid ≤ 31 then .ok (fmtInt100 eid) else .error (unmapped ethID "eth32" model)
  | .m8102x64H =>
    if eid ≤ 63 then .ok (fmtInt100 eid) else .error (unmapped ethID "eth64" model)
  | .xrd => .ok ("GigabitEthernet0/0/0/" ++ toString eid)

def getCiscoInterfaceID (pb : CiscoNode) (eth : String) : Except String String :=
  if !ethWithIDRegx.matchString eth then .error ("interface '" ++ eth ++ "' is invalid")
  else
    match (pb.interfaces.lookup eth).getD "" with
    | "" => portName pb.model (ethID eth)
    | name => .ok name

/-- The keys of the interfaces after `sort.Strings`. -/
def eths (pb : CiscoNode) : List String := pb.interfaces.keys.insertionSort (· ≤ ·)

/-- A variable of the environment that is set if it has no value. -/
def setIfEmpty (name value : String) (env : AList fun _ : String => String) :
    AList fun _ : String => String :=
  if (env.lookup name).getD "" = "" then env.insert name value else env

/-- The turn of `setE8000Env` for an interface, with `interfaceList` and `interfaceMap`. -/
def e8000Turn (pb : CiscoNode) (acc : String × String) (eth : String) :
    Except String (String × String) :=
  (getCiscoInterfaceID pb eth).map fun ciscoInterfaceID =>
    (acc.1 ++ "," ++ ciscoInterfaceID, acc.2 ++ "," ++ ciscoInterfaceID ++ ":" ++ eth)

/-- `setE8000Env`. The argument `join` is `filepath.Join`. -/
def setE8000Env (join : String → String → String) (pb : CiscoNode) :
    Except String (AList fun _ : String => String) :=
  ((eths pb).foldlM (e8000Turn pb) ("MgmtEther0/RP0/CPU0/0", "MgmtEther0/RP0/CPU0/0:eth0")).map
    fun (interfaceList, interfaceMap) =>
      setIfEmpty "XR_EVERY_BOOT_CONFIG" (join pb.configPath pb.configFile)
        (setIfEmpty "XR_CHECKSUM_OFFLOAD_COUNTERACT" interfaceList
          (setIfEmpty "XR_INTERFACES" interfaceMap pb.env))

/-- The turn of `setXRDEnv` for an interface, with `interfaceMap`. -/
def xrdTurn (pb : CiscoNode) (interfaceMap : String) (eth : String) : Except String String :=
  (getCiscoInterfaceID pb eth).map fun ciscoInterfaceID =>
    if interfaceMap = "" then "linux:" ++ eth ++ ",xr_name=" ++ ciscoInterfaceID
    else interfaceMap ++ ";linux:" ++ eth ++ ",xr_name=" ++ ciscoInterfaceID

/-- `setXRDEnv`. -/
def setXRDEnv (join : String → String → String) (pb : CiscoNode) :
    Except String (AList fun _ : String => String) :=
  ((eths pb).foldlM (xrdTurn pb) "").map fun interfaceMap =>
    (setIfEmpty "XR_EVERY_BOOT_CONFIG" (join pb.configPath pb.configFile)
      (setIfEmpty "XR_INTERFACES" interfaceMap pb.env)).insert "XR_MGMT_INTERFACES"
        "linux:eth0,xr_name=MgmtEth0/RP0/CPU0/0,chksum,snoop_v4,snoop_v6"

/-- The environment that `defaults` sets for the model. -/
def setEnv (join : String → String → String) (pb : CiscoNode) :
    Except String (AList fun _ : String => String) :=
  match pb.model with
  | .xrd => setXRDEnv join pb
  | _ => setE8000Env join pb

/-! ### The number in a key -/

/-- The index `[1]` of `getCiscoInterfaceID` is in range: a key with a number is split. -/
theorem split_of_matched {eth : String} (h : ethWithIDRegx.matchString eth = true) :
    ∃ digits, (ethRegx.split eth)[1]? = some digits := by
  have hmatch : ethRegx.matchString eth = true :=
    isSome_search_of_ends (fun _ hp => ends_ne_nil_of_seq hp) h
  obtain ⟨x, y, xs, hsplit⟩ := exists_split_of_search hmatch
  exact ⟨y, by rw [hsplit]; rfl⟩

lemma ends_nested_of_ne {c : Char} {cs : List Char} {p : Place}
    (hp : ∀ d ∈ p.rest.head?, d ≠ c) : (nested (c :: cs)).ends p = [] := by
  have hchar : (char (· == c)).ends p = [] := by
    rcases p with ⟨before, _ | ⟨d, rest⟩⟩
    · rfl
    · simpa [ends_char_cons] using hp d rfl
  cases cs with
  | nil => exact hchar
  | cons c' cs => rw [nested, ends_seq, hchar, List.flatMap_nil]; simp

lemma search_ethRegx_digits {before : Option Char} {cs : List Char}
    (hcs : ∀ c ∈ cs, c.isDigit = true) : ethRegx.search before cs = none := by
  induction cs generalizing before with
  | nil => rfl
  | cons c cs ih =>
    have hc : c ≠ 'e' := by
      rintro rfl
      exact absurd (hcs 'e' List.mem_cons_self) (by decide)
    have hends : ethRegx.ends ⟨before, c :: cs⟩ = [] := by
      simp [ethRegx, ends_seq, ends_char_cons, hc]
    simp [search, hends, ih fun d hd => hcs d (List.mem_cons_of_mem _ hd)]

lemma ends_ethRegx_eth {ds : List Char} (hds : ∀ c ∈ ds, c.isDigit = true) :
    ethRegx.ends ⟨none, 'e' :: 't' :: 'h' :: ds⟩ = [⟨some 'h', ds⟩, ⟨some 't', 'h' :: ds⟩] := by
  have hstuck : ∀ c cs, c.isDigit = false → (nested (c :: cs)).ends ⟨some 'h', ds⟩ = [] := by
    intro c cs hc
    refine ends_nested_of_ne fun d hd => ?_
    rintro rfl
    rw [hds d (List.mem_of_head? hd)] at hc
    cases hc
  have hround : (nested ['h', 'e', 'r', 'n', 'e', 't']).ends ⟨some 't', 'h' :: ds⟩ =
      [⟨some 'h', ds⟩] := by
    rw [nested, ends_seq_char rfl]
    · exact ends_star_of_stuck (hstuck 'e' _ rfl)
    · simp
  calc ethRegx.ends ⟨none, 'e' :: 't' :: 'h' :: ds⟩
      = (star (nested ['h', 'e', 'r', 'n', 'e', 't'])).ends ⟨some 't', 'h' :: ds⟩ := by
        rw [ethRegx, ends_seq_char rfl, nested, ends_seq_char rfl]
        simp
    _ = [⟨some 'h', ds⟩, ⟨some 't', 'h' :: ds⟩] :=
        ends_star_once hround (by simp) (hstuck 'h' _ rfl)

lemma ethID_eth {n : ℕ} (hn : n < 2 ^ 63) : ethID (eth n) = Int64.ofInt n := by
  have hds : ∀ c ∈ Nat.toDigits 10 n, c.isDigit = true := fun c hc =>
    Nat.isDigit_of_mem_toDigits (by omega) le_rfl hc
  have htext : (eth n).toList = 'e' :: 't' :: 'h' :: Nat.toDigits 10 n := by
    simp [eth, Nat.toList_repr]
  have hsearch : ethRegx.search none (eth n).toList =
      some ([], ⟨some 'h', Nat.toDigits 10 n⟩) := by
    rw [htext, search, ends_ethRegx_eth hds]
  have hlen : ∃ k, (eth n).length = k + 1 := by
    rw [← String.length_toList, htext]
    exact ⟨_, rfl⟩
  obtain ⟨k, hk⟩ := hlen
  have hsplit : ethRegx.split (eth n) = [[], Nat.toDigits 10 n] := by
    simp [split, splitFrom, hsearch, hk, search_ethRegx_digits hds]
  rw [ethID, hsplit]
  exact congrArg Prod.fst (atoi_toDigits hn)

/-! ### The names of the ports -/

/-- The ports of a model, as far as their number is bounded. -/
def Model.ports : Model → Option ℕ
  | .m8201 => some 36
  | .m8202 => some 72
  | .m8201x32FH => some 32
  | .m8101x32H => some 32
  | .m8102x64H => some 64
  | .xrd => none

/-- What stands before the index of a port. -/
def portHeads : List String :=
  ["HundredGigE0/0/0/", "FourHundredGigE0/0/0/", "GigabitEthernet0/0/0/"]

lemma portHeads_apart {head head' s s' : String} (hhead : head ∈ portHeads)
    (hhead' : head' ∈ portHeads) (h : head ++ s = head' ++ s') : head = head' := by
  have hfirst := congrArg (fun text : String => text.toList.head?) h
  simp only [portHeads, List.mem_cons, List.not_mem_nil, or_false] at hhead hhead'
  rcases hhead with rfl | rfl | rfl <;> rcases hhead' with rfl | rfl | rfl <;>
    first | rfl | simp at hfirst

lemma lt_of_le_bound {x b : Int64} {N : ℕ} (hx : x ≤ b) (hb : b.toInt < N) :
    ∀ M ∈ some N, x.toInt < M := by
  intro M hM
  obtain rfl := Option.some.inj hM
  exact (Int64.le_iff_toInt_le.mp hx).trans_lt hb

lemma portName_ok {model : Model} {n : Int64} {id : String} (h : portName model n = .ok id) :
    (∃ head ∈ portHeads, id = head ++ toString (n - 1)) ∧
      ∀ N ∈ model.ports, (n - 1).toInt < N := by
  have h100 : "HundredGigE0/0/0/" ∈ portHeads := by simp [portHeads]
  have h400 : "FourHundredGigE0/0/0/" ∈ portHeads := by simp [portHeads]
  have hgig : "GigabitEthernet0/0/0/" ∈ portHeads := by simp [portHeads]
  cases model with
  | m8201 =>
    simp only [portName] at h
    split_ifs at h with h23 h35
    · exact ⟨⟨_, h400, (Except.ok.inj h).symm⟩, lt_of_le_bound h23 (by decide)⟩
    · exact ⟨⟨_, h100, (Except.ok.inj h).symm⟩, lt_of_le_bound h35 (by decide)⟩
  | m8202 =>
    simp only [portName] at h
    split_ifs at h with h47 h59 h71
    · exact ⟨⟨_, h100, (Except.ok.inj h).symm⟩, lt_of_le_bound h47 (by decide)⟩
    · exact ⟨⟨_, h400, (Except.ok.inj h).symm⟩, lt_of_le_bound h59 (by decide)⟩
    · exact ⟨⟨_, h100, (Except.ok.inj h).symm⟩, lt_of_le_bound h71 (by decide)⟩
  | m8201x32FH =>
    simp only [portName] at h
    split_ifs at h with h31
    exact ⟨⟨_, h400, (Except.ok.inj h).symm⟩, lt_of_le_bound h31 (by decide)⟩
  | m8101x32H =>
    simp only [portName] at h
    split_ifs at h with h31
    exact ⟨⟨_, h100, (Except.ok.inj h).symm⟩, lt_of_le_bound h31 (by decide)⟩
  | m8102x64H =>
    simp only [portName] at h
    split_ifs at h with h63
    exact ⟨⟨_, h100, (Except.ok.inj h).symm⟩, lt_of_le_bound h63 (by decide)⟩
  | xrd => exact ⟨⟨_, hgig, (Except.ok.inj h).symm⟩, fun N hN => nomatch hN⟩

lemma index_nonneg_iff {n : Int64} : 0 ≤ (n - 1).toInt ↔ 1 ≤ n ∨ n = Int64.minValue := by
  have hlo := Int64.le_toInt n
  have hhi := Int64.toInt_lt n
  rw [Int64.toInt_sub, Int64.le_iff_toInt_le, ← Int64.toInt_inj, Int.bmod_def]
  simp
  omega

lemma toInt_of_printed {x : Int64} {i : ℕ} (h : toString x = toString i) : x.toInt = i := by
  have hrepr : x.toInt.repr = (i : ℤ).repr := h
  exact Int.repr_injective hrepr

variable {join : String → String → String} {pb : CiscoNode} {k k' id : String}
  {env : AList fun _ : String => String}

/-- No interface of the node has a `Name`. -/
def Unnamed (pb : CiscoNode) : Prop := ∀ k name, pb.interfaces.lookup k = some name → name = ""

/-- The names made for the interfaces of the node are different, and each is that of a port which
the model has. -/
structure Numbered (pb : CiscoNode) : Prop where
  apart : ∀ k ∈ pb.interfaces, ∀ k' ∈ pb.interfaces, ∀ id, getCiscoInterfaceID pb k = .ok id →
    getCiscoInterfaceID pb k' = .ok id → k = k'
  inRange : ∀ k ∈ pb.interfaces, ∃ i : ℕ, (∀ N ∈ pb.model.ports, i < N) ∧
    ∃ head ∈ portHeads, getCiscoInterfaceID pb k = .ok (head ++ toString i)

lemma name_of_ok (hun : Unnamed pb) (h : getCiscoInterfaceID pb k = .ok id) :
    portName pb.model (ethID k) = .ok id := by
  have hempty : (pb.interfaces.lookup k).getD "" = "" := by
    cases hk : pb.interfaces.lookup k with
    | none => rfl
    | some name => exact hun k name hk
  rw [getCiscoInterfaceID, hempty] at h
  split_ifs at h
  exact h

lemma exists_name (hset : setEnv join pb = .ok env) (hk : k ∈ pb.interfaces) :
    ∃ id, getCiscoInterfaceID pb k = .ok id := by
  have hmem : k ∈ eths pb := (List.mem_insertionSort _).mpr (AList.mem_keys.mp hk)
  have hturn : (∃ u v, e8000Turn pb u k = .ok v) ∨ ∃ u v, xrdTurn pb u k = .ok v := by
    unfold setEnv at hset
    split at hset
    · obtain ⟨_, hloop, -⟩ := map_ok_iff.mp hset
      exact .inr (turn_of_foldlM_ok hloop k hmem)
    · obtain ⟨_, hloop, -⟩ := map_ok_iff.mp hset
      exact .inl (turn_of_foldlM_ok hloop k hmem)
  obtain ⟨u, v, hok⟩ | ⟨u, v, hok⟩ := hturn
  · obtain ⟨id, hid, -⟩ := map_ok_iff.mp hok
    exact ⟨id, hid⟩
  · obtain ⟨id, hid, -⟩ := map_ok_iff.mp hok
    exact ⟨id, hid⟩

lemma number_of_numbered (hun : Unnamed pb) (hgood : Numbered pb) (hk : k ∈ pb.interfaces) :
    1 ≤ ethID k ∨ ethID k = Int64.minValue := by
  obtain ⟨i, -, head, hhead, hid⟩ := hgood.inRange k hk
  obtain ⟨⟨head', hhead', hname⟩, -⟩ := portName_ok (name_of_ok hun hid)
  obtain rfl := portHeads_apart hhead hhead' hname
  have hprinted := (String.append_right_inj head).mp hname
  have hindex := toInt_of_printed hprinted.symm
  exact index_nonneg_iff.mp (by omega)

/-- **When the ports are told apart.** If an environment is set for a node without given names, the
names made for its interfaces are different and each is that of a port of the model just when the
numbers in the keys are different and none is below one. (The least number of the machine is not
below one here: one less than it is the greatest.) -/
theorem ports_numbered_iff (join : String → String → String) (pb : CiscoNode)
    (env : AList fun _ : String => String) (hun : Unnamed pb) (hset : setEnv join pb = .ok env) :
    Numbered pb ↔
      (∀ k ∈ pb.interfaces, 1 ≤ ethID k ∨ ethID k = Int64.minValue) ∧
        ∀ k ∈ pb.interfaces, ∀ k' ∈ pb.interfaces, ethID k = ethID k' → k = k' := by
  constructor
  · intro hgood
    refine ⟨fun k hk => ?_, fun k hk k' hk' heq => ?_⟩
    · exact number_of_numbered hun hgood hk
    · obtain ⟨id, hid⟩ := exists_name hset hk
      obtain ⟨id', hid'⟩ := exists_name hset hk'
      have hname := name_of_ok hun hid
      rw [heq, name_of_ok hun hid'] at hname
      obtain rfl := Except.ok.inj hname
      exact hgood.apart k hk k' hk' id' hid hid'
  · rintro ⟨hpos, hdistinct⟩
    refine ⟨fun k hk k' hk' id hid hid' => ?_, fun k hk => ?_⟩
    · obtain ⟨⟨head, hhead, hname⟩, -⟩ := portName_ok (name_of_ok hun hid)
      obtain ⟨⟨head', hhead', hname'⟩, -⟩ := portName_ok (name_of_ok hun hid')
      have hsame := hname.symm.trans hname'
      obtain rfl := portHeads_apart hhead hhead' hsame
      have hindex := toString_int64_injective ((String.append_right_inj head).mp hsame)
      refine hdistinct k hk k' hk' ?_
      calc ethID k = ethID k - 1 + 1 := (Int64.sub_add_cancel _ _).symm
        _ = ethID k' - 1 + 1 := by rw [hindex]
        _ = ethID k' := Int64.sub_add_cancel _ _
    · obtain ⟨id, hid⟩ := exists_name hset hk
      obtain ⟨⟨head, hhead, hname⟩, hbound⟩ := portName_ok (name_of_ok hun hid)
      obtain ⟨i, hi⟩ := Int.eq_ofNat_of_zero_le (index_nonneg_iff.mpr (hpos k hk))
      refine ⟨i, fun N hN => ?_, head, hhead, ?_⟩
      · have := hbound N hN
        omega
      · have hprinted : toString (ethID k - 1) = toString i := congrArg Int.repr hi
        rw [hid, hname, hprinted]

lemma numbers_of_counted
    (hkeys : ∀ k ∈ pb.interfaces, ∃ n : ℕ, 1 ≤ n ∧ n < 2 ^ 63 ∧ k = eth n) :
    (∀ k ∈ pb.interfaces, 1 ≤ ethID k ∨ ethID k = Int64.minValue) ∧
      ∀ k ∈ pb.interfaces, ∀ k' ∈ pb.interfaces, ethID k = ethID k' → k = k' := by
  have hnumber : ∀ n : ℕ, n < 2 ^ 63 → (ethID (eth n)).toInt = n := by
    intro n hn
    rw [ethID_eth hn]
    exact Int64.toInt_ofInt_of_le (by omega) (by omega)
  refine ⟨fun k hk => ?_, fun k hk k' hk' heq => ?_⟩
  · obtain ⟨n, hpos, hn, rfl⟩ := hkeys k hk
    refine .inl (Int64.le_iff_toInt_le.mpr ?_)
    rw [hnumber n hn]
    exact Int.ofNat_le.mpr hpos
  · obtain ⟨n, -, hn, rfl⟩ := hkeys k hk
    obtain ⟨n', -, hn', rfl⟩ := hkeys k' hk'
    have hint := hnumber n hn
    rw [heq, hnumber n' hn'] at hint
    exact congrArg eth (by omega)

/-- A node of a model with interfaces under the given keys. -/
def portsFor (model : Model) (keys : List String) : CiscoNode where
  model := model
  interfaces := keys.foldl (fun m k => m.insert k "") ∅
  configPath := "/"
  configFile := "startup.cfg"
  env := ∅

lemma unnamed_iff : Unnamed pb ↔ ∀ e ∈ pb.interfaces.entries, e.2 = "" := by
  constructor
  · intro h e he
    exact h e.1 e.2 (AList.mem_lookup_iff.mpr he)
  · intro h k name hk
    exact h ⟨k, name⟩ (AList.mem_lookup_iff.mp hk)

/-- The first and the last port of a model. -/
theorem firstAndLast_numbered : Numbered (portsFor .m8201 ["eth1", "eth36"]) := by
  have hset : (setEnv (· ++ ·) (portsFor .m8201 ["eth1", "eth36"])).isOk = true := by
    decide +kernel
  cases henv : setEnv (· ++ ·) (portsFor .m8201 ["eth1", "eth36"]) with
  | error e =>
    rw [henv] at hset
    cases hset
  | ok env =>
    refine (ports_numbered_iff _ _ env (unnamed_iff.mpr (by decide)) henv).mpr ?_
    have hkeys : ∀ k ∈ (portsFor .m8201 ["eth1", "eth36"]).interfaces.keys,
        k = eth 1 ∨ k = eth 36 := by decide
    refine numbers_of_counted fun k hk => ?_
    rcases hkeys k hk with rfl | rfl
    · exact ⟨1, by omega, by omega, rfl⟩
    · exact ⟨36, by omega, by omega, rfl⟩

/-- The key `eth0` gets the port before the first one, and the keys `eth1` and `eth01` get the same
port; an environment is set for both nodes. -/
theorem ports_confused :
    let zero := portsFor .m8201 ["eth0"]
    let twice := portsFor .xrd ["eth1", "eth01"]
    (Unnamed zero ∧ (setEnv (· ++ ·) zero).isOk = true ∧ ¬ Numbered zero) ∧
      Unnamed twice ∧ (setEnv (· ++ ·) twice).isOk = true ∧ ¬ Numbered twice := by
  intro zero twice
  have hzero : Unnamed zero := unnamed_iff.mpr (by decide)
  refine ⟨⟨hzero, by decide +kernel, fun hgood => ?_⟩, unnamed_iff.mpr (by decide),
    by decide +kernel, fun hgood => ?_⟩
  · have hpos : 1 ≤ ethID "eth0" ∨ ethID "eth0" = Int64.minValue :=
      number_of_numbered hzero hgood (by decide)
    revert hpos
    decide +kernel
  · have hsame : "eth1" = "eth01" :=
      hgood.apart "eth1" (by decide) "eth01" (by decide) "GigabitEthernet0/0/0/0"
        (by decide +kernel) (by decide +kernel)
    exact absurd hsame (by decide)

end Kne.CiscoPorts
