import Kne.NodeModel
import Kne.Renaming
import Kne.Texts

/-!
The constructors of Alpine, SONiC and Ciena rename the interfaces of a node: `renameInterfaces` in
`topo/node/alpine/alpine.go`, in `topo/node/sonic/sonic.go`, which has the same text, and in
`topo/node/ciena/ciena.go`. The names they make are names a user can give too.

The values of the map are pointers, which are not looked at; any type will do for them.
-/

namespace Kne.NodeRename

open Kne.TopoModel Kne.NodeModel Kne.Renaming

variable {α : Type} {o : Order} {m : AList (fun _ : String => α)} {k : String}

/-! ### The loops -/

def eth (i : ℕ) : String := "eth" ++ toString i

/-- `strings.HasPrefix(k, "Ethernet")`. -/
def IsEthernet (k : String) : Prop := "Ethernet".toList <+: k.toList

instance (k : String) : Decidable (IsEthernet k) :=
  inferInstanceAs (Decidable ("Ethernet".toList <+: k.toList))

/-- The interfaces of Alpine and SONiC are counted in the order in which they come. -/
def ethernetName (idx : ℕ) (k : String) : String × ℕ :=
  if IsEthernet k then (eth idx, idx + 1) else (k, idx)

def number (l : List Char) : Bool := l ≠ [] && l.all Char.isDigit

/-- What Ciena makes of a name: `1/5/3` and `3` become `eth3`. -/
def cienaName (k : String) : String :=
  match k.toList.splitOn '/' with
  | [a, b, c] => if number a && number b && number c then "eth" ++ String.ofList c else k
  | [a] => if number a then "eth" ++ k else k
  | _ => k

/-- The loop of `renameInterfaces`; `idx` is 1 at its start. -/
def renameInterfaces (name : ℕ → String → String × ℕ) (o : Order)
    (m : AList (fun _ : String => α)) : AList (fun _ : String => α) :=
  rename name 1 (ranged m (o.keys m.keys))

def alpineRenameInterfaces (o : Order) (m : AList (fun _ : String => α)) :
    AList (fun _ : String => α) := renameInterfaces ethernetName o m

def sonicRenameInterfaces (o : Order) (m : AList (fun _ : String => α)) :
    AList (fun _ : String => α) := renameInterfaces ethernetName o m

def cienaRenameInterfaces (o : Order) (m : AList (fun _ : String => α)) :
    AList (fun _ : String => α) := renameInterfaces (fun idx k => (cienaName k, idx)) o m

/-- The interfaces of a node as its constructor leaves them. -/
def newInterfaces (o : Order) (v : NodeType) (m : AList (fun _ : String => α)) :
    AList (fun _ : String => α) :=
  match v with
  | .alpine => alpineRenameInterfaces o m
  | .sonic => sonicRenameInterfaces o m
  | .ciena => cienaRenameInterfaces o m
  | .impl | .cisco | .juniper | .forward => m

/-! ### Counted names -/

lemma eth_injective : Function.Injective eth := by
  intro i j h
  have hrepr : i.repr = j.repr := String.append_right_inj "eth" |>.mp h
  exact Nat.repr_injective hrepr

lemma not_isEthernet_eth (i : ℕ) : ¬ IsEthernet (eth i) := by
  rintro ⟨l, hl⟩
  have hhead := congrArg List.head? hl
  rw [eth, String.toList_append] at hhead
  exact absurd hhead (by simp)

/-- The number of interfaces that are counted. -/
def ethernets (ks : List String) : ℕ := ks.countP fun k => IsEthernet k

lemma mem_names_ethernet (idx : ℕ) (ks : List String) (n : String) :
    n ∈ names ethernetName idx ks ↔
      (n ∈ ks ∧ ¬ IsEthernet n) ∨ ∃ i, idx ≤ i ∧ i < idx + ethernets ks ∧ n = eth i := by
  induction ks generalizing idx with
  | nil =>
    simp only [names, ethernets, List.not_mem_nil, false_and, List.countP_nil, add_zero, false_or,
      false_iff]
    rintro ⟨i, hle, hlt, -⟩
    omega
  | cons k ks ih =>
    rw [names, List.mem_cons, ih, List.mem_cons]
    by_cases hk : IsEthernet k
    · have hcount : ethernets (k :: ks) = ethernets ks + 1 := by
        simp [ethernets, hk]
      simp only [ethernetName, hk, if_true, hcount]
      constructor
      · rintro (rfl | ⟨hn, hne⟩ | ⟨i, hle, hlt, rfl⟩)
        · exact Or.inr ⟨idx, le_rfl, by omega, rfl⟩
        · exact Or.inl ⟨Or.inr hn, hne⟩
        · exact Or.inr ⟨i, by omega, by omega, rfl⟩
      · rintro (⟨rfl | hn, hne⟩ | ⟨i, hle, hlt, rfl⟩)
        · exact absurd hk hne
        · exact Or.inr (Or.inl ⟨hn, hne⟩)
        · rcases Nat.eq_or_lt_of_le hle with rfl | hlt'
          · exact Or.inl rfl
          · exact Or.inr (Or.inr ⟨i, by omega, by omega, rfl⟩)
    · have hcount : ethernets (k :: ks) = ethernets ks := by
        simp [ethernets, hk]
      simp only [ethernetName, hk, if_false, hcount]
      constructor
      · rintro (rfl | ⟨hn, hne⟩ | h)
        · exact Or.inl ⟨Or.inl rfl, hk⟩
        · exact Or.inl ⟨Or.inr hn, hne⟩
        · exact Or.inr h
      · rintro (⟨rfl | hn, hne⟩ | h)
        · exact Or.inl rfl
        · exact Or.inr (Or.inl ⟨hn, hne⟩)
        · exact Or.inr (Or.inr h)

/-- No counted name is one of the keys. -/
def CountFree (idx : ℕ) (ks : List String) : Prop :=
  ∀ i, idx ≤ i → i < idx + ethernets ks → eth i ∉ ks

lemma nodup_names_ethernet (idx : ℕ) {ks : List String} (hks : ks.Nodup) :
    (names ethernetName idx ks).Nodup ↔ CountFree idx ks := by
  induction ks generalizing idx with
  | nil => simp [names, CountFree]
  | cons k ks ih =>
    obtain ⟨hk', hnd⟩ := List.nodup_cons.mp hks
    rw [names, List.nodup_cons, ih _ hnd, mem_names_ethernet]
    unfold CountFree
    by_cases hk : IsEthernet k
    · -- the counter moves on, and `k` itself is none of the counted names
      have hcount : ethernets (k :: ks) = ethernets ks + 1 := by
        simp [ethernets, hk]
      have hne : ∀ i, eth i ≠ k := by
        rintro i rfl
        exact not_isEthernet_eth i hk
      simp only [ethernetName, hk, if_true, hcount, List.mem_cons, hne, false_or,
        not_isEthernet_eth, not_false_eq_true, and_true, not_or]
      constructor
      · rintro ⟨⟨hidx, -⟩, hrest⟩ i hle hlt
        rcases Nat.eq_or_lt_of_le hle with rfl | hlt'
        · exact hidx
        · exact hrest i (by omega) (by omega)
      · intro h
        refine ⟨⟨h idx le_rfl (by omega), ?_⟩, fun i hle hlt => h i (by omega) (by omega)⟩
        rintro ⟨i, hle, -, heq⟩
        have := eth_injective heq
        omega
    · have hcount : ethernets (k :: ks) = ethernets ks := by
        simp [ethernets, hk]
      simp only [ethernetName, hk, if_false, hcount, List.mem_cons, not_or]
      constructor
      · rintro ⟨⟨-, hkept⟩, hrest⟩ i hle hlt
        refine ⟨fun heq => hkept ⟨i, hle, hlt, heq.symm⟩, hrest i hle hlt⟩
      · intro h
        refine ⟨⟨fun hmem => hk' hmem.1, ?_⟩, fun i hle hlt => (h i hle hlt).2⟩
        rintro ⟨i, hle, hlt, heq⟩
        exact (h i hle hlt).1 heq.symm

/-! ### Three ways to write a port -/

def Number (n : String) : Prop := number n.toList = true

/-- The key is the port `n` by its slot and card, as in `1/5/3`. -/
def CardPort (n k : String) : Prop :=
  ∃ x y, Number x ∧ Number y ∧ Number n ∧ k = x ++ "/" ++ y ++ "/" ++ n

lemma slash_notMem_of_number {n : String} (h : Number n) : '/' ∉ n.toList := by
  intro hmem
  have hdigits : n.toList.all Char.isDigit := (Bool.and_eq_true_iff.mp h).2
  exact absurd (List.all_eq_true.mp hdigits '/' hmem) (by decide)

lemma splitOn_cardPort {x y n : String} (hx : Number x) (hy : Number y) (hn : Number n) :
    (x ++ "/" ++ y ++ "/" ++ n).toList.splitOn '/' = [x.toList, y.toList, n.toList] := by
  have htext : (x ++ "/" ++ y ++ "/" ++ n).toList =
      ['/'].intercalate [x.toList, y.toList, n.toList] := by
    simp [List.intercalate]
  rw [htext]
  refine List.splitOn_intercalate '/' (fun l hl => ?_) (by simp)
  simp only [List.mem_cons, List.not_mem_nil, or_false] at hl
  rcases hl with rfl | rfl | rfl <;> exact slash_notMem_of_number ‹_›

lemma cienaName_of_cardPort {n : String} (h : CardPort n k) : cienaName k = "eth" ++ n := by
  obtain ⟨x, y, hx, hy, hn, rfl⟩ := h
  have hall : (number x.toList && number y.toList && number n.toList) = true := by
    rw [hx, hy, hn]
    rfl
  simp only [cienaName, splitOn_cardPort hx hy hn, hall, if_true, String.ofList_toList]

lemma cienaName_of_number (h : Number k) : cienaName k = "eth" ++ k := by
  simp only [cienaName, List.splitOn_eq_singleton (slash_notMem_of_number h)]
  exact if_pos h

lemma cienaName_cases (k : String) : (∃ n, CardPort n k) ∨ Number k ∨ cienaName k = k := by
  have hjoin : ['/'].intercalate (k.toList.splitOn '/') = k.toList := List.intercalate_splitOn '/'
  unfold cienaName
  split
  next a b c hs =>
    split_ifs with hall
    · simp only [Bool.and_eq_true] at hall
      refine Or.inl ⟨String.ofList c, String.ofList a, String.ofList b, ?_⟩
      refine ⟨?_, ?_, ?_, String.toList_injective ?_⟩
      · simpa [Number] using hall.1.1
      · simpa [Number] using hall.1.2
      · simpa [Number] using hall.2
      · rw [← hjoin, hs]
        simp [List.intercalate]
    · exact Or.inr (Or.inr rfl)
  next a hs =>
    split_ifs with hall
    · have ha : a = k.toList := by simpa [hs, List.intercalate] using hjoin
      rw [ha] at hall
      exact Or.inr (Or.inl hall)
    · exact Or.inr (Or.inr rfl)
  next => exact Or.inr (Or.inr rfl)

lemma not_number_eth (n : String) : ¬ Number ("eth" ++ n) := by
  intro h
  have hdigits := (Bool.and_eq_true_iff.mp h).2
  rw [String.toList_append] at hdigits
  simp at hdigits

lemma not_cardPort_eth (m n : String) : ¬ CardPort m ("eth" ++ n) := by
  rintro ⟨x, y, hx, -, -, heq⟩
  obtain ⟨hne, hdigits⟩ := Bool.and_eq_true_iff.mp hx
  have hlist := congrArg String.toList heq
  simp only [String.toList_append] at hlist
  cases hx' : x.toList with
  | nil => simp [hx'] at hne
  | cons c cs =>
    rw [hx'] at hlist hdigits
    simp only [List.all_cons, Bool.and_eq_true] at hdigits
    have hc : 'e' = c := by simpa using congrArg List.head? hlist
    subst hc
    exact absurd hdigits.1 (by decide)

/-- The key is the port `n`, written in one of the three ways. -/
def Spells (n k : String) : Prop := CardPort n k ∨ k = n ∨ k = "eth" ++ n

lemma cienaName_eq_eth_iff {n : String} (hn : Number n) :
    cienaName k = "eth" ++ n ↔ Spells n k := by
  constructor
  · intro h
    rcases cienaName_cases k with ⟨m, hm⟩ | hk | hk
    · rw [cienaName_of_cardPort hm, String.append_right_inj] at h
      exact Or.inl (h ▸ hm)
    · rw [cienaName_of_number hk, String.append_right_inj] at h
      exact Or.inr (Or.inl h)
    · exact Or.inr (Or.inr (hk.symm.trans h))
  · rintro (h | rfl | rfl)
    · exact cienaName_of_cardPort h
    · exact cienaName_of_number hn
    · rcases cienaName_cases ("eth" ++ n) with ⟨m, hm⟩ | hk | hk
      · exact absurd hm (not_cardPort_eth m n)
      · exact absurd hk (not_number_eth n)
      · exact hk

/-- No port is written in two ways: no two keys are the same port of different cards, a plain
number stands beside no port of a card with that number, and `eth<n>` beside neither. -/
structure PortsApart (ks : List String) : Prop where
  cards : ∀ n, ∀ a ∈ ks, ∀ b ∈ ks, CardPort n a → CardPort n b → a = b
  plain : ∀ n ∈ ks, Number n → ∀ a ∈ ks, ¬ CardPort n a
  named : ∀ n, Number n → "eth" ++ n ∈ ks → n ∉ ks ∧ ∀ a ∈ ks, ¬ CardPort n a

lemma ne_of_cardPort {n : String} (h : CardPort n k) : k ≠ n := by
  rintro rfl
  obtain ⟨x, y, -, -, hn, heq⟩ := h
  have hlength := congrArg String.length heq
  simp only [String.length_append] at hlength
  have : "/".length = 1 := rfl
  omega

lemma number_of_cardPort {n : String} (h : CardPort n k) : Number n := by
  obtain ⟨-, -, -, -, hn, -⟩ := h
  exact hn

lemma PortsApart.eq_of_spells {ks : List String} (h : PortsApart ks) {n a b : String}
    (hn : Number n) (ha : a ∈ ks) (hb : b ∈ ks) (hna : Spells n a) (hnb : Spells n b) : a = b := by
  rcases hna with hna | rfl | rfl <;> rcases hnb with hnb | rfl | rfl
  · exact h.cards n a ha b hb hna hnb
  · exact absurd hna (h.plain _ hb hn a ha)
  · exact absurd hna ((h.named n hn hb).2 a ha)
  · exact absurd hnb (h.plain _ ha hn b hb)
  · rfl
  · exact absurd ha (h.named a hn hb).1
  · exact absurd hnb ((h.named n hn ha).2 b hb)
  · exact absurd hb (h.named b hn ha).1
  · rfl

lemma portsApart_of_eq {ks : List String}
    (h : ∀ n a b, Number n → a ∈ ks → b ∈ ks → Spells n a → Spells n b → a = b) :
    PortsApart ks where
  cards n a ha b hb hna hnb :=
    h n a b (number_of_cardPort hna) ha hb (Or.inl hna) (Or.inl hnb)
  plain n hn hnum a ha hna :=
    ne_of_cardPort hna (h n a n hnum ha hn (Or.inl hna) (Or.inr (Or.inl rfl)))
  named n hnum he := by
    refine ⟨fun hn => ?_, fun a ha hna => ?_⟩
    · have heq := h n n _ hnum hn he (Or.inr (Or.inl rfl)) (Or.inr (Or.inr rfl))
      exact not_number_eth n (heq ▸ hnum)
    · have heq := h n a _ hnum ha he (Or.inl hna) (Or.inr (Or.inr rfl))
      exact not_cardPort_eth n n (heq ▸ hna)

lemma portsApart_iff (ks : List String) :
    PortsApart ks ↔ ∀ a ∈ ks, ∀ b ∈ ks, cienaName a = cienaName b → a = b := by
  constructor
  · intro h a ha b hb heq
    have hname : ∀ k, (∃ n, Number n ∧ cienaName k = "eth" ++ n) ∨ cienaName k = k := by
      intro k
      rcases cienaName_cases k with ⟨n, hn⟩ | hn | hk
      · exact Or.inl ⟨n, number_of_cardPort hn, cienaName_of_cardPort hn⟩
      · exact Or.inl ⟨k, hn, cienaName_of_number hn⟩
      · exact Or.inr hk
    have hspells : ∀ n, Number n → cienaName a = "eth" ++ n → a = b := fun n hn hna =>
      h.eq_of_spells hn ha hb ((cienaName_eq_eth_iff hn).mp hna)
        ((cienaName_eq_eth_iff hn).mp (heq.symm.trans hna))
    rcases hname a, hname b with ⟨⟨n, hn, hna⟩ | hka, ⟨m, hm, hmb⟩ | hkb⟩
    · exact hspells n hn hna
    · exact hspells n hn hna
    · exact hspells m hm (heq.trans hmb)
    · rw [← hka, heq, hkb]
  · intro h
    refine portsApart_of_eq fun n a b hn ha hb hna hnb => h a ha b hb ?_
    rw [(cienaName_eq_eth_iff hn).mpr hna, (cienaName_eq_eth_iff hn).mpr hnb]

/-! ### What is lost -/

/-- What the keys of a map must be for their new names not to clash. -/
def NamesKept (v : NodeType) (ks : List String) : Prop :=
  match v with
  | .alpine | .sonic => CountFree 1 ks
  | .ciena => PortsApart ks
  | .impl | .cisco | .juniper | .forward => True

lemma countFree_perm {idx : ℕ} {ks ks' : List String} (h : ks.Perm ks') :
    CountFree idx ks ↔ CountFree idx ks' := by
  have hcount : ethernets ks = ethernets ks' := h.countP_eq _
  unfold CountFree
  simp only [hcount, h.mem_iff]

lemma losesNone_ethernet_iff (hm : Distinct m) :
    LosesNone m (renameInterfaces ethernetName o m) ↔ CountFree 1 m.keys := by
  have hperm := o.perm m.keys
  rw [renameInterfaces, losesNone_rename_iff 1 hperm hm,
    nodup_names_ethernet 1 (hperm.nodup_iff.mpr (AList.keys_nodup m)), countFree_perm hperm]

lemma losesNone_self (hm : Distinct m) : LosesNone m m :=
  ⟨rfl, fun k v hkv => ⟨k, hkv, fun k' hkv' => hm k' k v hkv' hkv⟩⟩

/-- **Renaming interfaces.** In every order of the map, the constructor of a node loses none of its
interfaces just if no key is one of the names that Alpine and SONiC count, and no port of Ciena is
written in two ways. -/
theorem renaming_loses_none_iff (o : Order) (v : NodeType) (m : AList (fun _ : String => α))
    (hm : Distinct m) : LosesNone m (newInterfaces o v m) ↔ NamesKept v m.keys := by
  cases v with
  | alpine => exact losesNone_ethernet_iff hm
  | sonic => exact losesNone_ethernet_iff hm
  | ciena =>
    have hperm := o.perm m.keys
    have hnd : (o.keys m.keys).Nodup := hperm.nodup_iff.mpr (AList.keys_nodup m)
    rw [newInterfaces, cienaRenameInterfaces, renameInterfaces, losesNone_rename_iff 1 hperm hm,
      names_eq_map (f := cienaName) (fun _ _ => rfl), List.nodup_map_iff_inj_on hnd]
    simp only [hperm.mem_iff]
    exact (portsApart_iff m.keys).symm
  | impl | cisco | juniper | forward => exact iff_of_true (losesNone_self hm) trivial

/-- Two ports by the names of the vendor, and one that has its name already. -/
def mixedPorts : AList (fun _ : String => ℕ) :=
  ((AList.insert "Ethernet1" 1 ∅).insert "Ethernet2" 2).insert "eth3" 3

theorem mixedPorts_kept : LosesNone mixedPorts (newInterfaces keptOrder .alpine mixedPorts) := by
  refine (renaming_loses_none_iff keptOrder .alpine mixedPorts ?_).mpr ?_
  · exact distinct_of_nodup (by decide)
  · intro i hle hlt
    have hcount : ethernets mixedPorts.keys = 2 := by decide
    have hi : i = 1 ∨ i = 2 := by omega
    rcases hi with rfl | rfl <;> decide

/-- A port by the name of the vendor, and one by the name it will get. -/
def clashingPorts : AList (fun _ : String => ℕ) := (AList.insert "Ethernet1" 1 ∅).insert "eth1" 2

def clashingCards : AList (fun _ : String => ℕ) := (AList.insert "1/1/4" 1 ∅).insert "2/1/4" 2

/-- **A port is lost.** -/
theorem clashing_ports_lost :
    (alpineRenameInterfaces keptOrder clashingPorts).entries = [⟨"eth1", 1⟩] ∧
      (sonicRenameInterfaces keptOrder clashingPorts).entries = [⟨"eth1", 1⟩] ∧
      (cienaRenameInterfaces keptOrder clashingCards).entries = [⟨"eth4", 1⟩] := by
  decide +kernel

end Kne.NodeRename
