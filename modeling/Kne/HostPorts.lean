import Kne.Segments
import Kne.Texts

/-!
Addresses with a port as Go's `net` has them: `SplitHostPort` and `JoinHostPort`.
-/

namespace Kne.HostPorts

/-- The place of the last colon. -/
def lastColon (s : List Char) : Option ℕ :=
  if ':' ∈ s then some (s.length - 1 - s.reverse.idxOf ':') else none

def missingPort : String := "missing port in address"

def tooManyColons : String := "too many colons in address"

/-- The host, where the port comes after the place `i` of the last colon, and the places from which
on there must be no bracket. -/
def hostOf (s : List Char) (i : ℕ) : Except String (List Char × ℕ × ℕ) :=
  if s.head? = some '[' then
    if ']' ∉ s then .error "missing ']' in address"
    else
      let close := s.idxOf ']'
      if close + 1 = s.length then .error missingPort
      else if close + 1 = i then .ok ((s.take close).drop 1, 1, close + 1)
      else if s[close + 1]? = some ':' then .error tooManyColons
      else .error missingPort
  else if ':' ∈ s.take i then .error tooManyColons
  else .ok (s.take i, 0, 0)

/-- `net.SplitHostPort`. -/
def splitHostPort (hostport : String) : Except String (String × String) :=
  let s := hostport.toList
  match lastColon s with
  | none => .error missingPort
  | some i =>
    match hostOf s i with
    | .error why => .error why
    | .ok (host, j, k) =>
      if '[' ∈ s.drop j then .error "unexpected '[' in address"
      else if ']' ∈ s.drop k then .error "unexpected ']' in address"
      else .ok (String.ofList host, String.ofList (s.drop (i + 1)))

/-- `net.JoinHostPort`. -/
def joinHostPort (host port : String) : String :=
  if ':' ∈ host.toList then "[" ++ host ++ "]:" ++ port else host ++ ":" ++ port

/-! ### What is accepted -/

/-- There is no bracket in the text. -/
def Bare (cs : List Char) : Prop := '[' ∉ cs ∧ ']' ∉ cs

instance (cs : List Char) : Decidable (Bare cs) := inferInstanceAs (Decidable (_ ∧ _))

section Accepted

variable {xs ys ps qs host : List Char}

lemma lastColon_append (xs : List Char) (h : ':' ∉ ps) :
    lastColon (xs ++ ':' :: ps) = some xs.length := by
  have hidx : (xs ++ ':' :: ps).reverse.idxOf ':' = ps.length := by
    rw [List.reverse_append, List.reverse_cons, List.append_assoc,
      List.idxOf_append_of_notMem (by simpa using h), List.length_reverse, List.singleton_append,
      List.idxOf_cons_self, Nat.add_zero]
  rw [lastColon, if_pos (by simp), hidx, List.length_append, List.length_cons]
  congr 1
  omega

lemma eq_of_last_colon (hp : ':' ∉ ps) (hq : ':' ∉ qs) (h : xs ++ ':' :: ps = ys ++ ':' :: qs) :
    xs = ys ∧ ps = qs := by
  have hlength : xs.length = ys.length := by
    have hlast := lastColon_append xs hp
    rw [h, lastColon_append ys hq] at hlast
    exact (Option.some.inj hlast).symm
  obtain ⟨hxs, hrest⟩ := List.append_inj h hlength
  exact ⟨hxs, (List.cons.inj hrest).2⟩

lemma hostOf_cases {j k : ℕ} (h : hostOf (xs ++ ':' :: ps) xs.length = .ok (host, j, k)) :
    (host = xs ∧ ':' ∉ xs ∧ j = 0 ∧ k = 0) ∨
      (xs = '[' :: host ++ [']'] ∧ ']' ∉ host ∧ j = 1 ∧ k = host.length + 2) := by
  unfold hostOf at h
  by_cases hhead : (xs ++ ':' :: ps).head? = some '['
  · rw [if_pos hhead] at h
    by_cases hmem : ']' ∈ xs ++ ':' :: ps
    · -- the first bracket that closes is the one before the colon
      obtain ⟨us, vs, hs, hus⟩ := List.eq_append_cons_of_mem hmem
      have hclose : (xs ++ ':' :: ps).idxOf ']' = us.length := by
        rw [hs, List.idxOf_append_of_notMem hus, List.idxOf_cons_self, Nat.add_zero]
      have htake : (xs ++ ':' :: ps).take us.length = us := by rw [hs, List.take_left]
      rw [if_neg (not_not.mpr hmem)] at h
      simp only [hclose, htake] at h
      split_ifs at h with hend hlast
      have happend : xs ++ ':' :: ps = (us ++ [']']) ++ vs := by
        rw [hs, List.append_assoc, List.singleton_append]
      have hxs : xs = us ++ [']'] :=
        (List.append_inj happend (by rw [List.length_append, List.length_singleton, hlast])).1
      cases us with
      | nil =>
        rw [hs] at hhead
        exact absurd (Option.some.inj hhead) (by decide)
      | cons u us =>
        have hu : u = '[' := by
          rw [hs] at hhead
          exact Option.some.inj hhead
        cases h
        exact .inr ⟨by rw [hxs, hu]; rfl, fun hin => hus (List.mem_cons_of_mem u hin), rfl, rfl⟩
    · rw [if_pos hmem] at h
      cases h
  · rw [if_neg hhead, List.take_left] at h
    split_ifs at h with hcolon
    cases h
    exact .inl ⟨rfl, hcolon, rfl, rfl⟩

lemma hostOf_plain (hcolon : ':' ∉ xs) (hbare : Bare xs) :
    hostOf (xs ++ ':' :: ps) xs.length = .ok (xs, 0, 0) := by
  have hhead : (xs ++ ':' :: ps).head? ≠ some '[' := by
    cases xs with
    | nil => exact fun h => absurd (Option.some.inj h) (by decide)
    | cons x xs =>
      intro h
      exact hbare.1 (Option.some.inj h ▸ List.mem_cons_self)
  rw [hostOf, if_neg hhead, List.take_left, if_neg hcolon]

lemma hostOf_bracketed (h : ']' ∉ host) :
    hostOf ('[' :: host ++ [']'] ++ ':' :: ps) (host.length + 2) =
      .ok (host, 1, host.length + 2) := by
  have hsplit : '[' :: host ++ [']'] ++ ':' :: ps = ('[' :: host) ++ ']' :: ':' :: ps := by simp
  have hnot : ']' ∉ '[' :: host := by simpa using h
  have hclose : (('[' :: host) ++ ']' :: ':' :: ps).idxOf ']' = host.length + 1 := by
    rw [List.idxOf_append_of_notMem hnot, List.idxOf_cons_self, Nat.add_zero, List.length_cons]
  have htake : (('[' :: host) ++ ']' :: ':' :: ps).take (host.length + 1) = '[' :: host :=
    List.take_left' (by rw [List.length_cons])
  rw [hsplit, hostOf, if_pos (by simp), if_neg (by simp)]
  simp only [hclose, htake]
  rw [if_neg (by simp), if_pos trivial, List.drop_one, List.tail_cons]

lemma splitHostPort_of_hostOf {s : String} {j k : ℕ} (hs : s.toList = xs ++ ':' :: ps)
    (hps : ':' ∉ ps) (hhost : hostOf (xs ++ ':' :: ps) xs.length = .ok (host, j, k)) :
    splitHostPort s =
      if '[' ∈ (xs ++ ':' :: ps).drop j then .error "unexpected '[' in address"
      else if ']' ∈ (xs ++ ':' :: ps).drop k then .error "unexpected ']' in address"
      else .ok (String.ofList host, String.ofList ps) := by
  have hport : (xs ++ ':' :: ps).drop (xs.length + 1) = ps := by
    rw [List.drop_append, List.drop_of_length_le (by omega)]
    simp
  simp only [splitHostPort, hs, lastColon_append xs hps, hhost, hport]

end Accepted

/-- **The language of `SplitHostPort`**: a host and a port without brackets, and brackets around the
host if it has a colon. -/
theorem splitHostPort_eq_ok_iff {s host port : String} :
    splitHostPort s = .ok (host, port) ↔
      Bare host.toList ∧ Bare port.toList ∧ ':' ∉ port.toList ∧
        ((':' ∉ host.toList ∧ s.toList = host.toList ++ ':' :: port.toList) ∨
          s.toList = '[' :: host.toList ++ [']'] ++ ':' :: port.toList) := by
  constructor
  · intro h
    unfold splitHostPort at h
    rcases Segments.free_or_last (p := (· == ':')) s.toList with hfree | ⟨xs, c, ps, hs, hc, hps⟩
    · have hnone : lastColon s.toList = none := if_neg fun hmem => by simpa using hfree ':' hmem
      simp [hnone] at h
    · obtain rfl : c = ':' := by simpa using hc
      have hps' : ':' ∉ ps := fun hmem => by simpa using hps ':' hmem
      cases hhost : hostOf (xs ++ ':' :: ps) xs.length with
      | error why => simp [hs, lastColon_append xs hps', hhost] at h
      | ok found =>
        obtain ⟨cs, j, k⟩ := found
        have hsplit := splitHostPort_of_hostOf hs hps' hhost
        unfold splitHostPort at hsplit
        rw [hsplit] at h
        split_ifs at h with hopen hclose
        cases h
        simp only [String.toList_ofList]
        obtain ⟨rfl, hcolon, rfl, rfl⟩ | ⟨rfl, hcs, rfl, rfl⟩ := hostOf_cases hhost
        · rw [List.drop_zero, List.mem_append, List.mem_cons, not_or, not_or] at hopen hclose
          exact ⟨⟨hopen.1, hclose.1⟩, ⟨hopen.2.2, hclose.2.2⟩, hps', .inl ⟨hcolon, hs⟩⟩
        · have hopen' : '[' ∉ cs ∧ '[' ∉ ps := by simpa using hopen
          have hclose' : ']' ∉ ps := by simpa using hclose
          exact ⟨⟨hopen'.1, hcs⟩, ⟨hopen'.2, hclose'⟩, hps', .inr hs⟩
  · rintro ⟨hhost, hport, hcolon, ⟨hplain, hs⟩ | hs⟩
    · rw [splitHostPort_of_hostOf hs hcolon (hostOf_plain hplain hhost), List.drop_zero,
        if_neg (by simp [hhost.1, hport.1]), if_neg (by simp [hhost.2, hport.2]),
        String.ofList_toList, String.ofList_toList]
    · have hlength : ('[' :: host.toList ++ [']']).length = host.toList.length + 2 := by simp
      have hfound : hostOf ('[' :: host.toList ++ [']'] ++ ':' :: port.toList)
          ('[' :: host.toList ++ [']']).length = .ok (host.toList, 1, host.toList.length + 2) := by
        rw [hlength]
        exact hostOf_bracketed hhost.2
      have hrest : ('[' :: host.toList ++ [']'] ++ ':' :: port.toList).drop
          (host.toList.length + 2) = ':' :: port.toList := List.drop_left' hlength
      rw [splitHostPort_of_hostOf hs hcolon hfound, hrest, if_neg (by simp [hhost.1, hport.1]),
        if_neg (by simp [hport.2]), String.ofList_toList, String.ofList_toList]

/-- What `SplitHostPort` makes of the result of `JoinHostPort`: the parts again, but for brackets
that were in the host before. -/
theorem splitHostPort_joinHostPort_iff {name port host port' : String} (hport : Bare port.toList)
    (hcolon : ':' ∉ port.toList) :
    splitHostPort (joinHostPort name port) = .ok (host, port') ↔
      port' = port ∧ Bare host.toList ∧
        (host = name ∨ (':' ∉ host.toList ∧ name.toList = '[' :: host.toList ++ [']'])) := by
  rw [splitHostPort_eq_ok_iff]
  by_cases hname : ':' ∈ name.toList
  · have hjoin : (joinHostPort name port).toList =
        '[' :: name.toList ++ [']'] ++ ':' :: port.toList := by
      simp [joinHostPort, hname]
    rw [hjoin]
    constructor
    · rintro ⟨hbare, -, hcolon', ⟨-, hs⟩ | hs⟩
      · have hopen := (eq_of_last_colon hcolon hcolon' hs).1
        exact absurd (hopen ▸ by simp : '[' ∈ host.toList) hbare.1
      · obtain ⟨hhost, hport'⟩ := eq_of_last_colon hcolon hcolon' hs
        have hlist : name.toList = host.toList := by simpa using hhost
        exact ⟨String.toList_inj.mp hport'.symm, hbare, .inl (String.toList_inj.mp hlist.symm)⟩
    · rintro ⟨rfl, hbare, rfl | ⟨hnot, hlist⟩⟩
      · exact ⟨hbare, hport, hcolon, .inr rfl⟩
      · rw [hlist] at hname
        exact absurd (by simpa using hname) hnot
  · have hjoin : (joinHostPort name port).toList = name.toList ++ ':' :: port.toList := by
      simp [joinHostPort, hname]
    rw [hjoin]
    constructor
    · rintro ⟨hbare, -, hcolon', ⟨-, hs⟩ | hs⟩
      · obtain ⟨hhost, hport'⟩ := eq_of_last_colon hcolon hcolon' hs
        exact ⟨String.toList_inj.mp hport'.symm, hbare, .inl (String.toList_inj.mp hhost.symm)⟩
      · obtain ⟨hhost, hport'⟩ := eq_of_last_colon hcolon hcolon' hs
        refine ⟨String.toList_inj.mp hport'.symm, hbare, .inr ⟨fun hmem => hname ?_, hhost⟩⟩
        rw [hhost]
        simp [hmem]
    · rintro ⟨rfl, hbare, rfl | ⟨hnot, hlist⟩⟩
      · exact ⟨hbare, hport, hcolon, .inl ⟨hname, rfl⟩⟩
      · exact ⟨hbare, hport, hcolon, .inr (by rw [hlist])⟩

end Kne.HostPorts
