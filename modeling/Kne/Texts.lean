import Mathlib
import Kne.Segments

/-!
The functions of Go's `strings` and `strconv` that the program uses on short texts.
-/

namespace Kne.Texts

/-- `strings.Contains`. -/
def contains (s sub : String) : Bool := decide (sub.toList <:+: s.toList)

/-- `unicode.ToLower`. Of the letters outside of ASCII only these two have a lower case inside, and
only words of ASCII are looked for in the result. -/
def lowerChar (c : Char) : Char :=
  if c = 'İ' then 'i' else if c = 'K' then 'k' else c.toLower

/-- `strings.ToLower`. -/
def toLower (s : String) : String := String.ofList (s.toList.map lowerChar)

/-- `strings.Trim` of blanks. -/
def trimBlanks (s : String) : String :=
  String.ofList ((s.toList.dropWhile (· = ' ')).reverse.dropWhile (· = ' ')).reverse

/-- `strings.HasPrefix`. -/
def hasPrefix (s pre : String) : Bool := decide (pre.toList <+: s.toList)

/-- `strings.TrimPrefix`. -/
def trimPrefix (s pre : String) : String :=
  if hasPrefix s pre then String.ofList (s.toList.drop pre.toList.length) else s

lemma hasPrefix_append (pre s : String) : hasPrefix (pre ++ s) pre = true := by
  simp [hasPrefix]

lemma trimPrefix_append (pre s : String) : trimPrefix (pre ++ s) pre = s := by
  rw [trimPrefix, if_pos (hasPrefix_append pre s), String.toList_append, List.drop_left]
  exact String.ofList_toList

/-! ### Lines -/

/-- `strings.Split` at the ends of lines. -/
def lines (s : String) : List String := (s.toList.splitOn '\n').map String.ofList

lemma not_mem_of_mem_splitOn {a : Char} {cs l : List Char} (h : l ∈ cs.splitOn a) : a ∉ l := by
  intro hmem
  have hfree : (a == a) = false := Segments.free_of_mem_splitOnP h a hmem
  simp at hfree

lemma newline_not_mem {s line : String} (h : line ∈ lines s) : '\n' ∉ line.toList := by
  obtain ⟨cs, hcs, rfl⟩ := List.mem_map.mp h
  rw [String.toList_ofList]
  exact not_mem_of_mem_splitOn hcs

lemma lines_append {line : String} (h : '\n' ∉ line.toList) (s : String) :
    lines (line ++ "\n" ++ s) = line :: lines s := by
  have hlist : (line ++ "\n" ++ s).toList = line.toList ++ '\n' :: s.toList := by
    simp [String.toList_append]
  rw [lines, hlist, List.splitOn_append_cons_self_of_not_mem h, List.map_cons,
    String.ofList_toList]
  rfl

/-! ### Numbers -/

/-- What `strconv` finds wrong with a number. -/
inductive NumError
  | malformed
  | outOfRange
  deriving DecidableEq, Repr

/-- The loop of `strconv.ParseUint` over the digits of a number of some bits, with what has been
read so far. -/
def parseUint (bits : ℕ) : ℕ → List Char → Except NumError ℕ
  | n, [] => .ok n
  | n, c :: cs =>
    if !c.isDigit then .error .malformed
    else if 10 * n + (c.toNat - '0'.toNat) < 2 ^ bits then
      parseUint bits (10 * n + (c.toNat - '0'.toNat)) cs
    else .error .outOfRange

/-- The number of `strconv.Atoi` without its sign: the nearest one to a number out of range. -/
def atoiAbs (neg : Bool) (digits : List Char) : Int64 × Option NumError :=
  if digits = [] then (0, some .malformed)
  else
    match parseUint 64 0 digits with
    | .error .malformed => (0, some .malformed)
    | .error .outOfRange =>
      (if neg then Int64.minValue else Int64.maxValue, some .outOfRange)
    | .ok un =>
      if neg then
        if un > 2 ^ 63 then (Int64.minValue, some .outOfRange) else (Int64.ofInt (-un), none)
      else
        if un ≥ 2 ^ 63 then (Int64.maxValue, some .outOfRange) else (Int64.ofInt un, none)

/-- `strconv.Atoi`. -/
def atoi : List Char → Int64 × Option NumError
  | '-' :: digits => atoiAbs true digits
  | '+' :: digits => atoiAbs false digits
  | digits => atoiAbs false digits

lemma le_ofDigitChars (n : ℕ) (cs : List Char) : n ≤ Nat.ofDigitChars 10 cs n := by
  induction cs generalizing n with
  | nil => exact le_rfl
  | cons c cs ih =>
    calc
      n ≤ 10 * n + (c.toNat - '0'.toNat) := by omega
      _ ≤ Nat.ofDigitChars 10 (c :: cs) n := ih _

/-- **Digits are read as the number they stand for**, if that has so many bits. -/
lemma parseUint_digits {bits n : ℕ} {cs : List Char} (hcs : ∀ c ∈ cs, c.isDigit = true)
    (hn : n < 2 ^ bits) :
    parseUint bits n cs =
      if Nat.ofDigitChars 10 cs n < 2 ^ bits then .ok (Nat.ofDigitChars 10 cs n)
      else .error .outOfRange := by
  induction cs generalizing n with
  | nil => exact (if_pos hn).symm
  | cons c cs ih =>
    obtain ⟨hc, hcs⟩ := List.forall_mem_cons.mp hcs
    have hread : Nat.ofDigitChars 10 (c :: cs) n =
        Nat.ofDigitChars 10 cs (10 * n + (c.toNat - '0'.toNat)) := rfl
    rw [parseUint, if_neg (by simp [hc]), hread]
    split
    case isTrue hsmall => exact ih hcs hsmall
    case isFalse hlarge =>
      have hle := le_ofDigitChars (10 * n + (c.toNat - '0'.toNat)) cs
      rw [if_neg (by omega)]

/-- The number of `strconv.ParseInt` without its sign. -/
def parseIntAbs (bits : ℕ) (neg : Bool) (digits : List Char) : Except NumError ℤ :=
  if digits = [] then .error .malformed
  else
    match parseUint bits 0 digits with
    | .error err => .error err
    | .ok un =>
      if neg then
        if un > 2 ^ (bits - 1) then .error .outOfRange else .ok (-un)
      else
        if un ≥ 2 ^ (bits - 1) then .error .outOfRange else .ok un

/-- `strconv.ParseInt` to the base ten. The number that comes with an error is left out. -/
def parseInt (bits : ℕ) : List Char → Except NumError ℤ
  | '-' :: digits => parseIntAbs bits true digits
  | '+' :: digits => parseIntAbs bits false digits
  | digits => parseIntAbs bits false digits

lemma parseInt_digits {bits : ℕ} {cs : List Char} (hne : cs ≠ [])
    (hcs : ∀ c ∈ cs, c.isDigit = true) :
    parseInt bits cs =
      if Nat.ofDigitChars 10 cs 0 < 2 ^ (bits - 1) then .ok (Nat.ofDigitChars 10 cs 0 : ℤ)
      else .error .outOfRange := by
  have habs : parseIntAbs bits false cs =
      if Nat.ofDigitChars 10 cs 0 < 2 ^ (bits - 1) then .ok (Nat.ofDigitChars 10 cs 0 : ℤ)
      else .error .outOfRange := by
    have hle : 2 ^ (bits - 1) ≤ 2 ^ bits := Nat.pow_le_pow_right (by omega) (by omega)
    rw [parseIntAbs, if_neg hne, parseUint_digits hcs (Nat.two_pow_pos bits)]
    by_cases hsmall : Nat.ofDigitChars 10 cs 0 < 2 ^ bits
    · rw [if_pos hsmall]
      by_cases hfits : Nat.ofDigitChars 10 cs 0 < 2 ^ (bits - 1)
      · simp [hfits]
      · simp [hfits, Nat.not_lt.mp hfits]
    · rw [if_neg hsmall, if_neg (by omega)]
  rw [parseInt.eq_def]
  split
  · exact absurd (hcs '-' (by simp [*])) (by decide)
  · exact absurd (hcs '+' (by simp [*])) (by decide)
  · exact habs

lemma atoi_toDigits {n : ℕ} (hn : n < 2 ^ 63) :
    atoi (Nat.toDigits 10 n) = (Int64.ofInt n, none) := by
  have hdigits : ∀ c ∈ Nat.toDigits 10 n, c.isDigit = true := fun c hc =>
    Nat.isDigit_of_mem_toDigits (by omega) (by omega) hc
  have hback : Nat.ofDigitChars 10 (Nat.toDigits 10 n) 0 = n :=
    Nat.ofDigitChars_toDigits (by omega) (by omega)
  have hparse : parseUint 64 0 (Nat.toDigits 10 n) = .ok n := by
    rw [parseUint_digits hdigits (by omega), hback, if_pos (by omega)]
  have hne : Nat.toDigits 10 n ≠ [] := Nat.toDigits_ne_nil
  have habs : atoiAbs false (Nat.toDigits 10 n) = (Int64.ofInt n, none) := by
    have hfits : ¬ n ≥ 2 ^ 63 := by omega
    simp only [atoiAbs, if_neg hne, hparse, if_neg Bool.false_ne_true, if_neg hfits]
  rw [atoi.eq_def]
  split
  · exact absurd (hdigits '-' (by simp [*])) (by decide)
  · exact absurd (hdigits '+' (by simp [*])) (by decide)
  · exact habs

lemma toString_int64_injective : Function.Injective (toString : Int64 → String) := by
  intro x y h
  have hrepr : x.toInt.repr = y.toInt.repr := h
  exact Int64.toInt_inj.mp (Int.repr_injective hrepr)

end Kne.Texts
