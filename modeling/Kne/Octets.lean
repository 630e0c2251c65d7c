import Mathlib.Data.Nat.Digits.Lemmas
import Mathlib.Tactic

/-!
Numbers held in bytes, the most significant byte first: adding one with a carry from the last byte
on, and the masks of which the first bits are ones.
-/

namespace Kne.Octets

/-- The number that bytes hold. -/
def value (bs : List UInt8) : ℕ := Nat.ofDigits 256 (bs.reverse.map UInt8.toNat)

variable {b : UInt8} {bs cs : List UInt8} {n : ℕ}

@[simp] lemma value_nil : value [] = 0 := rfl

lemma value_cons (b : UInt8) (bs : List UInt8) :
    value (b :: bs) = b.toNat * 256 ^ bs.length + value bs := by
  simp [value, Nat.ofDigits_append]
  ring

lemma value_concat (bs : List UInt8) (b : UInt8) :
    value (bs ++ [b]) = b.toNat + 256 * value bs := by
  simp [value, Nat.ofDigits_cons]

lemma forall_digit_lt (bs : List UInt8) : ∀ d ∈ bs.reverse.map UInt8.toNat, d < 256 := by
  intro d hd
  obtain ⟨b, -, rfl⟩ := List.mem_map.mp hd
  exact b.toNat_lt

lemma value_lt (bs : List UInt8) : value bs < 256 ^ bs.length := by
  have h := Nat.ofDigits_lt_base_pow_length (by omega) (forall_digit_lt bs)
  rwa [List.length_map, List.length_reverse] at h

lemma eq_of_value_eq (hlen : bs.length = cs.length) (h : value bs = value cs) : bs = cs := by
  have hdigits := Nat.ofDigits_inj_of_len_eq (by omega) (by simpa using hlen)
    (forall_digit_lt bs) (forall_digit_lt cs) h
  have hinj : Function.Injective UInt8.toNat := fun _ _ => UInt8.toNat_inj.mp
  exact List.reverse_injective (List.map_injective_iff.mpr hinj hdigits)

/-! ### Adding one -/

/-- One is added to the first byte, and to the next if that gives zero. -/
def carry : List UInt8 → List UInt8
  | [] => []
  | b :: bs => if b + 1 > 0 then (b + 1) :: bs else (b + 1) :: carry bs

/-- One is added to the last byte, with the carry. -/
def bump (bs : List UInt8) : List UInt8 := (carry bs.reverse).reverse

lemma length_carry (bs : List UInt8) : (carry bs).length = bs.length := by
  induction bs with
  | nil => rfl
  | cons b bs ih =>
    rw [carry]
    split
    · rfl
    · rw [List.length_cons, List.length_cons, ih]

@[simp] lemma length_bump (bs : List UInt8) : (bump bs).length = bs.length := by
  simp [bump, length_carry]

lemma value_carry (bs : List UInt8) :
    value (carry bs).reverse = (value bs.reverse + 1) % 256 ^ bs.length := by
  induction bs with
  | nil => rfl
  | cons b bs ih =>
    have hlt := value_lt bs.reverse
    rw [List.length_reverse] at hlt
    rw [carry, List.length_cons, Nat.pow_succ', List.reverse_cons, value_concat]
    by_cases hb : b.toNat = 255
    · -- the byte becomes zero and the carry goes on
      have hzero : b + 1 = 0 := by
        rw [← UInt8.toNat_inj, UInt8.toNat_add, hb]
        rfl
      rw [hzero, if_neg (by decide), List.reverse_cons, value_concat, ih, hb]
      have hsum : 255 + 256 * value bs.reverse + 1 = 256 * (value bs.reverse + 1) := by ring
      rw [hsum, Nat.mul_mod_mul_left]
      simp
    · have hbyte : b.toNat < 255 := by
        have := b.toNat_lt
        omega
      have hnext : (b + 1).toNat = b.toNat + 1 := by
        rw [UInt8.toNat_add]
        exact Nat.mod_eq_of_lt (by simpa using Nat.succ_lt_succ hbyte)
      have hpos : b + 1 > 0 := by
        rw [gt_iff_lt, UInt8.lt_iff_toNat_lt, hnext]
        exact Nat.succ_pos _
      rw [if_pos hpos, List.reverse_cons, value_concat, hnext]
      rw [Nat.mod_eq_of_lt (by omega)]
      ring

/-- **Adding one** adds one to the number, which starts again at zero after the largest one. -/
lemma value_bump (bs : List UInt8) : value (bump bs) = (value bs + 1) % 256 ^ bs.length := by
  have h := value_carry bs.reverse
  rwa [List.reverse_reverse, List.length_reverse] at h

@[simp] lemma length_iterate_bump (n : ℕ) (bs : List UInt8) : (bump^[n] bs).length = bs.length := by
  induction n with
  | zero => rfl
  | succ n ih => rw [Function.iterate_succ_apply', length_bump, ih]

lemma value_iterate_bump (n : ℕ) (bs : List UInt8) :
    value (bump^[n] bs) = (value bs + n) % 256 ^ bs.length := by
  induction n with
  | zero => exact (Nat.mod_eq_of_lt (value_lt bs)).symm
  | succ n ih =>
    rw [Function.iterate_succ_apply', value_bump, ih, length_iterate_bump, Nat.mod_add_mod,
      Nat.add_assoc]

/-! ### Masks -/

/-- A mask of some bytes that begins with some ones. -/
def onesMask (n : ℕ) : ℕ → List UInt8
  | 0 => []
  | l + 1 =>
    if n ≥ 8 then 0xff :: onesMask (n - 8) l else ~~~(0xff >>> UInt8.ofNat n) :: onesMask 0 l

/-- The bits that the mask leaves. -/
def masked (n : ℕ) (bs : List UInt8) : List UInt8 :=
  List.zipWith (· &&& ·) bs (onesMask n bs.length)

@[simp] lemma length_onesMask (n l : ℕ) : (onesMask n l).length = l := by
  induction l generalizing n with
  | zero => rfl
  | succ l ih =>
    rw [onesMask]
    split <;> rw [List.length_cons, ih]

@[simp] lemma length_masked (n : ℕ) (bs : List UInt8) : (masked n bs).length = bs.length := by
  simp [masked]

lemma toNat_and_ones (hn : n < 8) (b : UInt8) :
    (b &&& ~~~(0xff >>> UInt8.ofNat n)).toNat = b.toNat / 2 ^ (8 - n) * 2 ^ (8 - n) := by
  have hmask : ∀ n < 8, (~~~(0xff >>> UInt8.ofNat n) : UInt8).toNat =
      (2 ^ n - 1) <<< (8 - n) := by decide
  rw [UInt8.toNat_and, hmask n hn, ← Nat.shiftRight_eq_div_pow, ← Nat.shiftLeft_eq]
  apply Nat.eq_of_testBit_eq
  intro i
  rw [Nat.testBit_and, Nat.testBit_shiftLeft, Nat.testBit_shiftLeft, Nat.testBit_shiftRight,
    Nat.testBit_two_pow_sub_one]
  by_cases hi : 8 - n ≤ i
  · rw [Nat.add_sub_cancel' hi]
    by_cases hbyte : i < 8
    · have hone : i - (8 - n) < n := by omega
      simp [hi, hone]
    · -- there are no more bits
      have hpow : 2 ^ 8 ≤ 2 ^ i := Nat.pow_le_pow_right (by omega) (by omega)
      have hzero : b.toNat.testBit i = false := Nat.testBit_lt_two_pow (b.toNat_lt.trans_le hpow)
      simp [hzero]
  · simp [hi]

lemma and_ff (b : UInt8) : b &&& 0xff = b := by
  rw [← UInt8.toNat_inj, UInt8.toNat_and]
  exact Nat.and_two_pow_sub_one_of_lt_two_pow b.toNat_lt

/-- **A mask rounds down** to a multiple of the numbers that it leaves out. -/
lemma value_masked (hn : n ≤ 8 * bs.length) :
    value (masked n bs) = value bs / 2 ^ (8 * bs.length - n) * 2 ^ (8 * bs.length - n) := by
  induction bs generalizing n with
  | nil => simp [masked]
  | cons b bs ih =>
    have hlt := value_lt bs
    have hbytes : (256 : ℕ) ^ bs.length = 2 ^ (8 * bs.length) := by rw [pow_mul]; norm_num
    rw [List.length_cons] at hn
    by_cases h8 : n ≥ 8
    · -- the first byte is left as it is
      have hmasked : masked n (b :: bs) = b :: masked (n - 8) bs := by
        simp [masked, onesMask, h8, and_ff]
      have hexp : 8 * (b :: bs).length - n = 8 * bs.length - (n - 8) := by
        rw [List.length_cons]
        omega
      have hsplit : (256 : ℕ) ^ bs.length = 2 ^ (8 * bs.length - (n - 8)) * 2 ^ (n - 8) := by
        rw [hbytes, ← pow_add]
        congr 1
        omega
      rw [hmasked, hexp, value_cons, value_cons, length_masked, ih (by omega), hsplit]
      have hdiv : (b.toNat * (2 ^ (8 * bs.length - (n - 8)) * 2 ^ (n - 8)) + value bs) /
          2 ^ (8 * bs.length - (n - 8)) =
          b.toNat * 2 ^ (n - 8) + value bs / 2 ^ (8 * bs.length - (n - 8)) := by
        rw [Nat.mul_left_comm, Nat.mul_add_div (by positivity)]
      rw [hdiv]
      ring
    · -- the other bytes become zero
      have hmasked : masked n (b :: bs) = (b &&& ~~~(0xff >>> UInt8.ofNat n)) :: masked 0 bs := by
        simp [masked, onesMask, h8]
      have hexp : 8 * (b :: bs).length - n = 8 * bs.length + (8 - n) := by
        rw [List.length_cons]
        omega
      have hrest : value (masked 0 bs) = 0 := by
        rw [ih (Nat.zero_le _), Nat.sub_zero, ← hbytes, Nat.div_eq_of_lt hlt, Nat.zero_mul]
      rw [hmasked, hexp, value_cons, value_cons, length_masked, hrest, Nat.add_zero, pow_add,
        ← hbytes, toNat_and_ones (by omega), ← Nat.div_div_eq_div_mul]
      have hdiv : (b.toNat * 256 ^ bs.length + value bs) / 256 ^ bs.length = b.toNat := by
        rw [Nat.mul_comm, Nat.mul_add_div (by positivity), Nat.div_eq_of_lt hlt, Nat.add_zero]
      rw [hdiv]
      ring

lemma masked_masked (hn : n ≤ 8 * bs.length) : masked n (masked n bs) = masked n bs := by
  apply eq_of_value_eq (by simp)
  rw [value_masked (by simpa using hn), length_masked, value_masked hn,
    Nat.mul_div_cancel _ (by positivity)]

end Kne.Octets
