import Mathlib.Tactic.Ring
import PowGate.Pow

/-! The target of a difficulty on both sides: long division in the server, a big-integer quotient
in the solver, and the byte-wise comparison that both of them make. -/
namespace PowGate

/-- The number a big-endian byte string denotes. -/
def bigEndian : Bytes → Nat
  | [] => 0
  | byte :: rest => byte.toNat * 256 ^ rest.length + bigEndian rest

/-- What the loop of the division starts each turn with, and what it then divides. -/
def divisionSteps (d : Nat) : List UInt8 → Nat → List (Nat × Nat)
  | [], _ => []
  | digit :: rest, remainder =>
    let cur := (remainder <<< 8 % 2 ^ 128) ||| digit.toNat
    (remainder, cur) :: divisionSteps d rest (cur % d)

/-- The numerator `2^256` in base 256. -/
def numerator : List UInt8 := 1 :: List.replicate 32 0

namespace Solver

/-- The loop that writes the bytes of `q` from the last to the first. -/
def digits : Nat → Nat → Bytes → Bytes
  | 0, _, written => written
  | i + 1, q, written => digits i (q >>> 8) ((q &&& 0xff).toUInt8 :: written)

/-- `difficultyToTarget` of the solver, on big integers. -/
def difficultyToTarget (difficulty : Nat) : Bytes :=
  if difficulty ≤ 1 then List.replicate 32 0xff else digits 32 ((1 <<< 256) / difficulty) []

/-- The loop of `below` from index `i` on. -/
def belowFrom (hash target : Bytes) : Nat → Nat → Bool
  | 0, _ => false
  | left + 1, i =>
    if hash.getD i 0 ≠ target.getD i 0 then hash.getD i 0 < target.getD i 0
    else belowFrom hash target left (i + 1)

def below (hash target : Bytes) : Bool := belowFrom hash target 32 0

end Solver

theorem bigEndian_lt (bytes : Bytes) : bigEndian bytes < 256 ^ bytes.length := by
  induction bytes with
  | nil => simp [bigEndian]
  | cons byte rest ih =>
    have small := byte.toNat_lt
    rw [bigEndian,List.length_cons,Nat.pow_succ]
    have scaled : byte.toNat * 256 ^ rest.length ≤ 255 * 256 ^ rest.length := Nat.mul_le_mul_right _ (by omega)
    omega

theorem bigEndian_replicate_zero (n : Nat) : bigEndian (List.replicate n 0) = 0 := by
  induction n with
  | zero => rfl
  | succ n ih => simp [List.replicate_succ,bigEndian,ih]

/-- Comparing the first bytes that differ is comparing the numbers. -/
theorem hashBelow_iff {hash target : Bytes} (size : hash.length = target.length) :
    hashBelow hash target = true ↔ bigEndian hash < bigEndian target := by
  induction hash generalizing target with
  | nil =>
    cases target with
    | nil => simp [hashBelow]
    | cons t target => simp at size
  | cons h hash ih =>
    cases target with
    | nil => simp at size
    | cons t target =>
      have same : hash.length = target.length := Nat.succ.inj size
      have low := bigEndian_lt hash
      have high := bigEndian_lt target
      rw [same] at low
      simp only [hashBelow,bigEndian,same]
      by_cases equal : h = t
      · subst equal
        simp [ih same]
      · have differ : h.toNat ≠ t.toNat := fun same => equal (UInt8.toNat_inj.mp same)
        simp only [ne_eq,equal,not_false_eq_true,if_true,decide_eq_true_eq,UInt8.lt_iff_toNat_lt]
        rcases Nat.lt_or_gt_of_ne differ with less | more
        · have gap : (h.toNat + 1) * 256 ^ target.length ≤ t.toNat * 256 ^ target.length :=
            Nat.mul_le_mul_right _ less
          rw [Nat.add_mul,Nat.one_mul] at gap
          omega
        · have gap : (t.toNat + 1) * 256 ^ target.length ≤ h.toNat * 256 ^ target.length :=
            Nat.mul_le_mul_right _ more
          rw [Nat.add_mul,Nat.one_mul] at gap
          omega

section Division

variable {d remainder : Nat}

/-- With a divisor of 64 bits no bit is shifted out, and the digit fills the cleared byte. -/
theorem cur_eq (small : remainder < d) (word : d < 2 ^ 64) (digit : UInt8) :
    (remainder <<< 8 % 2 ^ 128) ||| digit.toNat = remainder * 256 + digit.toNat := by
  have digitSmall := digit.toNat_lt
  have shifted : remainder <<< 8 = remainder * 256 := Nat.shiftLeft_eq remainder 8
  rw [Nat.mod_eq_of_lt (by omega),← Nat.shiftLeft_add_eq_or_of_lt digitSmall,shifted]

theorem quotient_lt (small : remainder < d) (digit : UInt8) : (remainder * 256 + digit.toNat) / d < 256 := by
  have digitSmall := digit.toNat_lt
  rw [Nat.div_lt_iff_lt_mul (by omega)]
  omega

theorem length_longDivision (digits : List UInt8) : (longDivision d digits remainder).length = digits.length := by
  induction digits generalizing remainder with
  | nil => rfl
  | cons digit rest ih => simp [longDivision,ih]

/-- The invariant of the loop: what was brought down is quotient times divisor plus remainder. -/
theorem longDivision_spec (word : d < 2 ^ 64) (digits : List UInt8) (small : remainder < d) :
    ∃ left < d, remainder * 256 ^ digits.length + bigEndian digits =
      bigEndian (longDivision d digits remainder) * d + left := by
  induction digits generalizing remainder with
  | nil => exact ⟨remainder, small, by simp [longDivision,bigEndian]⟩
  | cons digit rest ih =>
    have quotient := quotient_lt small digit
    obtain ⟨left, leftSmall, equation⟩ := ih (Nat.mod_lt (remainder * 256 + digit.toNat) (Nat.zero_lt_of_lt small))
    refine ⟨left, leftSmall, ?_⟩
    rw [longDivision,cur_eq small word,bigEndian,bigEndian,length_longDivision,
      Base64.toNat_toUInt8 quotient,List.length_cons,Nat.pow_succ]
    have divided := Nat.div_add_mod (remainder * 256 + digit.toNat) d
    calc remainder * (256 ^ rest.length * 256) + (digit.toNat * 256 ^ rest.length + bigEndian rest)
        = (remainder * 256 + digit.toNat) * 256 ^ rest.length + bigEndian rest := by ring
      _ = (d * ((remainder * 256 + digit.toNat) / d) + (remainder * 256 + digit.toNat) % d) * 256 ^ rest.length +
            bigEndian rest := by rw [divided]
      _ = (remainder * 256 + digit.toNat) / d * 256 ^ rest.length * d +
            ((remainder * 256 + digit.toNat) % d * 256 ^ rest.length + bigEndian rest) := by ring
      _ = ((remainder * 256 + digit.toNat) / d * 256 ^ rest.length +
            bigEndian (longDivision d rest ((remainder * 256 + digit.toNat) % d))) * d + left := by
          rw [equation]
          ring

/-- No turn loses a bit in the shift or in the cast of its digit. -/
theorem divisionSteps_exact (word : d < 2 ^ 64) (digits : List UInt8) (small : remainder < d) :
    ∀ step ∈ divisionSteps d digits remainder, step.1 <<< 8 < 2 ^ 128 ∧ step.2 / d < 256 := by
  induction digits generalizing remainder with
  | nil => simp [divisionSteps]
  | cons digit rest ih =>
    have shifted : remainder <<< 8 = remainder * 256 := Nat.shiftLeft_eq remainder 8
    rw [divisionSteps,cur_eq small word]
    refine List.forall_mem_cons.mpr ⟨⟨by omega, quotient_lt small digit⟩, ?_⟩
    exact ih (Nat.mod_lt _ (Nat.zero_lt_of_lt small))

end Division

theorem bigEndian_numerator : bigEndian numerator = 2 ^ 256 := by
  rw [numerator,bigEndian,bigEndian_replicate_zero,List.length_replicate]
  rfl

section Target

variable {d : UInt64}

theorem one_lt_toNat (large : 2 ≤ d) : 1 < d.toNat := by
  have := UInt64.le_iff_toNat_le.mp large
  exact this

/-- The first of the 33 quotient digits is zero. -/
theorem longDivision_head (large : 2 ≤ d) : (longDivision d.toNat numerator 0).head? = some 0 := by
  have one := one_lt_toNat large
  have zero : 1 / d.toNat = 0 := Nat.div_eq_of_lt one
  simp [numerator,longDivision,zero]

theorem difficultyToTarget_eq (large : 2 ≤ d) :
    difficultyToTarget d = (longDivision d.toNat numerator 0).drop 1 := by
  have one : ¬ d ≤ 1 := by
    rw [UInt64.le_iff_toNat_le]
    exact Nat.not_le.mpr (one_lt_toNat large)
  rw [difficultyToTarget,if_neg one,numerator]

theorem length_difficultyToTarget (d : UInt64) : (difficultyToTarget d).length = 32 := by
  unfold difficultyToTarget
  split
  · exact List.length_replicate
  · rw [List.length_drop,length_longDivision]
    rfl

/-- The target is the quotient, digit for digit. -/
theorem bigEndian_difficultyToTarget (large : 2 ≤ d) : bigEndian (difficultyToTarget d) = 2 ^ 256 / d.toNat := by
  have one := one_lt_toNat large
  obtain ⟨left, leftSmall, equation⟩ := longDivision_spec d.toNat_lt numerator (Nat.zero_lt_of_lt one)
  rw [Nat.zero_mul,Nat.zero_add,bigEndian_numerator] at equation
  have whole : bigEndian (longDivision d.toNat numerator 0) = 2 ^ 256 / d.toNat := by
    rw [equation,Nat.mul_comm,Nat.mul_add_div (Nat.zero_lt_of_lt one),Nat.div_eq_of_lt leftSmall,Nat.add_zero]
  rw [difficultyToTarget_eq large,← whole]
  obtain ⟨first, rest⟩ := List.head?_eq_some_iff.mp (longDivision_head large)
  rw [rest]
  simp [bigEndian]

/-- Raising the difficulty never raises the target. -/
theorem difficultyToTarget_antitone {d d' : UInt64} (order : d ≤ d') :
    bigEndian (difficultyToTarget d') ≤ bigEndian (difficultyToTarget d) := by
  have orderNat := UInt64.le_iff_toNat_le.mp order
  by_cases off : d ≤ 1
  · have most : bigEndian (difficultyToTarget d) + 1 = 256 ^ 32 := by
      rw [difficultyToTarget,if_pos off]
      decide +kernel
    have bound := bigEndian_lt (difficultyToTarget d')
    rw [length_difficultyToTarget] at bound
    omega
  · have large : 2 ≤ d := by
      rw [UInt64.le_iff_toNat_le] at off ⊢
      exact Nat.not_le.mp off
    have one := one_lt_toNat large
    rw [bigEndian_difficultyToTarget large,bigEndian_difficultyToTarget (UInt64.le_trans large order)]
    exact Nat.div_le_div_left orderNat (Nat.zero_lt_of_lt one)

theorem below_target_iff (hash : Digest) (large : 2 ≤ d) :
    hashBelow hash.toList (difficultyToTarget d) = true ↔ (bigEndian hash.toList + 1) * d.toNat ≤ 2 ^ 256 := by
  have size : hash.toList.length = (difficultyToTarget d).length := by simp [length_difficultyToTarget]
  rw [hashBelow_iff size,bigEndian_difficultyToTarget large,← Nat.succ_le_iff,
    Nat.le_div_iff_mul_le (Nat.zero_lt_of_lt (one_lt_toNat large))]

end Target

theorem bigEndian_injective {a b : Bytes} (size : a.length = b.length) (same : bigEndian a = bigEndian b) : a = b := by
  induction a generalizing b with
  | nil => exact (List.length_eq_zero_iff.mp size.symm).symm
  | cons x a ih =>
    cases b with
    | nil => simp at size
    | cons y b =>
      have sizes : a.length = b.length := Nat.succ.inj size
      have low := bigEndian_lt a
      have high := bigEndian_lt b
      have positive : 0 < 256 ^ b.length := Nat.pow_pos (by decide)
      rw [sizes] at low
      simp only [bigEndian,sizes] at same
      have first : x.toNat = y.toNat := by
        have quotient := congrArg (· / 256 ^ b.length) same
        simpa [Nat.mul_comm _ (256 ^ b.length),Nat.mul_add_div positive,Nat.div_eq_of_lt low,Nat.div_eq_of_lt high]
          using quotient
      rw [first] at same
      rw [UInt8.toNat_inj.mp first,ih sizes (Nat.add_left_cancel same)]

namespace Solver

theorem length_digits (n q : Nat) (written : Bytes) : (digits n q written).length = n + written.length := by
  induction n generalizing q written with
  | zero => simp [digits]
  | succ n ih =>
    rw [digits,ih,List.length_cons]
    omega

/-- The loop writes the low bytes of `q` in front of what it has written. -/
theorem bigEndian_digits (n q : Nat) (written : Bytes) :
    bigEndian (digits n q written) = q % 256 ^ n * 256 ^ written.length + bigEndian written := by
  induction n generalizing q written with
  | zero => simp [digits,Nat.mod_one]
  | succ n ih =>
    have byte : ((q &&& 0xff).toUInt8).toNat = q % 256 := by
      have mask : q &&& 0xff = q % 256 := Nat.and_two_pow_sub_one_eq_mod q 8
      rw [mask,Base64.toNat_toUInt8 (Nat.mod_lt _ (by decide))]
    have shifted : q >>> 8 = q / 256 := Nat.shiftRight_eq_div_pow q 8
    have split : q % 256 ^ (n + 1) = q / 256 % 256 ^ n * 256 + q % 256 := by
      rw [Nat.pow_succ,Nat.mul_comm (256 ^ n),Nat.mod_mul,Nat.mul_comm,Nat.add_comm]
    rw [digits,ih,bigEndian,byte,shifted,split,List.length_cons,Nat.pow_succ]
    ring

/-- The solver's quotient has the digits of the server's long division. -/
theorem difficultyToTarget_eq {n : Nat} (small : n < 2 ^ 64) :
    difficultyToTarget n = PowGate.difficultyToTarget n.toUInt64 := by
  have same : n.toUInt64.toNat = n := by
    rw [Nat.toUInt64_eq,UInt64.toNat_ofNat']
    exact Nat.mod_eq_of_lt small
  by_cases off : n ≤ 1
  · have offServer : n.toUInt64 ≤ 1 := by
      rw [UInt64.le_iff_toNat_le,same]
      exact off
    rw [difficultyToTarget,if_pos off,PowGate.difficultyToTarget,if_pos offServer]
  · have large : 2 ≤ n.toUInt64 := by
      rw [UInt64.le_iff_toNat_le,same]
      exact Nat.not_le.mp off
    have whole : (1 <<< 256) / n < 256 ^ 32 := by
      rw [Nat.one_shiftLeft,Nat.div_lt_iff_lt_mul (by omega)]
      have : 256 ^ 32 * 2 ≤ 256 ^ 32 * n := Nat.mul_le_mul_left _ (by omega)
      omega
    rw [difficultyToTarget,if_neg off]
    apply bigEndian_injective
    · rw [length_digits,length_difficultyToTarget]
      rfl
    · rw [bigEndian_digits,bigEndian_difficultyToTarget large,same,Nat.mod_eq_of_lt whole,Nat.one_shiftLeft]
      simp [bigEndian]

theorem belowFrom_eq (hash target : Bytes) (left i : Nat) (size : hash.length = i + left)
    (sizes : target.length = i + left) : belowFrom hash target left i = hashBelow (hash.drop i) (target.drop i) := by
  induction left generalizing i with
  | zero => simp [belowFrom,hashBelow,List.drop_of_length_le,size,sizes]
  | succ left ih =>
    have inHash : i < hash.length := by omega
    have inTarget : i < target.length := by omega
    rw [belowFrom,ih (i + 1) (by omega) (by omega),List.drop_eq_getElem_cons inHash,
      List.drop_eq_getElem_cons inTarget,hashBelow]
    simp [inHash,inTarget]

end Solver

/-- The target is the exact quotient and the comparison is numeric, a higher difficulty admits no new hash, and
the solver computes the same target and the same verdict. -/
theorem target_exact :
    (∀ d : UInt64, 2 ≤ d →
      (difficultyToTarget d).length = 32 ∧ bigEndian (difficultyToTarget d) = 2 ^ 256 / d.toNat ∧
      (∀ step ∈ divisionSteps d.toNat numerator 0, step.1 <<< 8 < 2 ^ 128 ∧ step.2 / d.toNat < 256) ∧
      (longDivision d.toNat numerator 0).head? = some 0 ∧
      ∀ hash : Digest, hashBelow hash.toList (difficultyToTarget d) = true ↔
        (bigEndian hash.toList + 1) * d.toNat ≤ 2 ^ 256) ∧
    (∀ hash target : Digest, hashBelow hash.toList target.toList = true ↔
      bigEndian hash.toList < bigEndian target.toList) ∧
    (∀ (hash : Digest) (d d' : UInt64), d ≤ d' →
      hashBelow hash.toList (difficultyToTarget d) = false → hashBelow hash.toList (difficultyToTarget d') = false) ∧
    ∀ n ≤ 2 ^ 53 - 1, Solver.difficultyToTarget n = difficultyToTarget n.toUInt64 ∧
      ∀ hash : Digest, Solver.below hash.toList (Solver.difficultyToTarget n) =
        hashBelow hash.toList (difficultyToTarget n.toUInt64) := by
  refine ⟨fun d large => ?_, fun hash target => hashBelow_iff (by simp), fun hash d d' order rejected => ?_,
    fun n small => ?_⟩
  · exact ⟨length_difficultyToTarget d, bigEndian_difficultyToTarget large,
      divisionSteps_exact d.toNat_lt numerator (Nat.zero_lt_of_lt (one_lt_toNat large)), longDivision_head large,
      fun hash => below_target_iff hash large⟩
  · have size : ∀ d, hash.toList.length = (difficultyToTarget d).length := fun d => by simp [length_difficultyToTarget]
    rw [← Bool.not_eq_true,hashBelow_iff (size d),Nat.not_lt] at rejected
    rw [← Bool.not_eq_true,hashBelow_iff (size d'),Nat.not_lt]
    exact Nat.le_trans (difficultyToTarget_antitone order) rejected
  · have same := Solver.difficultyToTarget_eq (n := n) (by omega)
    refine ⟨same, fun hash => ?_⟩
    rw [Solver.below,Solver.belowFrom_eq _ _ 32 0 (by simp) (by simp [same,length_difficultyToTarget]),List.drop_zero,
      List.drop_zero,same]

/-- At difficulty 2000 the largest accepted hash is `floor(2^256 / 2000) - 1`, on both sides. -/
theorem target_exact_default : bigEndian (difficultyToTarget 2000) = 2 ^ 256 / 2000 ∧
    Solver.difficultyToTarget 2000 = difficultyToTarget 2000 :=
  ⟨(target_exact.1 2000 (by decide)).2.1, (target_exact.2.2.2 2000 (by decide)).1⟩

end PowGate
