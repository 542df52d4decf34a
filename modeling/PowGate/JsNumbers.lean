import Mathlib.Data.BitVec
import Mathlib.Tactic.Ring

/-! ECMAScript numbers that are integers, the operators that convert them to 32 bits first, and
typed arrays. The word of a number is what these operators see of it, and every operator acts on
words. -/
namespace PowGate.Js

/-- `ToInt32` and `ToUint32`, up to the sign of the result. -/
def word (x : Int) : UInt32 := ⟨BitVec.ofInt 32 x⟩

/-- A word read as a signed number. -/
def signed (x : UInt32) : Int := x.toBitVec.toInt

/-- A store into an `Int32Array`. -/
def toInt32 (x : Int) : Int := signed (word x)

/-- `x | y`; `x | 0` is the conversion to 32 bits. -/
def bitOr (x y : Int) : Int := signed (word x ||| word y)
def bitXor (x y : Int) : Int := signed (word x ^^^ word y)
def bitAnd (x y : Int) : Int := signed (word x &&& word y)
def bitNot (x : Int) : Int := signed (~~~word x)

/-- `x << n`. -/
def shl (x : Int) (n : UInt32) : Int := signed (word x <<< n)

/-- `x >> n`, which keeps the sign. -/
def sar (x : Int) (n : UInt32) : Int := ((word x).toBitVec.sshiftRight (n % 32).toNat).toInt

/-- `x >>> n`, which is never negative. -/
def ushr (x : Int) (n : UInt32) : Int := (word x >>> n).toNat

/-- A store into a `Uint8Array`. -/
def toUint8 (x : Int) : UInt8 := ⟨BitVec.ofInt 8 x⟩

@[simp] theorem word_signed (x : UInt32) : word (signed x) = x := by
  simp [word,signed]

@[simp] theorem word_bitOr (x y : Int) : word (bitOr x y) = word x ||| word y := word_signed _
@[simp] theorem word_bitXor (x y : Int) : word (bitXor x y) = word x ^^^ word y := word_signed _
@[simp] theorem word_bitAnd (x y : Int) : word (bitAnd x y) = word x &&& word y := word_signed _
@[simp] theorem word_bitNot (x : Int) : word (bitNot x) = ~~~word x := word_signed _
@[simp] theorem word_shl (x : Int) (n : UInt32) : word (shl x n) = word x <<< n := word_signed _

@[simp] theorem word_toNat (x : UInt32) : word x.toNat = x := by
  simp [word]

@[simp] theorem word_ushr (x : Int) (n : UInt32) : word (ushr x n) = word x >>> n := word_toNat _

@[simp] theorem word_add (x y : Int) : word (x + y) = word x + word y := by
  simp only [word,BitVec.ofInt_add]
  rfl

theorem toUint8_word (x : Int) : toUint8 x = (word x).toUInt8 := by
  apply UInt8.toBitVec_inj.mp
  apply BitVec.eq_of_toNat_eq
  simp only [toUint8,word,UInt32.toBitVec_toUInt8,BitVec.toNat_setWidth,BitVec.toNat_ofInt]
  omega

theorem signed_small {x : UInt32} (small : x.toNat < 2 ^ 31) : signed x = x.toNat := by
  unfold signed
  rw [BitVec.toInt_eq_toNat_of_lt]
  · rfl
  · have : x.toBitVec.toNat = x.toNat := rfl
    omega

theorem toNat_word (n : Nat) : (word n).toNat = n % 2 ^ 32 := by
  simp [word, UInt32.toNat]

@[simp] theorem word_byte (x : UInt8) : word x.toNat = x.toUInt32 := by
  have small := x.toNat_lt
  apply UInt32.toNat_inj.mp
  rw [toNat_word,UInt8.toNat_toUInt32,Nat.mod_eq_of_lt (by omega)]

/-- No bit of a small number is shifted out. -/
theorem shl_small {n : Nat} {k : UInt32} (shift : k < 32) (small : n * 2 ^ k.toNat < 2 ^ 31) :
    shl n k = n * 2 ^ k.toNat := by
  have count : k.toNat < 32 := UInt32.lt_iff_toNat_lt.mp shift
  have fits : n < 2 ^ 31 := Nat.lt_of_le_of_lt (Nat.le_mul_of_pos_right n (Nat.two_pow_pos _)) small
  have moved : (word n <<< k).toNat = n * 2 ^ k.toNat := by
    rw [UInt32.toNat_shiftLeft,toNat_word,Nat.mod_eq_of_lt count,Nat.shiftLeft_eq,Nat.mod_eq_of_lt (a := n) (by omega),
      Nat.mod_eq_of_lt (by omega)]
  rw [shl,signed_small (by omega),moved]
  push_cast
  rfl

theorem sar_small {n : Nat} {k : UInt32} (shift : k < 32) (small : n < 2 ^ 31) :
    sar n k = (n / 2 ^ k.toNat : Nat) := by
  have count : k.toNat < 32 := UInt32.lt_iff_toNat_lt.mp shift
  have same : (word n).toBitVec.toInt = n := by
    have := signed_small (x := word n) (by rw [toNat_word]; omega)
    rw [toNat_word,Nat.mod_eq_of_lt (by omega)] at this
    exact this
  have turns : (k % 32).toNat = k.toNat := by
    rw [UInt32.toNat_mod]
    exact Nat.mod_eq_of_lt count
  rw [sar,BitVec.toInt_sshiftRight,same,turns,Int.shiftRight_eq_div_pow]
  simp

/-- A masked byte is stored as it would be without the mask. -/
theorem toUInt8_mask (x : UInt32) : (x &&& 255).toUInt8 = x.toUInt8 := by
  apply UInt8.toNat_inj.mp
  simp only [UInt32.toNat_toUInt8,UInt32.toNat_and]
  have mask : UInt32.toNat 255 = 2 ^ 8 - 1 := rfl
  rw [mask,Nat.and_two_pow_sub_one_eq_mod]
  omega

/-- Reading an array of a fixed size. Past its end there is nothing, which counts as zero. -/
def load [Inhabited α] (array : Vector α n) (i : Nat) : α := array[i]?.getD default

/-- Writing past the end of a typed array has no effect. -/
def store (array : Vector α n) (i : Nat) (x : α) : Vector α n := array.setIfInBounds i x

theorem load_store [Inhabited α] (array : Vector α n) (i j : Nat) (x : α) (inside : j < n) :
    load (store array i x) j = if i = j then x else load array j := by
  unfold load store
  rw [Vector.getElem?_setIfInBounds]
  split
  · next same =>
    subst same
    simp [inside]
  · rfl

/-- The body run `n` times, with the numbers from 0 on. -/
def repeated (body : Nat → σ → σ) : Nat → σ → σ
  | 0, s => s
  | n + 1, s => body n (repeated body n s)

/-- `for (i = start; i < stop; i += step) body`. -/
def forLoop (start stop step : Nat) (body : Nat → σ → σ) (s : σ) : σ :=
  repeated (fun i => body (start + step * i)) ((stop - start + (step - 1)) / step) s

/-- What holds before each turn of a loop holds after the loop. -/
theorem forLoop_invariant (Inv : Nat → σ → Prop) (start stop step turns : Nat) (body : Nat → σ → σ)
    (positive : 0 < step) (reached : start + step * turns = stop) (holds : Inv start s)
    (turn : ∀ i s, i < stop → Inv i s → Inv (i + step) (body i s)) :
    Inv stop (forLoop start stop step body s) := by
  have steps (n : Nat) (within : n ≤ turns) :
      Inv (start + step * n) (repeated (fun i => body (start + step * i)) n s) := by
    induction n with
    | zero => exact holds
    | succ n ih =>
      have below : step * n + step ≤ step * turns := Nat.mul_le_mul_left step within
      rw [repeated,Nat.mul_succ,← Nat.add_assoc]
      exact turn (start + step * n) _ (by omega) (ih (by omega))
  have count : (stop - start + (step - 1)) / step = turns := by
    rw [← reached,Nat.add_sub_cancel_left,Nat.mul_add_div positive,Nat.div_eq_of_lt (by omega),Nat.add_zero]
  rw [forLoop,count,← reached]
  exact steps turns (Nat.le_refl _)

end PowGate.Js
