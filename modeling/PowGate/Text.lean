import Mathlib.Algebra.Ring.Int.Defs
import Mathlib.Algebra.Ring.Nat
import Mathlib.Data.List.Basic

/-! Byte strings and the decimal and hexadecimal texts that wire formats are
made of. A text is unambiguous when a reader recovers it in front of any
continuation; injectivity follows from the reader. -/
namespace PowGate

/-- Text is handled as its bytes: lengths, prefixes and splits are byte-wise. -/
abbrev Bytes := List UInt8

namespace Text

/-- The bytes of an ASCII literal. -/
def ascii (s : String) : Bytes := s.toList.map fun c => c.toNat.toUInt8

def isDigit (byte : UInt8) : Bool := 48 ≤ byte && byte ≤ 57

/-- Decimal digits of a natural number, without leading zeros. -/
def decimal (n : Nat) : Bytes := (Nat.toDigits 10 n).map fun c => c.toNat.toUInt8

/-- Decimal text of an integer. -/
def integer : Int → Bytes
  | .ofNat n => decimal n
  | .negSucc n => 45 :: decimal (n + 1)

/-- One lowercase hexadecimal digit. -/
def hexDigit (n : Nat) : UInt8 := if n < 10 then (48 + n).toUInt8 else (87 + n).toUInt8

/-- The number a run of digits denotes. -/
def value (digits : Bytes) : Nat := digits.foldl (fun acc byte => acc * 10 + (byte.toNat - 48)) 0

theorem digit_byte {c : Char} (digit : c.isDigit = true) :
    isDigit c.toNat.toUInt8 = true ∧ c.toNat.toUInt8.toNat = c.toNat := by
  have low : 48 ≤ c.toNat := by
    have := (Char.isDigit_iff_toNat.mp digit).1
    simpa using this
  have high : c.toNat ≤ 57 := by
    have := (Char.isDigit_iff_toNat.mp digit).2
    simpa using this
  have small : c.toNat.toUInt8.toNat = c.toNat := by
    simp
    omega
  refine ⟨?_, small⟩
  simp only [isDigit,Bool.and_eq_true,decide_eq_true_eq,UInt8.le_iff_toNat_le,small]
  exact ⟨low, high⟩

theorem decimal_digits (member : byte ∈ decimal n) : isDigit byte = true := by
  obtain ⟨c, inside, rfl⟩ := List.mem_map.mp member
  exact (digit_byte (Nat.isDigit_of_mem_toDigits (by decide) (by decide) inside)).1

theorem decimal_ne_nil (n : Nat) : decimal n ≠ [] := by
  simp [decimal]

theorem value_map (digits : List Char) (all : ∀ c ∈ digits, c.isDigit = true) (acc : Nat) :
    (digits.map fun c => c.toNat.toUInt8).foldl (fun acc byte => acc * 10 + (byte.toNat - 48)) acc =
      Nat.ofDigitChars 10 digits acc := by
  induction digits generalizing acc with
  | nil => simp
  | cons c rest ih =>
    have small := (digit_byte (all c (by simp))).2
    rw [List.map_cons,List.foldl_cons,ih (fun d member => all d (by simp [member])),
      Nat.ofDigitChars_cons,small]
    simp [Nat.mul_comm]

@[simp] theorem value_decimal (n : Nat) : value (decimal n) = n := by
  rw [value,decimal,value_map]
  · exact Nat.ofDigitChars_ten_toDigits
  · intro c member
    exact Nat.isDigit_of_mem_toDigits (by decide) (by decide) member

theorem integer_length_le {i : Int} (nonneg : 0 ≤ i) (small : i < 10 ^ k) (some : 0 < k) :
    (integer i).length ≤ k := by
  obtain ⟨n, rfl⟩ := Int.eq_ofNat_of_zero_le nonneg
  have bound : n < 10 ^ k := by exact_mod_cast small
  have digits := (Nat.length_toDigits_le_iff (b := 10) (by decide) some).mpr bound
  simpa [integer,decimal] using digits

/-- A 64-bit number, signed or not, has at most 20 characters. -/
theorem integer_length_word {i : Int} (low : -2 ^ 63 ≤ i) (high : i < 2 ^ 64) :
    (integer i).length ≤ 20 := by
  by_cases nonneg : 0 ≤ i
  · exact integer_length_le nonneg (Int.lt_trans high (by decide)) (by decide)
  · obtain ⟨n, rfl⟩ := Int.eq_negSucc_of_lt_zero (Int.not_le.mp nonneg)
    have digits := integer_length_le (i := (n + 1 : Nat)) (k := 19) (by omega) (by omega) (by decide)
    have same : integer (n + 1 : Nat) = decimal (n + 1) := rfl
    rw [same] at digits
    simp only [integer,List.length_cons]
    omega

theorem decimal_injective (h : decimal n = decimal m) : n = m := by
  rw [← value_decimal n,h,value_decimal]

/-- Splits at the first separator, which both parts lose. -/
def splitOnce (sep : UInt8) : Bytes → Option (Bytes × Bytes)
  | [] => none
  | c :: rest =>
    if c = sep then some ([], rest)
    else (splitOnce sep rest).map fun (before, after) => (c :: before, after)

/-- Splits at the last separator. -/
def rsplitOnce (sep : UInt8) (s : Bytes) : Option (Bytes × Bytes) :=
  (splitOnce sep s.reverse).map fun (after, before) => (before.reverse, after.reverse)

def stripPrefix : Bytes → Bytes → Option Bytes
  | [], s => some s
  | _ :: _, [] => none
  | p :: ps, c :: s => if p = c then stripPrefix ps s else none

@[simp] theorem splitOnce_append (before after : Bytes) (absent : sep ∉ before) :
    splitOnce sep (before ++ sep :: after) = some (before, after) := by
  induction before with
  | nil => simp [splitOnce]
  | cons c rest ih =>
    simp only [List.mem_cons,not_or] at absent
    simp [splitOnce,Ne.symm absent.1,ih absent.2]

theorem splitOnce_some (found : splitOnce sep s = some (before, after)) :
    s = before ++ sep :: after ∧ sep ∉ before := by
  induction s generalizing before with
  | nil => simp [splitOnce] at found
  | cons c rest ih =>
    by_cases hit : c = sep
    · simp only [splitOnce,hit,if_true,Option.some.injEq,Prod.mk.injEq] at found
      obtain ⟨rfl, rfl⟩ := found
      simp [hit]
    · simp only [splitOnce,hit,if_false,Option.map_eq_some_iff,Prod.mk.injEq] at found
      obtain ⟨⟨head, tail⟩, more, rfl, rfl⟩ := found
      obtain ⟨rfl, absent⟩ := ih more
      exact ⟨rfl, by simp [absent,Ne.symm hit]⟩

@[simp] theorem rsplitOnce_append (before after : Bytes) (absent : sep ∉ after) :
    rsplitOnce sep (before ++ sep :: after) = some (before, after) := by
  have reversed : (before ++ sep :: after).reverse = after.reverse ++ sep :: before.reverse := by simp
  rw [rsplitOnce,reversed,splitOnce_append _ _ (by simpa using absent)]
  simp

@[simp] theorem stripPrefix_append (start rest : Bytes) : stripPrefix start (start ++ rest) = some rest := by
  induction start with
  | nil => rfl
  | cons c more ih => simp [stripPrefix,ih]

theorem stripPrefix_some (found : stripPrefix start s = some rest) : s = start ++ rest := by
  induction start generalizing s with
  | nil => simpa [stripPrefix] using found
  | cons c more ih =>
    cases s with
    | nil => simp [stripPrefix] at found
    | cons d tail =>
      simp only [stripPrefix] at found
      split at found
      · next same => rw [same,ih found,List.cons_append]
      · cases found

/-- A nonempty run of digits. -/
def parseDigits (s : Bytes) : Option Nat :=
  if s ≠ [] ∧ s.all isDigit then some (value s) else none

/-- `str::parse::<u64>`: an optional plus sign, digits, no overflow. -/
def parseU64 (s : Bytes) : Option UInt64 := do
  let n ← parseDigits (match s with | 43 :: rest => rest | _ => s)
  if n < 2 ^ 64 then some n.toUInt64 else none

/-- `str::parse::<i64>`: an optional sign, digits, no overflow. -/
def parseI64 (s : Bytes) : Option Int64 :=
  match s with
  | 45 :: rest => do
    let n ← parseDigits rest
    if n ≤ 2 ^ 63 then some (Int64.ofInt (-n)) else none
  | _ => do
    let n ← parseDigits (match s with | 43 :: rest => rest | _ => s)
    if n < 2 ^ 63 then some (Int64.ofInt n) else none

theorem integer_bytes (member : byte ∈ integer i) : isDigit byte = true ∨ byte = 45 := by
  cases i with
  | ofNat n => exact .inl (decimal_digits member)
  | negSucc n =>
    rcases List.mem_cons.mp member with minus | digit
    · exact .inr minus
    · exact .inl (decimal_digits digit)

theorem parseDigits_decimal (n : Nat) : parseDigits (decimal n) = some n := by
  have digits : (decimal n).all isDigit = true := List.all_eq_true.mpr fun _ member => decimal_digits member
  rw [parseDigits,if_pos ⟨decimal_ne_nil n, digits⟩,value_decimal]

theorem decimal_unsigned (n : Nat) : ∃ c rest, decimal n = c :: rest ∧ c ≠ 43 ∧ c ≠ 45 := by
  obtain ⟨c, rest, split⟩ := List.exists_cons_of_ne_nil (decimal_ne_nil n)
  have digit : isDigit c = true := decimal_digits (n := n) (by simp [split])
  refine ⟨c, rest, split, ?_, ?_⟩ <;> rintro rfl <;> simp [isDigit] at digit

/-- A formatted integer parses as itself. -/
@[simp] theorem parseI64_integer (x : Int64) : parseI64 (integer x.toInt) = some x := by
  have low := Int64.le_toInt x
  have high := Int64.toInt_lt x
  cases shape : x.toInt with
  | ofNat n =>
    rw [shape] at high
    obtain ⟨c, rest, cut, plus, minus⟩ := decimal_unsigned n
    have parsed : parseI64 (integer (.ofNat n)) = (parseDigits (decimal n)).bind fun n =>
        if n < 2 ^ 63 then some (Int64.ofInt n) else none := by
      simp only [integer,cut]
      unfold parseI64
      split
      · grind
      · split
        · grind
        · rfl
    rw [parsed,parseDigits_decimal]
    have small : n < 2 ^ 63 := by
      have : (n : Int) < 2 ^ 63 := high
      omega
    simp only [Option.bind_some,if_pos small]
    rw [← Int64.ofInt_toInt (x := x),shape]
    rfl
  | negSucc n =>
    rw [shape] at low
    have small : n + 1 ≤ 2 ^ 63 := by omega
    simp only [integer,parseI64,parseDigits_decimal,Option.bind_eq_bind,Option.bind_some,if_pos small]
    rw [← Int64.ofInt_toInt (x := x),shape]
    rfl

/-- One leading `White_Space` character, by its UTF-8 bytes. -/
def dropSpace : Bytes → Option Bytes
  | 0xC2 :: c :: rest => if c = 0x85 ∨ c = 0xA0 then some rest else none
  | 0xE1 :: 0x9A :: 0x80 :: rest => some rest
  | 0xE2 :: 0x80 :: c :: rest =>
    if (0x80 ≤ c ∧ c ≤ 0x8A) ∨ c = 0xA8 ∨ c = 0xA9 ∨ c = 0xAF then some rest else none
  | 0xE2 :: 0x81 :: 0x9F :: rest => some rest
  | 0xE3 :: 0x80 :: 0x80 :: rest => some rest
  | c :: rest => if (9 ≤ c ∧ c ≤ 13) ∨ c = 32 then some rest else none
  | [] => none

/-- The same at the end of a text, whose bytes come reversed. -/
def dropSpaceEnd : Bytes → Option Bytes
  | 0x80 :: 0x9A :: 0xE1 :: rest => some rest
  | 0x9F :: 0x81 :: 0xE2 :: rest => some rest
  | 0x80 :: 0x80 :: 0xE3 :: rest => some rest
  | c :: 0x80 :: 0xE2 :: rest =>
    if (0x80 ≤ c ∧ c ≤ 0x8A) ∨ c = 0xA8 ∨ c = 0xA9 ∨ c = 0xAF then some rest else none
  | c :: 0xC2 :: rest => if c = 0x85 ∨ c = 0xA0 then some rest else none
  | c :: rest => if (9 ≤ c ∧ c ≤ 13) ∨ c = 32 then some rest else none
  | [] => none

def dropWhileSome (drop : Bytes → Option Bytes) : Nat → Bytes → Bytes
  | 0, s => s
  | fuel + 1, s => match drop s with
    | some rest => dropWhileSome drop fuel rest
    | none => s

/-- `str::trim`. Every dropped character has a byte, so the length is enough fuel. -/
def trim (s : Bytes) : Bytes :=
  let front := dropWhileSome dropSpace s.length s
  (dropWhileSome dropSpaceEnd front.length front.reverse).reverse

def lowerByte (c : UInt8) : UInt8 := if 65 ≤ c ∧ c ≤ 90 then c + 32 else c

/-- `to_ascii_lowercase`. -/
def lower (s : Bytes) : Bytes := s.map lowerByte

/-- `eq_ignore_ascii_case`. -/
def eqIgnoreCase (a b : Bytes) : Bool := lower a == lower b

/-- The continuation bytes a lead byte asks for, the first with its own range. -/
def continuation (lead : UInt8) : List (UInt8 × UInt8) :=
  if 0xC2 ≤ lead ∧ lead ≤ 0xDF then [(0x80, 0xBF)]
  else if lead = 0xE0 then [(0xA0, 0xBF), (0x80, 0xBF)]
  else if lead = 0xED then [(0x80, 0x9F), (0x80, 0xBF)]
  else if 0xE1 ≤ lead ∧ lead ≤ 0xEF then [(0x80, 0xBF), (0x80, 0xBF)]
  else if lead = 0xF0 then [(0x90, 0xBF), (0x80, 0xBF), (0x80, 0xBF)]
  else if 0xF1 ≤ lead ∧ lead ≤ 0xF3 then [(0x80, 0xBF), (0x80, 0xBF), (0x80, 0xBF)]
  else if lead = 0xF4 then [(0x80, 0x8F), (0x80, 0xBF), (0x80, 0xBF)]
  else []

/-- How many of the asked continuation bytes are there. -/
def continued : List (UInt8 × UInt8) → Bytes → Nat
  | (low, high) :: more, c :: rest => if low ≤ c ∧ c ≤ high then continued more rest + 1 else 0
  | _, _ => 0

/-- `String::from_utf8_lossy`: each maximal ill-formed part becomes one U+FFFD. -/
def lossyFrom : Nat → Bytes → Bytes
  | 0, _ => []
  | _, [] => []
  | fuel + 1, c :: rest =>
    if c < 0x80 then c :: lossyFrom fuel rest
    else
      let asked := continuation c
      let found := continued asked rest
      if asked ≠ [] ∧ found = asked.length then
        c :: rest.take found ++ lossyFrom fuel (rest.drop found)
      else 0xEF :: 0xBF :: 0xBD :: lossyFrom fuel (rest.drop found)

def lossy (s : Bytes) : Bytes := lossyFrom s.length s

/-- `String::from_utf8`. Lossy decoding leaves well-formed text, and only that, as it is. -/
def fromUtf8 (s : Bytes) : Option Bytes := if lossy s = s then some s else none

/-- Every byte is ASCII, so the text is valid UTF-8 as it stands. -/
def IsAscii (s : Bytes) : Prop := ∀ c ∈ s, c < 128

instance (s : Bytes) : Decidable (IsAscii s) := List.decidableBAll (· < 128) s

theorem utf8EncodeChar_ascii (small : c < 128) : String.utf8EncodeChar (Char.ofNat c.toNat) = [c] := by
  have all : ∀ n : Fin 128, String.utf8EncodeChar (Char.ofNat n.val) = [UInt8.ofNat n.val] := by decide
  have here := all ⟨c.toNat, UInt8.lt_iff_toNat_lt.mp small⟩
  rwa [UInt8.ofNat_toNat] at here

theorem lossyFrom_ascii {s : Bytes} (ascii : IsAscii s) : lossyFrom s.length s = s := by
  induction s with
  | nil => rfl
  | cons c rest ih =>
    have small : c < 0x80 := ascii c List.mem_cons_self
    rw [List.length_cons,lossyFrom,if_pos small,ih fun d member => ascii d (List.mem_cons_of_mem c member)]

/-- Printable ASCII without spaces. -/
def Visible (s : Bytes) : Prop := ∀ c ∈ s, 33 ≤ c ∧ c < 128

theorem dropSpace_visible {s : Bytes} (visible : Visible s) : dropSpace s = none := by
  cases s with
  | nil => rfl
  | cons c rest =>
    obtain ⟨low, high⟩ := visible c List.mem_cons_self
    unfold dropSpace
    split <;> grind

theorem dropSpaceEnd_visible {s : Bytes} (visible : Visible s) : dropSpaceEnd s = none := by
  cases s with
  | nil => rfl
  | cons c rest =>
    obtain ⟨low, high⟩ := visible c List.mem_cons_self
    have small : ∀ d ∈ rest, d < 128 := fun d member => (visible d (List.mem_cons_of_mem c member)).2
    unfold dropSpaceEnd
    split <;> grind

theorem dropWhileSome_none {drop : Bytes → Option Bytes} (kept : drop s = none) :
    dropWhileSome drop n s = s := by
  cases n with
  | zero => rfl
  | succ n => rw [dropWhileSome,kept]

theorem trim_visible {s : Bytes} (visible : Visible s) : trim s = s := by
  have backwards : Visible s.reverse := fun c member => visible c (List.mem_reverse.mp member)
  simp only [trim,dropWhileSome_none (dropSpace_visible visible),
    dropWhileSome_none (dropSpaceEnd_visible backwards),List.reverse_reverse]

end Text

end PowGate
