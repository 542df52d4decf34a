import PowGate.Text

/-! Unpadded URL-safe base64 (RFC 4648, section 5) with a strict decoder: no padding, no
foreign characters, zero trailing bits. Strictness is what makes every accepted
spelling the canonical one. -/
namespace PowGate.Base64

/-- The alphabet `A-Z a-z 0-9 - _`. -/
def symbol (n : Nat) : UInt8 :=
  if n < 26 then (65 + n).toUInt8
  else if n < 52 then (71 + n).toUInt8
  else if n < 62 then (n - 4).toUInt8
  else if n = 62 then 45 else 95

def sextet (c : UInt8) : Option Nat :=
  if 65 ≤ c ∧ c ≤ 90 then some (c.toNat - 65)
  else if 97 ≤ c ∧ c ≤ 122 then some (c.toNat - 71)
  else if 48 ≤ c ∧ c ≤ 57 then some (c.toNat + 4)
  else if c = 45 then some 62
  else if c = 95 then some 63 else none

def encode : Bytes → Bytes
  | a :: b :: c :: rest =>
    let n := (a.toNat * 256 + b.toNat) * 256 + c.toNat
    symbol (n / 262144) :: symbol (n / 4096 % 64) :: symbol (n / 64 % 64) :: symbol (n % 64) ::
      encode rest
  | [a, b] =>
    let n := (a.toNat * 256 + b.toNat) * 4
    [symbol (n / 4096), symbol (n / 64 % 64), symbol (n % 64)]
  | [a] =>
    let n := a.toNat * 16
    [symbol (n / 64), symbol (n % 64)]
  | [] => []

def decode : Bytes → Option Bytes
  | a :: b :: c :: d :: rest => do
    let n := (((← sextet a) * 64 + (← sextet b)) * 64 + (← sextet c)) * 64 + (← sextet d)
    return (n / 65536).toUInt8 :: (n / 256 % 256).toUInt8 :: (n % 256).toUInt8 :: (← decode rest)
  | [a, b, c] => do
    let n := ((← sextet a) * 64 + (← sextet b)) * 64 + (← sextet c)
    if n % 4 = 0 then some [(n / 1024).toUInt8, (n / 4 % 256).toUInt8] else none
  | [a, b] => do
    let n := (← sextet a) * 64 + (← sextet b)
    if n % 16 = 0 then some [(n / 16).toUInt8] else none
  | [_] => none
  | [] => some []

theorem sextet_symbol (small : n < 64) : sextet (symbol n) = some n := by
  have all : ∀ k : Fin 64, sextet (symbol k.val) = some k.val := by decide
  exact all ⟨n, small⟩

theorem symbol_sextet (read : sextet c = some n) : symbol n = c ∧ n < 64 := by
  have small := c.toNat_lt
  have whole : (c.toNat).toUInt8 = c := by simp
  simp only [sextet,UInt8.le_iff_toNat_le,← UInt8.toNat_inj] at read
  simp only [symbol]
  split at read
  · cases read
    rw [if_pos (by grind),show 65 + (c.toNat - 65) = c.toNat by grind]
    exact ⟨whole, by grind⟩
  split at read
  · cases read
    rw [if_neg (by grind),if_pos (by grind),show 71 + (c.toNat - 71) = c.toNat by grind]
    exact ⟨whole, by grind⟩
  split at read
  · cases read
    rw [if_neg (by grind),if_neg (by grind),if_pos (by grind),show c.toNat + 4 - 4 = c.toNat by omega]
    exact ⟨whole, by grind⟩
  split at read
  · cases read
    refine ⟨UInt8.toNat_inj.mp ?_, by decide⟩
    simp_all
  split at read
  · cases read
    refine ⟨UInt8.toNat_inj.mp ?_, by decide⟩
    simp_all
  · cases read

theorem toUInt8_toNat (b : UInt8) (h : n = b.toNat) : n.toUInt8 = b := by
  subst h
  simp

@[simp] theorem decode_encode (bytes : Bytes) : decode (encode bytes) = some bytes := by
  induction bytes using encode.induct with
  | case1 a b c rest ih =>
    have ha := a.toNat_lt
    have hb := b.toNat_lt
    have hc := c.toNat_lt
    simp only [encode,decode,ih]
    rw [sextet_symbol (by omega),sextet_symbol (by omega),sextet_symbol (by omega),
      sextet_symbol (by omega)]
    simp only [Option.pure_def,Option.bind_eq_bind,Option.bind_some,Option.some.injEq,List.cons.injEq,
      and_true]
    exact ⟨toUInt8_toNat a (by omega), toUInt8_toNat b (by omega), toUInt8_toNat c (by omega)⟩
  | case2 a b =>
    have ha := a.toNat_lt
    have hb := b.toNat_lt
    simp only [encode,decode]
    rw [sextet_symbol (by omega),sextet_symbol (by omega),sextet_symbol (by omega)]
    simp only [Option.bind_eq_bind,Option.bind_some]
    rw [if_pos (by omega)]
    simp only [Option.some.injEq,List.cons.injEq,and_true]
    exact ⟨toUInt8_toNat a (by omega), toUInt8_toNat b (by omega)⟩
  | case3 a =>
    have ha := a.toNat_lt
    simp only [encode,decode]
    rw [sextet_symbol (by omega),sextet_symbol (by omega)]
    simp only [Option.bind_eq_bind,Option.bind_some]
    rw [if_pos (by omega)]
    simp only [Option.some.injEq,List.cons.injEq,and_true]
    exact toUInt8_toNat a (by omega)
  | case4 => rfl

@[simp] theorem toNat_toUInt8 (small : n < 256) : n.toUInt8.toNat = n := by
  simp
  omega

/-- The decoder accepts nothing but what the encoder writes. -/
theorem encode_of_decode (read : decode text = some bytes) : encode bytes = text := by
  induction text using decode.induct generalizing bytes with
  | case1 a b c d rest ih =>
    simp only [decode,Option.pure_def,Option.bind_eq_bind,Option.bind_eq_some_iff,
      Option.some.injEq] at read
    obtain ⟨p, first, q, second, r, third, t, fourth, tail, more, rfl⟩ := read
    obtain ⟨rfl, hp⟩ := symbol_sextet first
    obtain ⟨rfl, hq⟩ := symbol_sextet second
    obtain ⟨rfl, hr⟩ := symbol_sextet third
    obtain ⟨rfl, ht⟩ := symbol_sextet fourth
    rw [encode,toNat_toUInt8 (by omega),toNat_toUInt8 (by omega),toNat_toUInt8 (by omega),ih more]
    congr 2
    · omega
    · congr 1
      omega
    · congr 2
      · omega
      · congr 1
        omega
  | case2 a b c =>
    simp only [decode,Option.bind_eq_bind,Option.bind_eq_some_iff] at read
    obtain ⟨p, first, q, second, r, third, read⟩ := read
    split at read
    · cases read
      obtain ⟨rfl, hp⟩ := symbol_sextet first
      obtain ⟨rfl, hq⟩ := symbol_sextet second
      obtain ⟨rfl, hr⟩ := symbol_sextet third
      rw [encode,toNat_toUInt8 (by omega),toNat_toUInt8 (by omega)]
      congr 2
      · omega
      · congr 1
        omega
      · congr 2
        omega
    · cases read
  | case3 a b =>
    simp only [decode,Option.bind_eq_bind,Option.bind_eq_some_iff] at read
    obtain ⟨p, first, q, second, read⟩ := read
    split at read
    · cases read
      obtain ⟨rfl, hp⟩ := symbol_sextet first
      obtain ⟨rfl, hq⟩ := symbol_sextet second
      rw [encode,toNat_toUInt8 (by omega)]
      congr 2
      · omega
      · congr 1
        omega
    · cases read
  | case4 => simp [decode] at read
  | case5 =>
    simp only [decode,Option.some.injEq] at read
    subst read
    rfl

theorem encode_injective (same : encode a = encode b) : a = b := by
  have := congrArg decode same
  simpa using this

theorem length_encode (bytes : Bytes) : (encode bytes).length = (4 * bytes.length + 2) / 3 := by
  induction bytes using encode.induct with
  | case1 a b c rest ih =>
    simp only [encode,List.length_cons,ih]
    omega
  | case2 => simp [encode]
  | case3 => simp [encode]
  | case4 => rfl

/-- Every byte of an encoding is a symbol of the alphabet. -/
theorem encode_alphabet (bytes : Bytes) : ∀ c ∈ encode bytes, ∃ n < 64, c = symbol n := by
  induction bytes using encode.induct with
  | case1 a b c rest ih =>
    have ha := a.toNat_lt
    have hb := b.toNat_lt
    have hc := c.toNat_lt
    simp only [encode,List.forall_mem_cons]
    exact ⟨⟨_, by omega, rfl⟩, ⟨_, by omega, rfl⟩, ⟨_, by omega, rfl⟩, ⟨_, by omega, rfl⟩, ih⟩
  | case2 a b =>
    have ha := a.toNat_lt
    have hb := b.toNat_lt
    simp only [encode,List.forall_mem_cons]
    exact ⟨⟨_, by omega, rfl⟩, ⟨_, by omega, rfl⟩, ⟨_, by omega, rfl⟩, by simp⟩
  | case3 a =>
    have ha := a.toNat_lt
    simp only [encode,List.forall_mem_cons]
    exact ⟨⟨_, by omega, rfl⟩, ⟨_, by omega, rfl⟩, by simp⟩
  | case4 => simp [encode]

/-- The alphabet is ASCII and has none of the separators, quotes or escapes of the formats
that carry encodings. -/
theorem symbol_plain (small : n < 64) :
    symbol n < 128 ∧ 32 ≤ symbol n ∧ symbol n ∉ [34, 46, 92, 124, 32, 38, 59] := by
  have all : ∀ k : Fin 64,
      symbol k.val < 128 ∧ 32 ≤ symbol k.val ∧ symbol k.val ∉ [34, 46, 92, 124, 32, 38, 59] := by decide
  exact all ⟨n, small⟩

end PowGate.Base64
