import PowGate.Reference
import PowGate.SolverHash

/-! The hash of the solver script is SHA-256. Each loop of the script is matched with one function
of the standard: the padding, the words of a block, the schedule, the rounds, and the blocks. -/
namespace PowGate.Sha256

/-- The values of a function below `n`, newest first. -/
def newest (f : Nat → UInt32) : Nat → List UInt32
  | 0 => []
  | n + 1 => f n :: newest f n

theorem newest_getD (f : Nat → UInt32) (below : k < n) : (newest f n).getD k 0 = f (n - 1 - k) := by
  induction n generalizing k with
  | zero => omega
  | succ n ih =>
    cases k with
    | zero => rfl
    | succ k =>
      rw [newest,List.getD_cons_succ,ih (by omega)]
      congr 1
      omega

theorem newest_reverse (f : Nat → UInt32) (n : Nat) : (newest f n).reverse = (List.range n).map f := by
  induction n with
  | zero => rfl
  | succ n ih => rw [newest,List.reverse_cons,ih,List.range_succ,List.map_append,List.map_singleton]

theorem newest_congr {f g : Nat → UInt32} (same : ∀ i < n, f i = g i) : newest f n = newest g n := by
  induction n with
  | zero => rfl
  | succ n ih => rw [newest,newest,same n (by omega),ih fun i below => same i (by omega)]

/-- The next word of the schedule. -/
def nextWord (ws : List UInt32) : UInt32 :=
  smallSigma1 (ws.getD 1 0) + ws.getD 6 0 + smallSigma0 (ws.getD 14 0) + ws.getD 15 0

theorem extend_succ (n : Nat) (ws : List UInt32) : extend (n + 1) ws = nextWord (extend n ws) :: extend n ws := by
  induction n generalizing ws with
  | zero => rfl
  | succ n ih => rw [extend,ih]; rfl

end PowGate.Sha256

namespace PowGate.Solver

open Js Text

/-- What the 32-bit operators see of the variables. -/
def Vars.words (v : Vars) : Sha256.State :=
  ⟨word v.a, word v.bb, word v.c, word v.d, word v.e, word v.f, word v.g, word v.hh⟩

theorem word_zero : word 0 = 0 := rfl

theorem word_bigSigma1 (x : Int) : word (bitXor (bitXor (bitOr (ushr x 6) (shl x 26)) (bitOr (ushr x 11) (shl x 21)))
    (bitOr (ushr x 25) (shl x 7))) = Sha256.bigSigma1 (word x) := by
  simp only [word_bitXor,word_bitOr,word_ushr,word_shl]
  rfl

theorem word_bigSigma0 (x : Int) : word (bitXor (bitXor (bitOr (ushr x 2) (shl x 30)) (bitOr (ushr x 13) (shl x 19)))
    (bitOr (ushr x 22) (shl x 10))) = Sha256.bigSigma0 (word x) := by
  simp only [word_bitXor,word_bitOr,word_ushr,word_shl]
  rfl

theorem word_smallSigma0 (x : Int) : word (bitXor (bitXor (bitOr (ushr x 7) (shl x 25)) (bitOr (ushr x 18) (shl x 14)))
    (ushr x 3)) = Sha256.smallSigma0 (word x) := by
  simp only [word_bitXor,word_bitOr,word_ushr,word_shl]
  rfl

theorem word_smallSigma1 (x : Int) : word (bitXor (bitXor (bitOr (ushr x 17) (shl x 15)) (bitOr (ushr x 19) (shl x 13)))
    (ushr x 10)) = Sha256.smallSigma1 (word x) := by
  simp only [word_bitXor,word_bitOr,word_ushr,word_shl]
  rfl

theorem word_ch (x y z : Int) :
    word (bitXor (bitAnd x y) (bitAnd (bitNot x) z)) = Sha256.ch (word x) (word y) (word z) := by
  simp only [word_bitXor,word_bitAnd,word_bitNot,Sha256.ch]

theorem word_maj (x y z : Int) :
    word (bitXor (bitXor (bitAnd x y) (bitAnd x z)) (bitAnd y z)) = Sha256.maj (word x) (word y) (word z) := by
  simp only [word_bitXor,word_bitAnd,Sha256.maj]

/-- A round of the script is a round of the standard. -/
theorem round_words (w : Vector Int 64) (i : Nat) (v : Vars) :
    (round w i v).words = Sha256.round v.words (word (load shaK i), word (load w i)) := by
  have t1 (s1 ch k x : UInt32) : word v.hh + s1 + (ch + k) + x = word v.hh + s1 + ch + k + x := by
    rw [UInt32.add_assoc (word v.hh + s1) ch k]
  simp only [round,Vars.words,Sha256.round,word_bitOr _ 0,word_zero,UInt32.or_zero,word_add,word_bigSigma0,
    word_bigSigma1,word_ch,word_maj,t1]

theorem extendWord_load (below : i < 64) (w : Vector Int 64) :
    word (load (extendWord i w) i) = Sha256.smallSigma1 (word (load w (i - 2))) + word (load w (i - 7)) +
      Sha256.smallSigma0 (word (load w (i - 15))) + word (load w (i - 16)) := by
  rw [extendWord,load_store _ _ _ _ below,if_pos rfl]
  simp only [word_bitOr _ 0,word_zero,UInt32.or_zero,word_add,word_smallSigma0,word_smallSigma1]
  ac_rfl

theorem extendWord_other (below : j < 64) (other : i ≠ j) (w : Vector Int 64) :
    load (extendWord i w) j = load w j := by
  rw [extendWord,load_store _ _ _ _ below,if_neg other]

/-- The schedule loop, from sixteen words on. -/
theorem extendWord_schedule (w : Vector Int 64) :
    Sha256.extend 48 (Sha256.newest (fun j => word (load w j)) 16) =
      Sha256.newest (fun j => word (load (forLoop 16 64 1 extendWord w) j)) 64 := by
  have all := forLoop_invariant (fun i w' => 16 ≤ i ∧
      Sha256.extend (i - 16) (Sha256.newest (fun j => word (load w j)) 16) =
        Sha256.newest (fun j => word (load w' j)) i)
    16 64 1 48 extendWord (by decide) (by decide) ⟨by decide, rfl⟩ ?_
  · exact all.2
  rintro i w' below ⟨enough, same⟩
  refine ⟨by omega, ?_⟩
  have count : i + 1 - 16 = i - 16 + 1 := by omega
  have older : Sha256.newest (fun j => word (load (extendWord i w') j)) i =
      Sha256.newest (fun j => word (load w' j)) i :=
    Sha256.newest_congr fun j early => by rw [extendWord_other (by omega) (by omega)]
  rw [count,Sha256.extend_succ,same,Sha256.newest,older]
  congr 1
  simp only [Sha256.nextWord,extendWord_load below]
  rw [Sha256.newest_getD _ (by omega),Sha256.newest_getD _ (by omega),Sha256.newest_getD _ (by omega),
    Sha256.newest_getD _ (by omega)]
  simp only [Nat.sub_sub]

theorem shaK_words : Sha256.constants = (List.range 64).map fun i => word (load shaK i) := by
  decide +kernel

/-- The round loop. -/
theorem round_loop (w : Vector Int 64) (h : Vars) : (forLoop 0 64 1 (round w) h).words =
    (Sha256.constants.zip ((List.range 64).map fun i => word (load w i))).foldl Sha256.round h.words := by
  rw [shaK_words,List.zip_map',List.foldl_map]
  refine forLoop_invariant (fun i v => v.words = (List.range i).foldl (fun s i =>
      Sha256.round s (word (load shaK i), word (load w i))) h.words)
    0 64 1 64 (round w) (by decide) (by decide) rfl ?_
  intro i v below same
  rw [round_words,same,List.range_succ,List.foldl_append,List.foldl_cons,List.foldl_nil]

/-- One turn of the block loop compresses the sixteen words it loads. -/
theorem block_words (b : Bytes) (off : Nat) (w : Vector Int 64) (h : Vars) :
    (block b off (w, h)).2.words =
      Sha256.compress h.words ((List.range 16).map fun i => word (load (loadBlock b off w) i)) := by
  have words : Sha256.schedule ((List.range 16).map fun i => word (load (loadBlock b off w) i)) =
      (List.range 64).map fun i => word (load (forLoop 16 64 1 extendWord (loadBlock b off w)) i) := by
    rw [Sha256.schedule,← Sha256.newest_reverse,List.reverse_reverse,extendWord_schedule,Sha256.newest_reverse]
  have rounds := round_loop (forLoop 16 64 1 extendWord (loadBlock b off w)) h
  rw [← words] at rounds
  rw [Sha256.compress,← rounds]
  simp only [block,Vars.words,word_bitOr _ 0,word_zero,UInt32.or_zero,word_add]

/-- The word at an offset of a byte string. -/
def wordAt (b : Bytes) (k : Nat) : UInt32 :=
  ((b.getD k 0).toUInt32 <<< 24) ||| ((b.getD (k + 1) 0).toUInt32 <<< 16) ||| ((b.getD (k + 2) 0).toUInt32 <<< 8) |||
    (b.getD (k + 3) 0).toUInt32

theorem word_byteAt (b : Bytes) (k : Nat) : word (byteAt b k) = (b.getD k 0).toUInt32 := by
  rw [byteAt,if_pos (by omega),word_byte]
  rfl

/-- The loading loop. -/
theorem loadBlock_load (b : Bytes) (off : Nat) (w : Vector Int 64) (i : Nat) (below : i < 16) :
    word (load (loadBlock b off w) i) = wordAt b (off + 4 * i) := by
  unfold loadBlock
  refine forLoop_invariant (fun n w => ∀ i < n, word (load w i) = wordAt b (off + 4 * i)) 0 16 1 16 _ (by decide)
    (by decide) nofun ?_ i below
  intro n w within loaded i early
  have place : (off : Int) + shl n 2 = (off + 4 * n : Nat) := by
    have := shl_small (n := n) (k := 2) (by decide) (by simp; omega)
    rw [this]
    push_cast
    omega
  rw [load_store _ _ _ _ (by omega),place]
  split
  · next same =>
    subst same
    have next (d : Nat) : ((off + 4 * n : Nat) : Int) + d = (off + 4 * n + d : Nat) := rfl
    have one := next 1
    have two := next 2
    have three := next 3
    simp only [Nat.cast_ofNat,Nat.cast_one] at one two three
    simp only [one,two,three,word_bitOr,word_shl,word_byteAt]
    rfl
  · exact loaded i (by omega)

/-- The words of a byte string, by their places. -/
theorem toWords_range (b : Bytes) : Sha256.toWords b = (List.range (b.length / 4)).map fun i => wordAt b (4 * i) := by
  fun_induction Sha256.toWords b with
  | case1 x y z t rest ih =>
    have count : (x :: y :: z :: t :: rest).length / 4 = rest.length / 4 + 1 := by
      simp only [List.length_cons]
      omega
    rw [count,List.range_succ_eq_map,List.map_cons,List.map_map,ih]
    congr 1
  | case2 b short =>
    have none : b.length / 4 = 0 := by
      rcases b with _ | ⟨x, _ | ⟨y, _ | ⟨z, _ | ⟨t, rest⟩⟩⟩⟩
      · rfl
      · simp
      · simp
      · simp
      · exact absurd rfl (short x y z t rest)
    rw [none]
    rfl

/-- Words cut into blocks of sixteen. -/
theorem blocks_range (f : Nat → UInt32) (n : Nat) : Sha256.blocks n ((List.range (16 * n)).map f) =
    (List.range n).map fun k => (List.range 16).map fun i => f (16 * k + i) := by
  induction n generalizing f with
  | zero => rfl
  | succ n ih =>
    have cut : (List.range (16 * (n + 1))).map f =
        (List.range 16).map f ++ (List.range (16 * n)).map fun i => f (16 + i) := by
      rw [Nat.mul_succ,Nat.add_comm,List.range_add,List.map_append,List.map_map]
      rfl
    have ends : List.range (n + 1) = 0 :: (List.range n).map Nat.succ := List.range_succ_eq_map
    rw [cut,Sha256.blocks,List.take_left' (by simp),List.drop_left' (by simp),ih,ends,List.map_cons,List.map_map]
    refine congrArg₂ List.cons ?_ ?_
    · simp only [Nat.mul_zero,Nat.zero_add]
    · apply List.map_congr_left
      intro k _
      simp only [Function.comp_apply]
      apply List.map_congr_left
      intro i _
      congr 1
      omega

theorem wordAt_held (held : b.take message.length = message) (inside : k + 4 ≤ message.length) :
    wordAt b k = wordAt message k := by
  have same (j : Nat) (below : j < message.length) : message.getD j 0 = b.getD j 0 := by
    rw [← held]
    simp [below]
  unfold wordAt
  rw [same k (by omega),same (k + 1) (by omega),same (k + 2) (by omega),same (k + 3) (by omega)]

/-- One turn of the block loop, while the buffer holds the message there. -/
theorem block_held (held : b.take message.length = message) (inside : off + 64 ≤ message.length)
    (w : Vector Int 64) (h : Vars) : (block b off (w, h)).2.words =
      Sha256.compress h.words ((List.range 16).map fun i => wordAt message (off + 4 * i)) := by
  have words : (List.range 16).map (fun i => word (load (loadBlock b off w) i)) =
      (List.range 16).map fun i => wordAt message (off + 4 * i) := by
    apply List.map_congr_left
    intro i below
    rw [List.mem_range] at below
    rw [loadBlock_load b off w i below]
    exact wordAt_held held (by omega)
  rw [block_words,words]

theorem initial_words : Vars.initial.words = Sha256.initial := by
  decide +kernel

/-- The block loop over a buffer that starts with whole blocks. -/
theorem block_loop (b message : Bytes) (n : Nat) (held : b.take message.length = message)
    (whole : message.length = 64 * n) (w : Vector Int 64) :
    (forLoop 0 message.length 64 (block b) (w, Vars.initial)).2.words =
      (Sha256.blocks n (Sha256.toWords message)).foldl Sha256.compress Sha256.initial := by
  have words : Sha256.blocks n (Sha256.toWords message) =
      (List.range n).map fun k => (List.range 16).map fun i => wordAt message (64 * k + 4 * i) := by
    have count : message.length / 4 = 16 * n := by omega
    rw [toWords_range,count,blocks_range]
    apply List.map_congr_left
    intro k _
    apply List.map_congr_left
    intro i _
    congr 1
    omega
  rw [words,List.foldl_map]
  have all := forLoop_invariant (s := (w, Vars.initial)) (fun off s => off % 64 = 0 ∧
      s.2.words = (List.range (off / 64)).foldl (fun s k =>
        Sha256.compress s ((List.range 16).map fun i => wordAt message (64 * k + 4 * i))) Sha256.initial)
    0 message.length 64 n (block b) (by decide) (by omega) ⟨rfl, initial_words⟩ ?_
  · have count : message.length / 64 = n := by omega
    rw [count] at all
    exact all.2
  rintro off ⟨w, h⟩ below ⟨aligned, same⟩
  refine ⟨by omega, ?_⟩
  have count : (off + 64) / 64 = off / 64 + 1 := by omega
  have place : 64 * (off / 64) = off := by omega
  rw [block_held held (by omega),same,count,List.range_succ (n := off / 64),List.foldl_append,List.foldl_cons,
    List.foldl_nil,place]

theorem total_small (small : len < 2 ^ 29) : total len = (64 * ((len + 72) / 64) : Nat) := by
  have room : (len : Int) + 9 + 63 = (len + 72 : Nat) := by push_cast; omega
  have blocks := sar_small (n := len + 72) (k := 6) (by decide) (by omega)
  have bytes := shl_small (n := (len + 72) / 64) (k := 6) (by decide) (by simp; omega)
  rw [total,room,blocks]
  refine bytes.trans ?_
  push_cast
  rw [Int.mul_comm]

theorem setByte_append (a rest : Bytes) (c : UInt8) (x : Int) (place : i = a.length) :
    setByte (a ++ c :: rest) (i : Nat) x = a ++ toUint8 x :: rest := by
  subst place
  simp [setByte]

theorem toUint8_unit (x : UInt16) : toUint8 x.toNat = x.toUInt8 := by
  rw [toUint8_word]
  apply UInt8.toNat_inj.mp
  have small := x.toNat_lt
  rw [UInt32.toNat_toUInt8,toNat_word,UInt16.toNat_toUInt8]
  omega

/-- The copying loop, over a part of the buffer that is zero. -/
theorem copy_loop (msg : List UInt16) (rest : Bytes) (n : Nat) (fits : msg.length ≤ n) :
    forLoop 0 msg.length 1 (fun i b => setByte b i (msg.getD i 0).toNat) (List.replicate n 0 ++ rest) =
      msg.map (·.toUInt8) ++ (List.replicate (n - msg.length) 0 ++ rest) := by
  have all := forLoop_invariant (s := List.replicate n 0 ++ rest)
    (fun i b => b = (msg.take i).map (·.toUInt8) ++ (List.replicate (n - i) 0 ++ rest))
    0 msg.length 1 msg.length (fun i b => setByte b i (msg.getD i 0).toNat) (by decide) (by omega) rfl ?_
  · rwa [List.take_length] at all
  rintro i b below rfl
  obtain ⟨zeros, count⟩ : ∃ zeros, n - i = zeros + 1 := ⟨n - i - 1, by omega⟩
  have left : n - (i + 1) = zeros := by omega
  rw [count,left,List.replicate_succ,List.cons_append,setByte_append,toUint8_unit]
  · have taken : msg.take (i + 1) = msg.take i ++ [msg.getD i 0] := by
      rw [List.take_add_one,List.getElem?_eq_getElem below]
      simp [below]
    rw [taken,List.map_append,List.map_singleton,List.append_assoc,List.singleton_append]
  · simp
    omega

theorem length_byte (n : Nat) (k : UInt32) (shift : k < 32) (small : n < 2 ^ 32) :
    toUint8 (bitAnd (ushr n k) 255) = (n / 2 ^ k.toNat).toUInt8 := by
  have mask : word 255 = 255 := rfl
  have count : k.toNat < 32 := UInt32.lt_iff_toNat_lt.mp shift
  rw [toUint8_word,word_bitAnd,mask,toUInt8_mask,word_ushr]
  apply UInt8.toNat_inj.mp
  rw [UInt32.toNat_toUInt8,UInt32.toNat_shiftRight,toNat_word,Nat.mod_eq_of_lt small,Nat.mod_eq_of_lt count,
    Nat.shiftRight_eq_div_pow]
  simp

theorem low_byte (n : Nat) : toUint8 (bitAnd n 255) = n.toUInt8 := by
  have mask : word 255 = 255 := rfl
  rw [toUint8_word,word_bitAnd,mask,toUInt8_mask]
  apply UInt8.toNat_inj.mp
  rw [UInt32.toNat_toUInt8,toNat_word]
  simp

theorem pad_length (message : Bytes) : (Sha256.pad message).length = 64 * ((message.length + 72) / 64) := by
  simp only [Sha256.pad,List.length_append,List.length_cons,List.length_replicate,List.length_map,List.length_range]
  omega

/-- Whatever the shared buffer holds and however large it is, its first bytes are cleared. -/
theorem fill_grow (buf : Bytes) (n : Nat) : ∃ rest, fill (grow buf n) n = List.replicate n 0 ++ rest := by
  have room : n ≤ (grow buf n).length := by
    unfold grow
    split
    · simp
    · omega
  refine ⟨(grow buf n).drop n, ?_⟩
  simp [fill,room]

/-- Four bytes written one after the other. -/
theorem setByte_four (a rest : Bytes) (stop : Nat) (reach : stop = a.length + 4) (x3 x2 x1 x0 : Int) :
    setByte (setByte (setByte (setByte (a ++ 0 :: 0 :: 0 :: 0 :: rest) (stop - 4) x3) (stop - 3) x2) (stop - 2) x1)
      (stop - 1) x0 = a ++ [toUint8 x3, toUint8 x2, toUint8 x1, toUint8 x0] ++ rest := by
  have four : (stop : Int) - 4 = (a.length : Nat) := by omega
  have three : (stop : Int) - 3 = (a.length + 1 : Nat) := by omega
  have two : (stop : Int) - 2 = (a.length + 2 : Nat) := by omega
  have one : (stop : Int) - 1 = (a.length + 3 : Nat) := by omega
  rw [four,setByte_append a _ 0 x3 rfl,three,List.append_cons,setByte_append _ _ 0 x2 (by simp),two,
    List.append_cons,setByte_append _ _ 0 x1 (by simp),one,List.append_cons,setByte_append _ _ 0 x0 (by simp)]
  simp

/-- The one bit, at the end of the message. -/
theorem setByte_bit (m rest : Bytes) (z : Nat) :
    setByte (m ++ (List.replicate (z + 8 + 1) 0 ++ rest)) m.length 0x80 =
      (m ++ 0x80 :: List.replicate z 0 ++ [0, 0, 0, 0]) ++ 0 :: 0 :: 0 :: 0 :: rest := by
  rw [List.replicate_succ,List.cons_append,setByte_append _ _ _ _ rfl,List.replicate_add]
  simp [List.replicate,toUint8]

/-- The eight bytes of the length, of which a short message needs four. -/
theorem length_field (n : Nat) (small : n < 2 ^ 32) :
    (List.range 8).map (fun i => (n / 256 ^ (7 - i)).toUInt8) =
      [0, 0, 0, 0, (n / 2 ^ 24).toUInt8, (n / 2 ^ 16).toUInt8, (n / 2 ^ 8).toUInt8, n.toUInt8] := by
  have range : List.range 8 = [0, 1, 2, 3, 4, 5, 6, 7] := rfl
  have seven : n / 256 ^ 7 = 0 := Nat.div_eq_of_lt (by omega)
  have six : n / 256 ^ 6 = 0 := Nat.div_eq_of_lt (by omega)
  have five : n / 256 ^ 5 = 0 := Nat.div_eq_of_lt (by omega)
  have four : n / 256 ^ 4 = 0 := Nat.div_eq_of_lt (by omega)
  simp only [range,List.map_cons,List.map_nil,Nat.reduceSub,Nat.sub_self,seven,six,five,four]
  simp

/-- The buffer starts with the padded message. -/
theorem fillBuffer_pad (buf : Bytes) (msg : List UInt16) (small : msg.length < 2 ^ 29) :
    ∃ rest, fillBuffer buf msg = Sha256.pad (msg.map (·.toUInt8)) ++ rest := by
  obtain ⟨rest, cleared⟩ := fill_grow buf (64 * ((msg.length + 72) / 64))
  have copied := copy_loop msg rest (64 * ((msg.length + 72) / 64)) (by omega)
  have zeros : 64 * ((msg.length + 72) / 64) - msg.length = (119 - msg.length % 64) % 64 + 8 + 1 := by omega
  refine ⟨rest, ?_⟩
  unfold fillBuffer
  have size : (msg.map (·.toUInt8)).length = msg.length := List.length_map _
  have bits : (msg.length : Int) * 8 = (8 * msg.length : Nat) := by push_cast; omega
  simp only [total_small small,cleared,copied,zeros,bits]
  have byte (k : UInt32) (shift : k < 32) := length_byte (8 * msg.length) k shift (by omega)
  rw [← size,setByte_bit,setByte_four _ _ _ (by simp; omega),size,Sha256.pad,size,length_field _ (by omega),
    byte 24 (by decide),byte 16 (by decide),byte 8 (by decide),low_byte]
  simp

/-- Four bytes of the result are those of one word. -/
theorem putWord_load (o : Vector UInt8 32) (i : Nat) (h : Int) (below : j < 32) : load (putWord o i h) j =
    if i ≤ j ∧ j < i + 4 then (Sha256.ofWord (word h)).getD (j - i) 0 else load o j := by
  have mask : word 255 = 255 := rfl
  simp only [putWord,load_store _ _ _ _ below,toUint8_word,word_bitAnd,mask,toUInt8_mask,word_ushr]
  by_cases inside : i ≤ j ∧ j < i + 4
  · obtain ⟨d, rfl⟩ : ∃ d, j = i + d := ⟨j - i, by omega⟩
    rw [if_pos inside,Nat.add_sub_cancel_left]
    obtain rfl | rfl | rfl | rfl : d = 0 ∨ d = 1 ∨ d = 2 ∨ d = 3 := by omega
    all_goals simp [Sha256.ofWord]
  · rw [if_neg inside,if_neg (by omega),if_neg (by omega),if_neg (by omega),if_neg (by omega)]

theorem toList_load (v : Vector UInt8 32) : v.toList = (List.range 32).map (load v) := by
  apply List.ext_getElem
  · simp
  · intro i inside _
    simp only [Vector.length_toList] at inside
    simp [load,inside]

/-- A word is written behind the bytes written so far. -/
theorem putWord_written (o : Vector UInt8 32) (i : Nat) (h : Int) (within : i + 4 ≤ 32) :
    (List.range (i + 4)).map (load (putWord o i h)) = (List.range i).map (load o) ++ Sha256.ofWord (word h) := by
  rw [List.range_add,List.map_append,List.map_map]
  refine congrArg₂ (· ++ ·) ?_ ?_
  · apply List.map_congr_left
    intro j inside
    rw [List.mem_range] at inside
    rw [putWord_load _ _ _ (by omega),if_neg (by omega)]
  · have range : List.range 4 = [0, 1, 2, 3] := rfl
    have byte (d : Nat) (few : d < 4) : load (putWord o i h) (i + d) = (Sha256.ofWord (word h)).getD d 0 := by
      rw [putWord_load _ _ _ (by omega),if_pos (by omega),Nat.add_sub_cancel_left]
    simp only [range,List.map_cons,List.map_nil,Function.comp_apply]
    rw [byte 0 (by decide),byte 1 (by decide),byte 2 (by decide),byte 3 (by decide)]
    rfl

theorem putWord_toList (o : Vector UInt8 32) (h : Vars) :
    (putWord (putWord (putWord (putWord (putWord (putWord (putWord (putWord o 0 h.a) 4 h.bb) 8 h.c) 12 h.d) 16 h.e)
      20 h.f) 24 h.g) 28 h.hh).toList =
    Sha256.ofWord h.words.a ++ Sha256.ofWord h.words.b ++ Sha256.ofWord h.words.c ++ Sha256.ofWord h.words.d ++
      Sha256.ofWord h.words.e ++ Sha256.ofWord h.words.f ++ Sha256.ofWord h.words.g ++ Sha256.ofWord h.words.h := by
  rw [toList_load,putWord_written _ 28 _ (by decide),putWord_written _ 24 _ (by decide),
    putWord_written _ 20 _ (by decide),putWord_written _ 16 _ (by decide),putWord_written _ 12 _ (by decide),
    putWord_written _ 8 _ (by decide),putWord_written _ 4 _ (by decide),putWord_written _ 0 _ (by decide)]
  rfl

/-- Whatever earlier calls left behind, a call computes the digest of the low bytes of its string. -/
theorem sha256Str_out (scratch : Scratch) (msg : List UInt16) (small : msg.length < 2 ^ 29) :
    (sha256Str scratch msg).out = Sha256.digest (msg.map (·.toUInt8)) := by
  obtain ⟨rest, filled⟩ := fillBuffer_pad scratch.buf msg small
  have size := pad_length (msg.map (·.toUInt8))
  rw [List.length_map] at size
  have held : (fillBuffer scratch.buf msg).take (Sha256.pad (msg.map (·.toUInt8))).length =
      Sha256.pad (msg.map (·.toUInt8)) := by
    rw [filled,List.take_left]
  have hashed := block_loop _ _ ((msg.length + 72) / 64) held size scratch.w
  have count : (Sha256.toWords (Sha256.pad (msg.map (·.toUInt8)))).length / 16 = (msg.length + 72) / 64 := by
    rw [toWords_range,List.length_map,List.length_range,size]
    omega
  apply Vector.toList_inj.mp
  have bytes : (total msg.length).toNat = (Sha256.pad (msg.map (·.toUInt8))).length := by
    rw [total_small small,size]
    rfl
  unfold sha256Str
  rw [bytes]
  refine (putWord_toList _ _).trans ?_
  rw [hashed]
  simp only [Sha256.digest,count]
  rfl

section Strings

variable {s : List Char}

/-- Every character is ASCII. -/
def Plain (s : List Char) : Prop := ∀ c ∈ s, c.toNat < 128

instance plainDecidable (s : List Char) : Decidable (Plain s) := List.decidableBAll (fun c : Char => c.toNat < 128) s

theorem utf8_plain (plain : Plain s) : utf8 s = s.map fun c => c.toNat.toUInt8 := by
  induction s with
  | nil => rfl
  | cons c s ih =>
    have small := plain c List.mem_cons_self
    have byte : c.toNat.toUInt8.toNat = c.toNat := by
      simp
      omega
    have one : String.utf8EncodeChar c = [c.toNat.toUInt8] := by
      have here := utf8EncodeChar_ascii (c := c.toNat.toUInt8) (UInt8.lt_iff_toNat_lt.mpr (by rw [byte]; exact small))
      rwa [byte,Char.ofNat_toNat] at here
    have later := ih fun d member => plain d (List.mem_cons_of_mem c member)
    simp only [utf8,List.flatMap_cons,one,List.map_cons] at later ⊢
    rw [later,List.singleton_append]

theorem utf16_plain (plain : Plain s) : utf16 s = s.map fun c => c.toNat.toUInt16 := by
  induction s with
  | nil => rfl
  | cons c s ih =>
    have small := plain c List.mem_cons_self
    have later := ih fun d member => plain d (List.mem_cons_of_mem c member)
    simp only [utf16,List.flatMap_cons,List.map_cons] at later ⊢
    rw [if_pos (by omega),later,List.singleton_append]

/-- The low bytes of an ASCII string's code units are its bytes. -/
theorem utf16_bytes (plain : Plain s) : (utf16 s).map (·.toUInt8) = utf8 s := by
  rw [utf16_plain plain,utf8_plain plain,List.map_map]
  apply List.map_congr_left
  intro c member
  simp

theorem toDigits_plain (n : Nat) : Plain (Nat.toDigits 10 n) := fun c member => by
  have digit := Nat.isDigit_of_mem_toDigits (by decide) (by decide) member
  have high := (Char.isDigit_iff_toNat.mp digit).2
  exact Nat.lt_of_le_of_lt high (by decide)

theorem utf8_toDigits (n : Nat) : utf8 (Nat.toDigits 10 n) = decimal n := utf8_plain (toDigits_plain n)

end Strings

theorem sha256Str_string (scratch : Scratch) (s : List Char) (plain : Plain s) (small : s.length < 2 ^ 29) :
    (sha256Str scratch (utf16 s)).out = Sha256.digest (utf8 s) := by
  have units : (utf16 s).length = s.length := by rw [utf16_plain plain,List.length_map]
  rw [sha256Str_out scratch _ (by omega),utf16_bytes plain]

def isHex (c : Char) : Bool := c ∈ "0123456789abcdefABCDEF".toList

theorem isHex_plain (hex : ∀ c ∈ salt, isHex c = true) : Plain salt := fun c member => by
  have all : "0123456789abcdefABCDEF".toList.all (·.toNat < 128) = true := by decide
  have inside := hex c member
  rw [isHex,decide_eq_true_eq] at inside
  simpa using List.all_eq_true.mp all c inside

/-- The hash tried for a nonce, in the terms of the server. -/
theorem attempt_out (scratch : Scratch) (hex : ∀ c ∈ salt, isHex c = true)
    (fits : (salt ++ Nat.toDigits 10 nonce).length < 2 ^ 29) :
    (attempt scratch salt nonce).out = Sha256.digest (utf8 salt ++ decimal nonce) := by
  have plain : Plain (salt ++ Nat.toDigits 10 nonce) := fun c member =>
    (List.mem_append.mp member).elim (isHex_plain hex c) (toDigits_plain nonce c)
  have bytes : utf8 (salt ++ Nat.toDigits 10 nonce) = utf8 salt ++ decimal nonce := by
    rw [← utf8_toDigits]
    exact List.flatMap_append
  rw [attempt,sha256Str_string scratch _ plain fits,bytes]

/-- The script's hash is SHA-256 of the bytes of the string, whatever the buffers held, so the hash
it tries for a nonce is the one the server checks. -/
theorem solver_hash_exact (crates : Crates) (standard : ∀ message, crates.sha256 message = Sha256.digest message) :
    (∀ (scratch : Scratch) (s : List Char), Plain s → s.length < 2 ^ 29 →
      (sha256Str scratch (utf16 s)).out = Sha256.digest (utf8 s)) ∧
    ∀ (scratch : Scratch) (salt : List Char) (nonce : UInt64), (∀ c ∈ salt, isHex c = true) →
      nonce.toNat < 2 ^ 53 → (salt ++ Nat.toDigits 10 nonce.toNat).length < 2 ^ 29 →
      (attempt scratch salt nonce.toNat).out = powHash crates (utf8 salt) nonce := by
  refine ⟨sha256Str_string, ?_⟩
  intro scratch salt nonce hex _ fits
  rw [attempt_out scratch hex fits,powHash,standard]

theorem solver_hash_exact_reference :
    (attempt Scratch.initial "00ff".toList 7).out = powHash Reference.crates (utf8 "00ff".toList) 7 :=
  (solver_hash_exact Reference.crates fun _ => rfl).2 Scratch.initial "00ff".toList 7
    (List.all_eq_true.mp (by decide)) (by decide) (by decide)

/-- The self test passes on loading, so a worker always searches. -/
theorem shaSelfTest_passes (scratch : Scratch) : (shaSelfTest scratch).1 = true := by
  have first : (sha256Str scratch (utf16 "abc".toList)).out = Sha256.digest (utf8 "abc".toList) :=
    sha256Str_string scratch _ (by decide) (by decide)
  have second (scratch : Scratch) :
      (sha256Str scratch (utf16 "abcdbcdecdefdefgefghfghighijhijkijkljklmklmnlmnomnopnopq".toList)).out =
        Sha256.digest (utf8 "abcdbcdecdefdefgefghfghighijhijkijkljklmklmnlmnomnopnopq".toList) :=
    sha256Str_string scratch _ (by decide) (by decide)
  have one : hexText (Sha256.digest (utf8 "abc".toList)).toList =
      "ba7816bf8f01cfea414140de5dae2223b00361a396177a9cb410ff61f20015ad".toList := by decide +kernel
  have two : hexText (Sha256.digest (utf8 "abcdbcdecdefdefgefghfghighijhijkijkljklmklmnlmnomnopnopq".toList)).toList =
      "248d6a61d20638b8e5c026930c3e6039a33ce45964ff2167f6ecedd419db06c1".toList := by decide +kernel
  simp only [shaSelfTest,first,one,second,two,if_true,decide_true]

/-- The nonces a worker tries. -/
def tried (start stride turns : Nat) : List Nat := (List.range turns).map (start + stride * ·)

theorem tried_succ (start stride turns : Nat) :
    tried start stride (turns + 1) = start :: tried (start + stride) stride turns := by
  rw [tried,tried,List.range_succ_eq_map,List.map_cons,List.map_map]
  refine congrArg₂ List.cons (by simp) (List.map_congr_left fun i _ => ?_)
  simp only [Function.comp_apply,Nat.succ_eq_add_one,Nat.mul_add]
  omega

/-- The server's verdict on a nonce is the script's on the hash it tried. -/
theorem below_attempt (standard : ∀ message, crates.sha256 message = Sha256.digest message) (scratch : Scratch)
    (hex : ∀ c ∈ salt, isHex c = true) (small : difficulty < 2 ^ 64) (exact : nonce < 2 ^ 53)
    (fits : (salt ++ Nat.toDigits 10 nonce).length < 2 ^ 29) :
    below (attempt scratch salt nonce).out.toList (difficultyToTarget difficulty) =
      solutionValid crates (utf8 salt) nonce.toUInt64 difficulty.toUInt64 := by
  have same : nonce.toUInt64.toNat = nonce := by
    rw [Nat.toUInt64_eq,UInt64.toNat_ofNat']
    exact Nat.mod_eq_of_lt (by omega)
  have target := difficultyToTarget_eq small
  rw [solutionValid,powHash,standard,same,attempt_out scratch hex fits,below,target,
    belowFrom_eq _ _ 32 0 (by simp) (by simp [length_difficultyToTarget]),List.drop_zero,List.drop_zero]

/-- A search reports the first nonce it tries that the server accepts, and no other. -/
theorem search_found (standard : ∀ message, crates.sha256 message = Sha256.digest message)
    (hex : ∀ c ∈ salt, isHex c = true) (small : difficulty < 2 ^ 64) (short : salt.length + 16 < 2 ^ 29)
    (scratch : Scratch) (count : Nat) (exact : start + stride * turns < 2 ^ 53) :
    .found n ∈ search salt (difficultyToTarget difficulty) stride every turns scratch start count ↔
      (tried start stride turns).find? (fun m =>
        solutionValid crates (utf8 salt) m.toUInt64 difficulty.toUInt64) = some n := by
  induction turns generalizing scratch start count with
  | zero => simp [search,tried]
  | succ turns ih =>
    rw [Nat.mul_succ] at exact
    have digits : (Nat.toDigits 10 start).length ≤ 16 :=
      (Nat.length_toDigits_le_iff (by decide) (by decide)).mpr (by omega)
    have fits : (salt ++ Nat.toDigits 10 start).length < 2 ^ 29 := by
      rw [List.length_append]
      omega
    have verdict := below_attempt standard scratch hex small (by omega : start < 2 ^ 53) fits
    rw [tried_succ,List.find?_cons,search]
    cases accepted : solutionValid crates (utf8 salt) start.toUInt64 difficulty.toUInt64 with
    | true =>
      simp only [verdict,accepted,if_true]
      simp [eq_comm]
    | false =>
      have room : start + stride + stride * turns < 2 ^ 53 := by omega
      have going := fun scratch count => ih scratch count room
      simp only [verdict,accepted]
      by_cases full : count + 1 = every
      · simp [full,going]
      · simp [full,going]

/-- What a worker reports is what the server accepts, and it reports it as soon as it tries it. -/
theorem worker_found (standard : ∀ message, crates.sha256 message = Sha256.digest message)
    (hex : ∀ c ∈ salt, isHex c = true) (small : difficulty < 2 ^ 64) (short : salt.length + 16 < 2 ^ 29)
    (exact : start + stride * turns < 2 ^ 53) :
    .found n ∈ worker salt (difficultyToTarget difficulty) start stride every turns ↔
      (tried start stride turns).find? (fun m =>
        solutionValid crates (utf8 salt) m.toUInt64 difficulty.toUInt64) = some n := by
  have passes := shaSelfTest_passes Scratch.initial
  simp only [worker,passes,if_true]
  exact search_found standard hex small short _ 0 exact

end PowGate.Solver
