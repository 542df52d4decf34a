import Mathlib.Data.List.TakeWhile
import PowGate.Context

/-! Texts of network addresses as the standard library reads them, and the network blocks
that CIDR strings name. -/
namespace PowGate

open Text

/-- `char::to_digit`. -/
def toDigit (radix : Nat) (c : UInt8) : Option Nat :=
  let digit :=
    if 48 ≤ c ∧ c ≤ 57 then c.toNat - 48
    else if 97 ≤ c ∧ c ≤ 122 then c.toNat - 87
    else if 65 ≤ c ∧ c ≤ 90 then c.toNat - 55 else radix
  if digit < radix then some digit else none

/-- The longest run of digits, which must not be longer than `most`, nor start with a zero
unless that is allowed, and whose value must be below `limit`. -/
def readNumber (radix most limit : Nat) (zeroPrefix : Bool) (s : Bytes) : Option (Nat × Bytes) :=
  let digits := s.takeWhile fun c => (toDigit radix c).isSome
  let value := digits.foldl (fun acc c => acc * radix + (toDigit radix c).getD 0) 0
  if digits = [] ∨ most < digits.length ∨ limit ≤ value then none
  else if zeroPrefix = false ∧ digits.head? = some 48 ∧ 1 < digits.length then none
  else some (value, s.drop digits.length)

def readGivenChar (c : UInt8) : Bytes → Option Bytes
  | d :: rest => if d = c then some rest else none
  | [] => none

def readOctet (s : Bytes) : Option (Nat × Bytes) := readNumber 10 3 256 false s

/-- Four decimal numbers. -/
def readIpv4 (s : Bytes) : Option (Nat × Bytes) := do
  let (a, s) ← readOctet s
  let (b, s) ← readOctet (← readGivenChar 46 s)
  let (c, s) ← readOctet (← readGivenChar 46 s)
  let (d, s) ← readOctet (← readGivenChar 46 s)
  return (((a * 256 + b) * 256 + c) * 256 + d, s)

/-- A separator in front of every group but the first. -/
def readSeparator (first : Bool) (s : Bytes) : Option Bytes := if first then some s else readGivenChar 58 s

/-- At most the given number of hexadecimal groups. An IPv4 address may stand for the last two. -/
def readGroups : Nat → Bool → Bytes → List Nat × Bool × Bytes
  | 0, _, s => ([], false, s)
  | left + 1, first, s =>
    match if 0 < left then (readSeparator first s).bind readIpv4 else none with
    | some (inner, rest) => ([inner / 65536, inner % 65536], true, rest)
    | none =>
      match (readSeparator first s).bind (readNumber 16 4 65536 true) with
      | some (group, rest) =>
        let (more, embedded, after) := readGroups left false rest
        (group :: more, embedded, after)
      | none => ([], false, s)

def joinGroups (groups : List Nat) : BitVec 128 :=
  BitVec.ofNat 128 (groups.foldl (fun acc group => acc * 65536 + group) 0)

/-- Eight groups, where `::` stands for one or more groups of zeros. -/
def readIpv6 (s : Bytes) : Option (BitVec 128 × Bytes) :=
  let (head, embedded, s) := readGroups 8 true s
  if head.length = 8 then some (joinGroups head, s)
  else if embedded then none
  else do
    let s ← readGivenChar 58 s
    let s ← readGivenChar 58 s
    let (tail, _, s) := readGroups (7 - head.length) true s
    return (joinGroups (head ++ List.replicate (8 - head.length - tail.length) 0 ++ tail), s)

/-- `str::parse::<IpAddr>`. -/
def IpAddr.parse (s : Bytes) : Option IpAddr :=
  match readIpv4 s with
  | some (bits, rest) => if rest = [] then some (.v4 (BitVec.ofNat 32 bits)) else none
  | none => do
    let (bits, rest) ← readIpv6 s
    if rest = [] then some (.v6 bits) else none

/-- `str::parse::<u32>`. -/
def parseU32 (s : Bytes) : Option Nat := do
  let n ← parseDigits (match s with | 43 :: rest => rest | _ => s)
  if n < 2 ^ 32 then some n else none

section Texts

/-- The number a run of hexadecimal digits denotes. -/
def hexNumber (digits : Bytes) : Nat := digits.foldl (fun acc c => acc * 16 + (toDigit 16 c).getD 0) 0

theorem hexText_digit (small : n < 16) : ∃ c, hexText n = [c] ∧ toDigit 16 c = some n := by
  have all : ∀ k : Fin 16, ∃ c, hexText k.val = [c] ∧ toDigit 16 c = some k.val := by
    have shape : ∀ k : Fin 16, hexText k.val = [(Nat.digitChar k.val).toNat.toUInt8] ∧
        toDigit 16 (Nat.digitChar k.val).toNat.toUInt8 = some k.val := by decide +kernel
    exact fun k => ⟨_, shape k⟩
  exact all ⟨n, small⟩

theorem hexText_step (large : 16 ≤ n) : hexText n = hexText (n / 16) ++ hexText (n % 16) := by
  have whole : 16 * (n / 16) + n % 16 = n := Nat.div_add_mod n 16
  have digits := Nat.toDigits_append_toDigits (b := 16) (n := n / 16) (d := n % 16) (by decide) (by omega)
    (Nat.mod_lt _ (by decide))
  rw [whole] at digits
  rw [hexText,← digits,List.map_append]
  rfl

@[simp] theorem hexNumber_hexText (n : Nat) : hexNumber (hexText n) = n := by
  induction n using Nat.strong_induction_on with
  | h n ih =>
    by_cases small : n < 16
    · obtain ⟨c, shape, digit⟩ := hexText_digit small
      simp [hexNumber,shape,digit]
    · obtain ⟨c, shape, digit⟩ := hexText_digit (Nat.mod_lt n (by decide : 0 < 16))
      have front := ih (n / 16) (by omega)
      rw [hexNumber] at front
      rw [hexText_step (Nat.not_lt.mp small),hexNumber,List.foldl_append,front,shape]
      simp only [List.foldl_cons,List.foldl_nil,digit,Option.getD_some]
      omega

theorem hexText_digits (n : Nat) : ∀ c ∈ hexText n, (toDigit 16 c).isSome := by
  induction n using Nat.strong_induction_on with
  | h n ih =>
    by_cases small : n < 16
    · obtain ⟨c, shape, digit⟩ := hexText_digit small
      simp [shape,digit]
    · obtain ⟨c, shape, digit⟩ := hexText_digit (Nat.mod_lt n (by decide : 0 < 16))
      rw [hexText_step (Nat.not_lt.mp small),shape]
      intro d member
      rcases List.mem_append.mp member with front | last
      · exact ih (n / 16) (by omega) d front
      · rw [List.mem_singleton.mp last,digit]
        rfl

theorem hexText_ne_nil (n : Nat) : hexText n ≠ [] := by
  simp [hexText,Nat.toDigits_ne_nil]

theorem hexText_injective (same : hexText n = hexText m) : n = m := by
  rw [← hexNumber_hexText n,same,hexNumber_hexText]

/-- Neither separator of an address is a digit. -/
theorem hexText_free (n : Nat) : 58 ∉ hexText n ∧ 46 ∉ hexText n :=
  ⟨fun member => absurd (hexText_digits n 58 member) (by decide),
    fun member => absurd (hexText_digits n 46 member) (by decide)⟩

theorem decimal_free (n : Nat) : 58 ∉ decimal n :=
  fun member => absurd (decimal_digits member) (by decide)

/-- A number is read off up to the dot behind it. -/
theorem decimal_dot_inj (same : decimal n ++ 46 :: rest = decimal m ++ 46 :: more) : n = m ∧ rest = more := by
  have stop : ∀ tail, Json.Breaks (46 :: tail) := by
    intro tail c member
    obtain rfl : 46 = c := by simpa using member
    decide
  have read := congrArg Json.readDigits same
  rw [Json.readDigits_decimal (stop rest),Json.readDigits_decimal (stop more)] at read
  simpa using read

theorem v4Text_injective (same : v4Text a = v4Text b) : a = b := by
  simp only [v4Text,List.append_assoc,List.cons_append] at same
  obtain ⟨first, same⟩ := decimal_dot_inj same
  obtain ⟨second, same⟩ := decimal_dot_inj same
  obtain ⟨third, same⟩ := decimal_dot_inj same
  have fourth := decimal_injective same
  apply BitVec.eq_of_toNat_eq
  omega

/-- A span of zero segments within the address. -/
structure ZeroRun (all : List Nat) (span : Span) : Prop where
  inside : span.start + span.len ≤ all.length
  zero : ∀ i, span.start ≤ i → i < span.start + span.len → all[i]? = some 0

theorem ZeroRun.empty (all : List Nat) : ZeroRun all ⟨0, 0⟩ := ⟨Nat.zero_le _, fun i low high => by dsimp at high; omega⟩

/-- The scan keeps a run of zeros that ends where it stands, and the longest run so far. -/
theorem longestZeros_run (all : List Nat) (rest front : List Nat) (current longest : Span) (split : all = front ++ rest)
    (running : ZeroRun all current) (here : current.len ≠ 0 → current.start + current.len = front.length)
    (best : ZeroRun all longest) : ZeroRun all (longestZeros rest front.length current longest) := by
  induction rest generalizing front current longest with
  | nil => exact best
  | cons segment rest ih =>
    have next : all = (front ++ [segment]) ++ rest := by simp [split]
    have size : (front ++ [segment]).length = front.length + 1 := by simp
    rw [longestZeros,← size]
    split
    · next zero =>
      have found : all[front.length]? = some 0 := by simp [split,zero]
      have inside : front.length + 1 ≤ all.length := by simp [split]
      obtain ⟨extended, same, grown, ends⟩ : ∃ extended : Span,
          (if current.len = 0 then ⟨front.length, 1⟩ else ⟨current.start, current.len + 1⟩) = extended ∧
            ZeroRun all extended ∧ extended.start + extended.len = front.length + 1 := by
        split
        · refine ⟨_, rfl, ⟨inside, fun i low high => ?_⟩, rfl⟩
          obtain rfl : i = front.length := by
            dsimp only at low high
            omega
          exact found
        · next some_ =>
          have stands := here some_
          refine ⟨_, rfl, ⟨by dsimp only; omega, fun i low high => ?_⟩, by dsimp only; omega⟩
          dsimp only at low high
          by_cases last : i = front.length
          · rw [last]
            exact found
          · exact running.zero i low (by omega)
      dsimp only
      rw [same]
      refine ih (front ++ [segment]) extended _ next grown (fun _ => by rw [ends,size]) ?_
      split
      · exact grown
      · exact best
    · exact ih (front ++ [segment]) _ _ next (ZeroRun.empty all) (fun some_ => absurd rfl some_) best

theorem ZeroRun.slice (run : ZeroRun all span) :
    all = all.take span.start ++ List.replicate span.len 0 ++ all.drop (span.start + span.len) := by
  have inside := run.inside
  apply List.ext_getElem?
  intro i
  by_cases before : i < span.start
  · rw [List.append_assoc,List.getElem?_append_left (by simp; omega),List.getElem?_take_of_lt before]
  · by_cases within : i < span.start + span.len
    · rw [List.append_assoc,List.getElem?_append_right (by simp; omega),List.getElem?_append_left (by simp; omega),
        run.zero i (Nat.not_lt.mp before) within,List.getElem?_replicate]
      simp
      omega
    · rw [List.getElem?_append_right (by simp; omega)]
      simp
      congr 1
      omega

/-- The texts between the colons: a missing part of the address leaves an empty one. -/
def parts (chunk : List Nat) : List Bytes := if chunk = [] then [[]] else chunk.map hexText

/-- The same for the whole address, with the zeros between `left` and `right` left out. -/
def fields (left right : List Nat) : List Bytes :=
  if left.length = 8 then left.map hexText else parts left ++ [] :: parts right

theorem parts_ne_nil (chunk : List Nat) : parts chunk ≠ [] := by
  unfold parts
  split
  · simp
  · simpa

theorem joinSegments_eq (chunk : List Nat) : joinSegments chunk = List.intercalate [58] (parts chunk) := by
  unfold joinSegments parts
  split
  · next empty => simp [empty]
  · rfl

theorem intercalate_append {sep : Bytes} {front back : List Bytes} (nonempty : front ≠ []) (more : back ≠ []) :
    List.intercalate sep (front ++ back) = List.intercalate sep front ++ sep ++ List.intercalate sep back := by
  induction front with
  | nil => exact absurd rfl nonempty
  | cons a rest ih =>
    cases rest with
    | nil => simp [List.intercalate_cons_of_ne_nil more]
    | cons b rest =>
      have later := ih (by simp)
      simp only [List.cons_append] at later ⊢
      rw [List.intercalate_cons_cons,List.intercalate_cons_cons,later]
      simp

/-- Eight segments, some of which an unmapped address leaves out of its text. -/
theorem text_v6 (unmapped : toIpv4Mapped bits = none) : ∃ left right : List Nat,
    segments bits = left ++ List.replicate (8 - left.length - right.length) 0 ++ right ∧
      (left.length = 8 → right = []) ∧ IpAddr.text (.v6 bits) = List.intercalate [58] (fields left right) := by
  have size : (segments bits).length = 8 := by simp [segments]
  have run : ZeroRun (segments bits) (longestZeros (segments bits) 0 ⟨0, 0⟩ ⟨0, 0⟩) :=
    longestZeros_run (segments bits) (segments bits) [] ⟨0, 0⟩ ⟨0, 0⟩ rfl (ZeroRun.empty _)
      (fun some_ => absurd rfl some_) (ZeroRun.empty _)
  have inside := run.inside
  simp only [IpAddr.text,unmapped]
  generalize longestZeros (segments bits) 0 ⟨0, 0⟩ ⟨0, 0⟩ = zeros at run inside
  split
  · next long =>
    have short : ((segments bits).take zeros.start).length = zeros.start := by
      rw [List.length_take]
      omega
    have rest : ((segments bits).drop (zeros.start + zeros.len)).length = 8 - (zeros.start + zeros.len) := by
      rw [List.length_drop,size]
    refine ⟨(segments bits).take zeros.start, (segments bits).drop (zeros.start + zeros.len), ?_, fun full => by omega, ?_⟩
    · rw [short,rest,show 8 - zeros.start - (8 - (zeros.start + zeros.len)) = zeros.len by omega]
      exact run.slice
    · rw [fields,if_neg (by omega),intercalate_append (parts_ne_nil _) (by simp),
        List.intercalate_cons_of_ne_nil (parts_ne_nil _),← joinSegments_eq,← joinSegments_eq]
      simp [ascii]
  · refine ⟨segments bits, [], by simp [size], fun _ => rfl, ?_⟩
    rw [fields,if_pos size,joinSegments]

theorem parts_free (chunk : List Nat) : ∀ part ∈ parts chunk, 58 ∉ part ∧ 46 ∉ part := by
  unfold parts
  split
  · simp
  · intro part member
    obtain ⟨n, _, rfl⟩ := List.mem_map.mp member
    exact hexText_free n

theorem fields_free (left right : List Nat) : ∀ field ∈ fields left right, 58 ∉ field ∧ 46 ∉ field := by
  unfold fields
  split
  · intro field member
    obtain ⟨n, _, rfl⟩ := List.mem_map.mp member
    exact hexText_free n
  · intro field member
    rcases List.mem_append.mp member with front | member
    · exact parts_free left field front
    · rcases List.mem_cons.mp member with rfl | back
      · simp
      · exact parts_free right field back

theorem fields_ne_nil (left right : List Nat) : fields left right ≠ [] := by
  unfold fields
  split
  · next full =>
    intro empty
    rw [List.map_eq_nil_iff] at empty
    simp [empty] at full
  · simp

/-- Full texts up to the first empty one, and what follows the empty ones. -/
def ends (texts : List Bytes) : List Bytes × List Bytes :=
  (texts.takeWhile (· ≠ []), (texts.dropWhile (· ≠ [])).dropWhile (· = []))

theorem ends_fields (whole : left.length = 8 → right = []) :
    ends (fields left right) = (left.map hexText, right.map hexText) := by
  have full : ∀ chunk : List Nat, ∀ text ∈ chunk.map hexText, decide (text ≠ []) = true := by
    intro chunk text member
    obtain ⟨n, _, rfl⟩ := List.mem_map.mp member
    simpa using hexText_ne_nil n
  have stop : ∀ chunk : List Nat, (chunk.map hexText).dropWhile (· = []) = chunk.map hexText := by
    intro chunk
    cases chunk with
    | nil => rfl
    | cons n rest => simp [hexText_ne_nil]
  have back : (parts right).dropWhile (· = []) = right.map hexText := by
    unfold parts
    split
    · next empty => simp [empty]
    · exact stop right
  unfold fields ends
  split
  · next size =>
    rw [List.takeWhile_eq_self_iff.mpr (full left),List.dropWhile_eq_nil_iff.mpr (full left),whole size]
    rfl
  · by_cases empty : left = []
    · subst empty
      simpa [parts] using back
    · have shape : parts left = left.map hexText := if_neg empty
      rw [shape,List.takeWhile_append_of_pos (full left),List.dropWhile_append_of_pos (full left)]
      simpa using back

/-- Quotients and remainders at one more segment. -/
theorem segment_step (n i : Nat) : n / 2 ^ (16 * i) = n / 2 ^ (16 * (i + 1)) * 65536 + n / 2 ^ (16 * i) % 65536 := by
  rw [show 16 * (i + 1) = 16 * i + 16 by omega,Nat.pow_add,← Nat.div_div_eq_div_mul]
  omega

theorem segments_injective (same : segments bits = segments bits') : bits = bits' := by
  have digit : ∀ i < 8, bits.toNat / 2 ^ (16 * i) % 65536 = bits'.toNat / 2 ^ (16 * i) % 65536 := by
    intro i inside
    have found := congrArg (·[7 - i]?) same
    simpa [segments,show 7 - i < 8 by omega,show 112 - 16 * (7 - i) = 16 * i by omega] using found
  have upper : ∀ i ≤ 8, bits.toNat / 2 ^ (16 * (8 - i)) = bits'.toNat / 2 ^ (16 * (8 - i)) := by
    intro i
    induction i with
    | zero =>
      intro _
      rw [Nat.div_eq_of_lt bits.isLt,Nat.div_eq_of_lt bits'.isLt]
    | succ i ih =>
      intro inside
      rw [segment_step bits.toNat,segment_step bits'.toNat,digit (8 - (i + 1)) (by omega),
        show 8 - (i + 1) + 1 = 8 - i by omega,ih (by omega)]
  apply BitVec.eq_of_toNat_eq
  simpa using upper 8 (Nat.le_refl 8)
/-- The text between the colons determines both sides of the omitted zeros, and these the address. -/
theorem text_v6_injective (unmapped : toIpv4Mapped bits = none) (unmapped' : toIpv4Mapped bits' = none)
    (same : IpAddr.text (.v6 bits) = IpAddr.text (.v6 bits')) : bits = bits' := by
  obtain ⟨left, right, shape, whole, text⟩ := text_v6 unmapped
  obtain ⟨left', right', shape', whole', text'⟩ := text_v6 unmapped'
  rw [text,text'] at same
  have split := congrArg (List.splitOn 58) same
  rw [List.splitOn_intercalate 58 (fun f member => (fields_free left right f member).1) (fields_ne_nil left right),
    List.splitOn_intercalate 58 (fun f member => (fields_free left' right' f member).1) (fields_ne_nil left' right')]
    at split
  have sides := congrArg ends split
  rw [ends_fields whole,ends_fields whole',Prod.mk.injEq] at sides
  have inj : ∀ a b, hexText a = hexText b → a = b := fun _ _ => hexText_injective
  rw [List.map_injective_iff.mpr inj sides.1,List.map_injective_iff.mpr inj sides.2,← shape'] at shape
  exact segments_injective shape

theorem mem_intercalate {texts : List Bytes} (member : c ∈ List.intercalate [58] texts) :
    c = 58 ∨ ∃ text ∈ texts, c ∈ text := by
  induction texts with
  | nil => simp at member
  | cons a rest ih =>
    by_cases last : rest = []
    · rw [last,List.intercalate_singleton] at member
      exact .inr ⟨a, List.mem_cons_self, member⟩
    · rw [List.intercalate_cons_of_ne_nil last] at member
      rcases List.mem_append.mp member with front | back
      · rcases List.mem_append.mp front with first | colon
        · exact .inr ⟨a, List.mem_cons_self, first⟩
        · exact .inl (List.mem_singleton.mp colon)
      · rcases ih back with colon | ⟨text, inside, found⟩
        · exact .inl colon
        · exact .inr ⟨text, List.mem_cons_of_mem a inside, found⟩

theorem colon_mem_fields (left right : List Nat) : 58 ∈ List.intercalate [58] (fields left right) := by
  unfold fields
  split
  · next full =>
    match left, full with
    | a :: b :: rest, _ =>
      rw [List.map_cons,List.map_cons,List.intercalate_cons_cons]
      simp
  · rw [intercalate_append (parts_ne_nil left) (by simp)]
    simp

theorem text_v6_separators (unmapped : toIpv4Mapped bits = none) :
    58 ∈ IpAddr.text (.v6 bits) ∧ 46 ∉ IpAddr.text (.v6 bits) := by
  obtain ⟨left, right, _, _, text⟩ := text_v6 unmapped
  rw [text]
  refine ⟨colon_mem_fields left right, fun member => ?_⟩
  rcases mem_intercalate member with colon | ⟨field, inside, found⟩
  · cases colon
  · exact (fields_free left right field inside).2 found

theorem v4Text_separators (bits : BitVec 32) : 46 ∈ v4Text bits ∧ 58 ∉ v4Text bits := by
  simp [v4Text,decimal_free]

theorem text_mapped {inner : BitVec 32} (mapped : toIpv4Mapped bits = some inner) :
    IpAddr.text (.v6 bits) = ascii "::ffff:" ++ v4Text inner := by
  simp only [IpAddr.text,mapped]

theorem toIpv4Mapped_injective {inner : BitVec 32} (mapped : toIpv4Mapped bits = some inner)
    (mapped' : toIpv4Mapped bits' = some inner) :
    bits = bits' := by
  unfold toIpv4Mapped at mapped mapped'
  split at mapped
  · next high =>
    split at mapped'
    · next high' =>
      have low := (Option.some.inj mapped).trans (Option.some.inj mapped').symm
      apply BitVec.eq_of_toNat_eq
      have front := congrArg BitVec.toNat (high.trans high'.symm)
      have back := congrArg BitVec.toNat low
      simp only [BitVec.toNat_ushiftRight,Nat.shiftRight_eq_div_pow,BitVec.toNat_setWidth] at front back
      omega
    · cases mapped'
  · cases mapped

/-- No two addresses print alike. -/
theorem IpAddr.text_injective {a b : IpAddr} (same : a.text = b.text) : a = b := by
  have colon : ∀ bits, 58 ∈ IpAddr.text (.v6 bits) := by
    intro bits
    cases mapped : toIpv4Mapped bits with
    | none => exact (text_v6_separators mapped).1
    | some inner =>
      rw [text_mapped mapped]
      exact List.mem_append_left _ (by decide)
  cases a with
  | v4 x =>
    cases b with
    | v4 y => rw [v4Text_injective same]
    | v6 y =>
      have other := colon y
      rw [← same] at other
      exact absurd other (v4Text_separators x).2
  | v6 x =>
    cases b with
    | v4 y =>
      have other := colon x
      rw [same] at other
      exact absurd other (v4Text_separators y).2
    | v6 y =>
      cases mapped : toIpv4Mapped x with
      | none =>
        cases mapped' : toIpv4Mapped y with
        | none => rw [text_v6_injective mapped mapped' same]
        | some inner =>
          have free := (text_v6_separators mapped).2
          rw [same,text_mapped mapped'] at free
          exact absurd (List.mem_append_right _ (v4Text_separators inner).1) free
      | some inner =>
        cases mapped' : toIpv4Mapped y with
        | none =>
          have free := (text_v6_separators mapped').2
          rw [← same,text_mapped mapped] at free
          exact absurd (List.mem_append_right _ (v4Text_separators inner).1) free
        | some inner' =>
          rw [text_mapped mapped,text_mapped mapped'] at same
          rw [v4Text_injective (List.append_cancel_left same)] at mapped
          rw [toIpv4Mapped_injective mapped mapped']

theorem decimal_octet (small : n < 256) : (decimal n).length ≤ 3 := by
  have digits := (Nat.length_toDigits_le_iff (b := 10) (n := n) (k := 3) (by decide) (by decide)).mpr (by omega)
  simpa [decimal] using digits

theorem v4Text_length (bits : BitVec 32) : (v4Text bits).length ≤ 15 := by
  have bound := bits.isLt
  have first := decimal_octet (n := bits.toNat / 2 ^ 24) (by omega)
  have second := decimal_octet (n := bits.toNat / 2 ^ 16 % 256) (by omega)
  have third := decimal_octet (n := bits.toNat / 2 ^ 8 % 256) (by omega)
  have fourth := decimal_octet (n := bits.toNat % 256) (by omega)
  simp only [v4Text,List.length_append,List.length_cons]
  omega

theorem joinSegments_length {chunk : List Nat} (small : ∀ n ∈ chunk, n < 65536) :
    (joinSegments chunk).length ≤ 5 * chunk.length := by
  induction chunk with
  | nil => simp [joinSegments]
  | cons n rest ih =>
    have first : (hexText n).length ≤ 4 := by
      have digits := (Nat.length_toDigits_le_iff (b := 16) (n := n) (k := 4) (by decide) (by decide)).mpr
        (small n List.mem_cons_self)
      simpa [hexText] using digits
    have more := ih fun m member => small m (List.mem_cons_of_mem n member)
    by_cases last : rest = []
    · subst last
      simp only [joinSegments,List.map_cons,List.map_nil,List.intercalate_singleton,List.length_cons]
      omega
    · unfold joinSegments at more ⊢
      rw [List.map_cons,List.intercalate_cons_of_ne_nil (by simpa using last)]
      simp only [List.length_append,List.length_cons,List.length_nil]
      omega

/-- The text of an address is short. -/
theorem IpAddr.text_length (ip : IpAddr) : ip.text.length ≤ 42 := by
  cases ip with
  | v4 bits => exact Nat.le_trans (v4Text_length bits) (by decide)
  | v6 bits =>
    have segment : ∀ n ∈ segments bits, n < 65536 := by
      intro n member
      obtain ⟨i, _, rfl⟩ := List.mem_map.mp member
      exact Nat.mod_lt _ (by decide)
    have size : (segments bits).length = 8 := by simp [segments]
    cases mapped : toIpv4Mapped bits with
    | some inner =>
      have inside := v4Text_length inner
      rw [text_mapped mapped,List.length_append]
      have label : (ascii "::ffff:").length = 7 := by decide
      omega
    | none =>
      simp only [IpAddr.text,mapped]
      split
      · next long =>
        generalize longestZeros (segments bits) 0 ⟨0, 0⟩ ⟨0, 0⟩ = zeros at long
        have front : (joinSegments ((segments bits).take zeros.start)).length ≤ _ :=
          joinSegments_length fun n member => segment n (List.mem_of_mem_take member)
        have back : (joinSegments ((segments bits).drop (zeros.start + zeros.len))).length ≤ _ :=
          joinSegments_length fun n member => segment n (List.mem_of_mem_drop member)
        have colons : (ascii "::").length = 2 := by decide
        simp only [List.length_append,List.length_take,List.length_drop,size,colons] at front back ⊢
        omega
      · have whole := joinSegments_length segment
        omega

end Texts

end PowGate
