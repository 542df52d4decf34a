import PowGate.Address
import PowGate.Intervals

/-! The address ranges of a verified crawler: CIDR strings and the crawlers' JSON feeds,
kept as sorted disjoint intervals for each address family. -/
namespace PowGate

open Text Intervals

instance addressOrder : LinearOrder (BitVec w) where
  le_refl a := Nat.le_refl a.toNat
  le_trans a b c := Nat.le_trans (n := a.toNat) (m := b.toNat) (k := c.toNat)
  le_antisymm a b low high := BitVec.eq_of_toNat_eq (Nat.le_antisymm low high)
  le_total a b := Nat.le_total a.toNat b.toNat
  lt_iff_le_not_ge a b := Nat.lt_iff_le_and_not_ge (m := a.toNat) (n := b.toNat)
  toDecidableLE := inferInstance

/-- Sorted, non-overlapping inclusive address intervals, split by family. -/
structure IpRangeSet where
  v4 : List (BitVec 32 × BitVec 32)
  v6 : List (BitVec 128 × BitVec 128)
  prefixes : Nat
  deriving DecidableEq

def IpRangeSet.new : IpRangeSet := ⟨[], [], 0⟩

/-- First and last address that share the leading `length` bits. -/
def block (bits : BitVec w) (length : Nat) : BitVec w × BitVec w :=
  let mask := if length = 0 then 0 else BitVec.allOnes w <<< (w - length)
  (bits &&& mask, bits ||| ~~~mask)

/-- The address part of a CIDR string and its prefix length, when it has one. -/
def splitCidr (cidr : Bytes) : Option (Bytes × Option Nat) :=
  match splitOnce 47 cidr with
  | some (ip, bits) => (parseU32 (trim bits)).map fun n => (trim ip, some n)
  | none => some (trim cidr, none)

/-- Appends the interval of a CIDR; a bare address is a host route. `none` is the result
`false`, which leaves the set as it was. -/
def IpRangeSet.pushCidr (set : IpRangeSet) (cidr : Bytes) : Option IpRangeSet := do
  let (text, length) ← splitCidr cidr
  match IpAddr.parse text with
  | some (.v4 a) =>
    let bits := length.getD 32
    if 32 < bits then none
    else some { set with v4 := set.v4 ++ [block a bits], prefixes := set.prefixes + 1 }
  | some (.v6 a) =>
    let bits := length.getD 128
    if 128 < bits then none
    else some { set with v6 := set.v6 ++ [block a bits], prefixes := set.prefixes + 1 }
  | none => none

/-- Takes the interval that was appended last and inserts it where it belongs. -/
def settle [LinearOrder α] (ranges : List (α × α)) : List (α × α) :=
  match ranges.getLast? with
  | some interval => insertInterval ranges.dropLast interval
  | none => ranges

def IpRangeSet.addCidr (set : IpRangeSet) (cidr : Bytes) : Option IpRangeSet :=
  (set.pushCidr cidr).map fun pushed =>
    if pushed.v4.length ≠ set.v4.length then { pushed with v4 := settle pushed.v4 }
    else { pushed with v6 := settle pushed.v6 }

def IpRangeSet.contains (set : IpRangeSet) : IpAddr → Bool
  | .v4 a => containsInterval set.v4 a
  | .v6 a => containsInterval set.v6 a

def IpRangeSet.len (set : IpRangeSet) : Nat := set.prefixes

/-- One entry of a feed: `ipv4Prefix` and `ipv6Prefix`, both optional. -/
structure FeedPrefix where
  v4 : Option Bytes
  v6 : Option Bytes
  deriving DecidableEq

def pushField (state : IpRangeSet × Nat) : Option Bytes → Option (IpRangeSet × Nat)
  | some cidr => (state.1.pushCidr cidr).map fun parsed => (parsed, state.2 + 1)
  | none => some state

/-- One turn of the loop over a feed: the ranges parsed so far and their count. -/
def pushPrefix (state : IpRangeSet × Nat) (entry : FeedPrefix) : Option (IpRangeSet × Nat) :=
  if entry.v4 = none ∧ entry.v6 = none then none
  else (pushField state entry.v4).bind fun state => pushField state entry.v6

def IpRangeSet.extend (set parsed : IpRangeSet) : IpRangeSet where
  v4 := normalize (set.v4 ++ parsed.v4)
  v6 := normalize (set.v6 ++ parsed.v6)
  prefixes := set.prefixes + parsed.prefixes

/-- Merges a whole feed or nothing, and returns the number of prefixes added. The JSON reader
is a parameter; unknown fields are its business. -/
def IpRangeSet.addFeedJson (readFeed : Bytes → Option (List FeedPrefix)) (set : IpRangeSet) (bytes : Bytes) :
    IpRangeSet × Nat :=
  match readFeed bytes with
  | none => (set.extend .new, 0)
  | some feed =>
    if 100000 < feed.length then (set, 0)
    else match feed.foldlM pushPrefix (.new, 0) with
    | none => (set, 0)
    | some (parsed, n) => (set.extend parsed, n)

/-- A network block: an address and the number of leading bits that count. -/
structure Cidr where
  address : IpAddr
  length : Nat
  deriving DecidableEq

/-- Same family, and equal on the leading bits. -/
def Cidr.Matches (cidr : Cidr) (ip : IpAddr) : Prop :=
  match cidr.address, ip with
  | .v4 a, .v4 x => x >>> (32 - cidr.length) = a >>> (32 - cidr.length)
  | .v6 a, .v6 x => x >>> (128 - cidr.length) = a >>> (128 - cidr.length)
  | _, _ => False

/-- The block a CIDR string names. -/
def Cidr.parse (text : Bytes) : Option Cidr := do
  let (ip, length) ← splitCidr text
  match IpAddr.parse ip with
  | some (.v4 a) => if length.getD 32 ≤ 32 then some ⟨.v4 a, length.getD 32⟩ else none
  | some (.v6 a) => if length.getD 128 ≤ 128 then some ⟨.v6 a, length.getD 128⟩ else none
  | none => none

/-- Appending a block, without any order. -/
def IpRangeSet.push (set : IpRangeSet) (cidr : Cidr) : IpRangeSet :=
  match cidr.address with
  | .v4 a => { set with v4 := set.v4 ++ [block a cidr.length], prefixes := set.prefixes + 1 }
  | .v6 a => { set with v6 := set.v6 ++ [block a cidr.length], prefixes := set.prefixes + 1 }

theorem pushCidr_eq (set : IpRangeSet) (text : Bytes) : set.pushCidr text = (Cidr.parse text).map set.push := by
  unfold IpRangeSet.pushCidr Cidr.parse
  rcases splitCidr text with _ | ⟨ip, length⟩
  · rfl
  · simp only [Option.bind_eq_bind,Option.bind_some]
    rcases IpAddr.parse ip with _ | ⟨a⟩ | ⟨a⟩
    · rfl
    · by_cases long : 32 < length.getD 32
      · simp [long,Nat.not_le.mpr long]
      · simp [long,Nat.not_lt.mp long,IpRangeSet.push]
    · by_cases long : 128 < length.getD 128
      · simp [long,Nat.not_le.mpr long]
      · simp [long,Nat.not_lt.mp long,IpRangeSet.push]

section Blocks

variable {bits x y : BitVec w}

theorem shift_mono (shift : Nat) (order : x ≤ y) : x >>> shift ≤ y >>> shift := by
  rw [BitVec.le_def,BitVec.toNat_ushiftRight,BitVec.toNat_ushiftRight,Nat.shiftRight_eq_div_pow,
    Nat.shiftRight_eq_div_pow]
  exact Nat.div_le_div_right order

theorem low_shift (bits : BitVec w) (shift : Nat) : (bits &&& BitVec.allOnes w <<< shift) >>> shift = bits >>> shift := by
  apply BitVec.eq_of_getLsbD_eq
  intro i inside
  simp only [BitVec.getLsbD_ushiftRight,BitVec.getLsbD_and,BitVec.getLsbD_shiftLeft,BitVec.getLsbD_allOnes]
  by_cases within : shift + i < w
  · simp [within,show i < w by omega]
  · simp [BitVec.getLsbD_of_ge bits _ (Nat.not_lt.mp within)]

theorem high_shift (bits : BitVec w) (shift : Nat) :
    (bits ||| ~~~(BitVec.allOnes w <<< shift)) >>> shift = bits >>> shift := by
  apply BitVec.eq_of_getLsbD_eq
  intro i inside
  simp only [BitVec.getLsbD_ushiftRight,BitVec.getLsbD_or,BitVec.getLsbD_not,BitVec.getLsbD_shiftLeft,
    BitVec.getLsbD_allOnes]
  by_cases within : shift + i < w
  · simp [within,show i < w by omega]
  · simp [within]

/-- Beyond the mask every bit is set, whatever it was. -/
theorem or_not_mask (mask : BitVec w) : x ||| ~~~mask = (x &&& mask) ||| ~~~mask := by
  apply BitVec.eq_of_getLsbD_eq
  intro i inside
  simp only [BitVec.getLsbD_or,BitVec.getLsbD_and,BitVec.getLsbD_not,inside,decide_true,Bool.true_and]
  cases x.getLsbD i <;> cases mask.getLsbD i <;> rfl

theorem block_eq (bits : BitVec w) (length : Nat) : block bits length =
    (bits &&& BitVec.allOnes w <<< (w - length), bits ||| ~~~(BitVec.allOnes w <<< (w - length))) := by
  by_cases zero : length = 0
  · subst zero
    simp [block,BitVec.shiftLeft_eq_zero]
  · simp [block,zero]

/-- The addresses of a block are those that agree with it on the leading bits. -/
theorem mem_block (length : Nat) : (block bits length).1 ≤ x ∧ x ≤ (block bits length).2 ↔
    x >>> (w - length) = bits >>> (w - length) := by
  rw [block_eq]
  constructor
  · rintro ⟨low, high⟩
    apply le_antisymm
    · rw [← high_shift bits]
      exact shift_mono _ high
    · rw [← low_shift bits]
      exact shift_mono _ low
  · intro same
    have masked : bits &&& BitVec.allOnes w <<< (w - length) = x &&& BitVec.allOnes w <<< (w - length) := by
      rw [← BitVec.shiftLeft_ushiftRight,← BitVec.shiftLeft_ushiftRight,same]
    constructor
    · rw [masked,BitVec.le_def,BitVec.toNat_and]
      exact Nat.and_le_left
    · rw [or_not_mask,masked,← or_not_mask,BitVec.le_def,BitVec.toNat_or]
      exact Nat.left_le_or

theorem block_proper (bits : BitVec w) (length : Nat) : (block bits length).1 ≤ (block bits length).2 := by
  obtain ⟨low, high⟩ := (@mem_block w bits bits length).mpr rfl
  exact le_trans low high

end Blocks

/-- The set lists exactly these blocks, in any order and with any overlap. -/
structure IpRangeSet.Lists (set : IpRangeSet) (cidrs : List Cidr) : Prop where
  proper4 : ∀ r ∈ set.v4, r.1 ≤ r.2
  proper6 : ∀ r ∈ set.v6, r.1 ≤ r.2
  covers4 : ∀ x, Covers set.v4 x ↔ ∃ c ∈ cidrs, c.Matches (.v4 x)
  covers6 : ∀ x, Covers set.v6 x ↔ ∃ c ∈ cidrs, c.Matches (.v6 x)
  count : set.prefixes = cidrs.length

/-- The set is the union of these blocks, in normal form. -/
structure IpRangeSet.Denotes (set : IpRangeSet) (cidrs : List Cidr) : Prop extends set.Lists cidrs where
  normal4 : Normal set.v4
  normal6 : Normal set.v6

/-- The blocks an entry of a feed names. -/
def FeedPrefix.names (entry : FeedPrefix) : List Cidr :=
  (entry.v4.bind Cidr.parse).toList ++ (entry.v6.bind Cidr.parse).toList

/-- A call on a set, with the string or the feed it is given. -/
inductive Call where
  | cidr (text : Bytes)
  | feed (bytes : Bytes)
  deriving DecidableEq

/-- The set after the call and the returned value, `true` and `false` as 1 and 0. -/
def Call.execute (readFeed : Bytes → Option (List FeedPrefix)) (set : IpRangeSet) : Call → IpRangeSet × Nat
  | .cidr text => match set.addCidr text with
    | some next => (next, 1)
    | none => (set, 0)
  | .feed bytes => set.addFeedJson readFeed bytes

/-- The blocks the argument of a call names. -/
def Call.names (readFeed : Bytes → Option (List FeedPrefix)) : Call → List Cidr
  | .cidr text => (Cidr.parse text).toList
  | .feed bytes => ((readFeed bytes).getD []).flatMap FeedPrefix.names

/-- The blocks a call was accepted with. -/
def Call.accepted (readFeed : Bytes → Option (List FeedPrefix)) (set : IpRangeSet) (call : Call) : List Cidr :=
  if (call.execute readFeed set).2 = 0 then [] else call.names readFeed

/-- The set and the accepted blocks after a sequence of calls. -/
def Call.run (readFeed : Bytes → Option (List FeedPrefix)) : IpRangeSet → List Cidr → List Call → IpRangeSet × List Cidr
  | set, cidrs, [] => (set, cidrs)
  | set, cidrs, call :: rest =>
    Call.run readFeed (call.execute readFeed set).1 (cidrs ++ call.accepted readFeed set) rest

section Sets

variable {set next parsed : IpRangeSet} {cidrs more : List Cidr} {text : Bytes}

theorem IpRangeSet.new_lists : IpRangeSet.new.Lists [] :=
  ⟨by simp [new], by simp [new], by simp [new], by simp [new], rfl⟩

theorem IpRangeSet.new_denotes : IpRangeSet.new.Denotes [] := ⟨new_lists, Normal.nil, Normal.nil⟩

theorem IpRangeSet.Denotes.contains_iff (denotes : set.Denotes cidrs) (ip : IpAddr) :
    set.contains ip = true ↔ ∃ c ∈ cidrs, c.Matches ip := by
  cases ip with
  | v4 x => exact (containsInterval_iff denotes.normal4).trans (denotes.covers4 x)
  | v6 x => exact (containsInterval_iff denotes.normal6).trans (denotes.covers6 x)

/-- A block covers the addresses it matches, and none of the other family. -/
theorem IpRangeSet.Lists.push (lists : set.Lists cidrs) (cidr : Cidr) : (set.push cidr).Lists (cidrs ++ [cidr]) := by
  obtain ⟨address, length⟩ := cidr
  cases address with
  | v4 a =>
    refine ⟨?_, lists.proper6, fun x => ?_, fun x => ?_, by simp [IpRangeSet.push,lists.count]⟩
    · exact List.forall_mem_append.mpr ⟨lists.proper4, by simpa using block_proper a length⟩
    · simp [IpRangeSet.push,lists.covers4,Cidr.Matches,mem_block,or_and_right,exists_or]
    · simp [IpRangeSet.push,lists.covers6,Cidr.Matches,or_and_right,exists_or]
  | v6 a =>
    refine ⟨lists.proper4, ?_, fun x => ?_, fun x => ?_, by simp [IpRangeSet.push,lists.count]⟩
    · exact List.forall_mem_append.mpr ⟨lists.proper6, by simpa using block_proper a length⟩
    · simp [IpRangeSet.push,lists.covers4,Cidr.Matches,or_and_right,exists_or]
    · simp [IpRangeSet.push,lists.covers6,Cidr.Matches,mem_block,or_and_right,exists_or]

@[simp] theorem settle_append [LinearOrder α] (ranges : List (α × α)) (interval : α × α) :
    settle (ranges ++ [interval]) = insertInterval ranges interval := by simp [settle]

/-- Putting the new interval in its place changes the order of the set and nothing else. -/
theorem IpRangeSet.Denotes.addCidr (denotes : set.Denotes cidrs) (added : set.addCidr text = some next) :
    ∃ cidr, Cidr.parse text = some cidr ∧ next.Denotes (cidrs ++ [cidr]) := by
  unfold IpRangeSet.addCidr at added
  rw [pushCidr_eq,Option.map_map] at added
  obtain ⟨cidr, parsed, rfl⟩ := Option.map_eq_some_iff.mp added
  refine ⟨cidr, parsed, ?_⟩
  have pushed := denotes.toLists.push cidr
  obtain ⟨address, length⟩ := cidr
  cases address with
  | v4 a =>
    have proper := block_proper a length
    have normal := insertInterval_normal denotes.normal4 proper
    simp only [Function.comp_apply,IpRangeSet.push,List.length_append,List.length_singleton,ne_eq,
      Nat.add_eq_left,Nat.one_ne_zero,not_false_iff,if_true,settle_append]
    refine ⟨⟨normal.proper, pushed.proper6, fun x => ?_, pushed.covers6, pushed.count⟩, normal, denotes.normal6⟩
    rw [insertInterval_covers denotes.normal4 proper,← pushed.covers4 x]
    simp [IpRangeSet.push,or_comm]
  | v6 a =>
    have proper := block_proper a length
    have normal := insertInterval_normal denotes.normal6 proper
    simp only [Function.comp_apply,IpRangeSet.push,ne_eq,not_true,if_false,settle_append]
    refine ⟨⟨pushed.proper4, normal.proper, pushed.covers4, fun x => ?_, pushed.count⟩, denotes.normal4, normal⟩
    rw [insertInterval_covers denotes.normal6 proper,← pushed.covers6 x]
    simp [IpRangeSet.push,or_comm]

theorem IpRangeSet.Denotes.extend (denotes : set.Denotes cidrs) (lists : parsed.Lists more) :
    (set.extend parsed).Denotes (cidrs ++ more) := by
  obtain ⟨normal4, covers4⟩ := normalize_spec (List.forall_mem_append.mpr ⟨denotes.proper4, lists.proper4⟩)
  obtain ⟨normal6, covers6⟩ := normalize_spec (List.forall_mem_append.mpr ⟨denotes.proper6, lists.proper6⟩)
  refine ⟨⟨normal4.proper, normal6.proper, fun x => ?_, fun x => ?_, ?_⟩, normal4, normal6⟩
  · rw [IpRangeSet.extend,covers4,covers_append,denotes.covers4,lists.covers4]
    simp [or_and_right,exists_or]
  · rw [IpRangeSet.extend,covers6,covers_append,denotes.covers6,lists.covers6]
    simp [or_and_right,exists_or]
  · simp [IpRangeSet.extend,denotes.count,lists.count]

theorem pushField_some {state after : IpRangeSet × Nat} {field : Option Bytes} (lists : state.1.Lists cidrs)
    (pushed : pushField state field = some after) :
    after.1.Lists (cidrs ++ (field.bind Cidr.parse).toList) ∧
      after.2 = state.2 + (field.bind Cidr.parse).toList.length := by
  cases field with
  | none =>
    cases pushed
    simpa using lists
  | some text =>
    rw [pushField,pushCidr_eq,Option.map_map] at pushed
    obtain ⟨cidr, parsed, rfl⟩ := Option.map_eq_some_iff.mp pushed
    simpa [parsed] using lists.push cidr

theorem pushPrefix_some {state after : IpRangeSet × Nat} {entry : FeedPrefix} (lists : state.1.Lists cidrs)
    (pushed : pushPrefix state entry = some after) :
    after.1.Lists (cidrs ++ entry.names) ∧ after.2 = state.2 + entry.names.length := by
  unfold pushPrefix at pushed
  split at pushed
  · cases pushed
  · obtain ⟨middle, first, second⟩ := Option.bind_eq_some_iff.mp pushed
    obtain ⟨lists, count⟩ := pushField_some lists first
    obtain ⟨lists, total⟩ := pushField_some lists second
    rw [List.append_assoc] at lists
    refine ⟨lists, ?_⟩
    rw [total,count,FeedPrefix.names,List.length_append,Nat.add_assoc]

/-- A feed that is read to its end lists every block of every entry. -/
theorem foldlM_pushPrefix {state after : IpRangeSet × Nat} {feed : List FeedPrefix} (lists : state.1.Lists cidrs)
    (pushed : feed.foldlM pushPrefix state = some after) :
    after.1.Lists (cidrs ++ feed.flatMap FeedPrefix.names) ∧
      after.2 = state.2 + (feed.flatMap FeedPrefix.names).length := by
  induction feed generalizing state cidrs with
  | nil =>
    cases pushed
    simpa using lists
  | cons entry rest ih =>
    rw [List.foldlM_cons] at pushed
    obtain ⟨middle, first, more⟩ := Option.bind_eq_some_iff.mp pushed
    obtain ⟨lists, count⟩ := pushPrefix_some lists first
    obtain ⟨lists, total⟩ := ih lists more
    rw [List.append_assoc] at lists
    refine ⟨by simpa using lists, ?_⟩
    rw [total,count,List.flatMap_cons,List.length_append,Nat.add_assoc]

variable (readFeed : Bytes → Option (List FeedPrefix))

theorem IpRangeSet.Denotes.addFeedJson (denotes : set.Denotes cidrs) (bytes : Bytes) :
    ((set.addFeedJson readFeed bytes).2 = 0 ∧ (set.addFeedJson readFeed bytes).1.Denotes cidrs) ∨
      ((set.addFeedJson readFeed bytes).2 = ((Call.feed bytes).names readFeed).length ∧
        (set.addFeedJson readFeed bytes).1.Denotes (cidrs ++ (Call.feed bytes).names readFeed)) := by
  unfold IpRangeSet.addFeedJson
  cases found : readFeed bytes with
  | none =>
    have kept := denotes.extend IpRangeSet.new_lists
    rw [List.append_nil] at kept
    exact .inl ⟨rfl, kept⟩
  | some feed =>
    have named : (Call.feed bytes).names readFeed = feed.flatMap FeedPrefix.names := by simp [Call.names,found]
    rw [named]
    dsimp only
    split
    · exact .inl ⟨rfl, denotes⟩
    · split
      · exact .inl ⟨rfl, denotes⟩
      · next parsed n pushed =>
        obtain ⟨lists, count⟩ := foldlM_pushPrefix IpRangeSet.new_lists pushed
        rw [List.nil_append] at lists
        exact .inr ⟨by simpa using count, denotes.extend lists⟩

/-- A call adds the blocks it was accepted with and nothing else. -/
theorem IpRangeSet.Denotes.execute (denotes : set.Denotes cidrs) (call : Call) :
    (call.execute readFeed set).1.Denotes (cidrs ++ call.accepted readFeed set) := by
  cases call with
  | cidr text =>
    cases added : set.addCidr text with
    | none => simpa [Call.accepted,Call.execute,added] using denotes
    | some next =>
      obtain ⟨cidr, parsed, result⟩ := denotes.addCidr added
      simpa [Call.accepted,Call.execute,added,Call.names,parsed] using result
  | feed bytes =>
    unfold Call.accepted
    rcases denotes.addFeedJson readFeed bytes with ⟨zero, kept⟩ | ⟨count, result⟩
    · simpa [Call.execute,zero] using kept
    · split
      · next zero =>
        rw [Call.execute,count,List.length_eq_zero_iff] at zero
        rw [zero] at result
        exact result
      · exact result

theorem IpRangeSet.Denotes.run (denotes : set.Denotes cidrs) (calls : List Call) :
    (Call.run readFeed set cidrs calls).1.Denotes (Call.run readFeed set cidrs calls).2 := by
  induction calls generalizing set cidrs with
  | nil => exact denotes
  | cons call rest ih => exact ih (denotes.execute readFeed call)

end Sets

/-- After any sequence of calls the set is in normal form and holds exactly the addresses of the accepted
blocks, which it counts; a call that returns `false` or 0 changes neither. -/
theorem ranges_exact (readFeed : Bytes → Option (List FeedPrefix)) (calls : List Call) :
    let set := (Call.run readFeed .new [] calls).1
    let cidrs := (Call.run readFeed .new [] calls).2
    Normal set.v4 ∧ Normal set.v6 ∧
    (∀ ip, set.contains ip = true ↔ ∃ c ∈ cidrs, c.Matches ip) ∧ set.len = cidrs.length ∧
    ∀ call : Call, (call.execute readFeed set).2 = 0 →
      (∀ ip, (call.execute readFeed set).1.contains ip = set.contains ip) ∧
      (call.execute readFeed set).1.len = set.len := by
  have denotes := IpRangeSet.new_denotes.run readFeed calls
  refine ⟨denotes.normal4, denotes.normal6, denotes.contains_iff, denotes.count, fun call refused => ?_⟩
  have after := denotes.execute readFeed call
  rw [Call.accepted,if_pos refused,List.append_nil] at after
  refine ⟨fun ip => ?_, after.count.trans denotes.count.symm⟩
  rw [Bool.eq_iff_iff,after.contains_iff,denotes.contains_iff]

/-- A prefix length past the end of the address is refused and changes nothing. -/
theorem ranges_exact_refused :
    let set := (Call.run (fun _ => none) .new [] [.cidr (ascii "192.0.2.0/24")]).1
    set.len = 1 ∧ ((Call.cidr (ascii "192.0.2.0/33")).execute (fun _ => none) set).1.len = set.len := by
  have exact := ranges_exact (fun _ => none) [.cidr (ascii "192.0.2.0/24")]
  exact ⟨by decide +kernel, (exact.2.2.2.2 (.cidr (ascii "192.0.2.0/33")) (by decide +kernel)).2⟩

end PowGate
