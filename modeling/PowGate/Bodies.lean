import PowGate.Replay

/-! How a request body gets to its handler. nginx passes the parts of the body through the filter
as they arrive and keeps them in memory or in a temporary file; the handler puts them together
again. A read from the file may return less than was asked for. -/
namespace PowGate.Bodies

open Text

/-- The memory of the worker. -/
abbrev Heap := Nat → UInt8

/-- A temporary file and what `pread` returns at an offset for a count: some of the bytes there, or
no bytes, or an error. -/
structure File where
  bytes : Bytes
  pread : Nat → Nat → Int
  part : ∀ offset count, 0 < pread offset count → pread offset count ≤ count ∧
    offset + (pread offset count).toNat ≤ bytes.length

/-- What `ngx_buf_t` says of its bytes. `memory` stands for all three of its flags; null pointers are `none`. -/
structure Buf where
  memory : Bool
  inFile : Bool
  pos : Option Nat
  last : Option Nat
  file : Option File
  filePos : Nat
  fileLast : Nat

/-- `ngx_chain_t`; a link may have no buffer. -/
abbrev Chain := List (Option Buf)

/-- The bytes from `pos` up to `last`. -/
def Buf.held (heap : Heap) (b : Buf) : Bytes :=
  match b.pos with
  | some pos => (List.range' pos (b.last.getD 0 - pos)).map heap
  | none => []

/-- The size the filter takes a buffer to have. -/
def Buf.size (b : Buf) : Nat :=
  match b.memory, b.pos, b.last with
  | true, some pos, some last => last - pos
  | _, _, _ => if b.inFile then b.fileLast - b.filePos else 0

/-- The per-request state of the filter. -/
structure Counter where
  verifyEnabled : Bool
  verifyBytes : Nat

/-- `enable`: nothing is counted yet. The state is in the request's pool, which may be exhausted. -/
def enable (known : Option Counter) (allocated : Bool) : Option Counter :=
  if known.isSome ∨ allocated then some ⟨true, 0⟩ else none

/-- The loop of the filter: the bytes counted, unless a buffer has more than there is room for. -/
def tally (limit : Nat) : Nat → Chain → Except Nat Nat
  | count, [] => .ok count
  | count, none :: chain => tally limit count chain
  | count, some b :: chain => if limit - count < b.size then .error count else tally limit (count + b.size) chain

inductive Filtered where
  /-- The chain goes on to nginx's own filters. -/
  | next
  | tooLarge
  deriving DecidableEq

def filter (state : Option Counter) (chain : Chain) : Filtered × Option Counter :=
  match state with
  | some ⟨true, count⟩ => match tally verifyLimit count chain with
    | .ok count => (.next, some ⟨true, count⟩)
    | .error count => (.tooLarge, some ⟨true, count⟩)
  | _ => (.next, state)

/-- The chains of a body as they arrive, and those of them that nginx gets to keep. -/
def receive (state : Option Counter) : List Chain → Filtered × List Chain
  | [] => (.next, [])
  | chain :: chains => match filter state chain with
    | (.next, state) =>
      let (filtered, kept) := receive state chains
      (filtered, chain :: kept)
    | (.tooLarge, _) => (.tooLarge, [])

/-- The loop of `read_file_range`, with what it has read so far. It ends by itself, since every read
that counts moves it on. -/
def readFileRange (file : File) (len offset : Nat) : Nat → Bytes → Option Bytes
  | 0, filled => if filled.length < len then none else some filled
  | fuel + 1, filled =>
    if filled.length < len then
      let n := file.pread (offset + filled.length) (len - filled.length)
      if n ≤ 0 then none
      else readFileRange file len offset fuel (filled ++ (file.bytes.drop (offset + filled.length)).take n.toNat)
    else some filled

/-- The loop of `request_body_limited`. -/
def collect (heap : Heap) (limit : Nat) : Chain → Bytes → Option Bytes
  | [], out => some out
  | none :: chain, out => collect heap limit chain out
  | some b :: chain, out =>
    if b.inFile then
      match b.file with
      | some file =>
        if b.filePos < b.fileLast then
          let length := b.fileLast - b.filePos
          if limit - out.length < length then none
          else match readFileRange file length b.filePos length [] with
            | some bytes => collect heap limit chain (out ++ bytes)
            | none => none
        else collect heap limit chain out
      | none => collect heap limit chain out
    else match b.pos with
      | some pos =>
        if 0 < b.last.getD 0 - pos then
          if limit - out.length < b.last.getD 0 - pos then none
          else collect heap limit chain (out ++ b.held heap)
        else collect heap limit chain out
      | none => collect heap limit chain out

/-- `request_body_limited` on what nginx has kept, if there is a body at all. -/
def requestBodyLimited (heap : Heap) (limit : Nat) : Option Chain → Option Bytes
  | none => none
  | some chain => collect heap limit chain []

/-- The bytes a buffer stands for. -/
def Buf.content (heap : Heap) (b : Buf) : Bytes :=
  if b.inFile then
    match b.file with
    | some file => (file.bytes.drop b.filePos).take (b.fileLast - b.filePos)
    | none => []
  else b.held heap

def content (heap : Heap) (chain : Chain) : Bytes := chain.flatMap fun link => link.elim [] (Buf.content heap)

/-- Reads of the buffer's part of the file return something. -/
def Buf.Readable (b : Buf) : Prop := b.inFile = true → ∀ file, b.file = some file →
  ∀ offset, b.filePos ≤ offset → offset < b.fileLast → 0 < file.pread offset (b.fileLast - offset)

section Reading

/-- However short the reads are, together they give the range. -/
theorem readFileRange_whole (file : File) (len offset : Nat) (readable : ∀ i < len, 0 < file.pread (offset + i) (len - i)) (fuel : Nat) (filled : Bytes)
    (sofar : filled = (file.bytes.drop offset).take filled.length) (short : filled.length ≤ len)
    (enough : len ≤ filled.length + fuel) :
    readFileRange file len offset fuel filled = some ((file.bytes.drop offset).take len) ∧
      ((file.bytes.drop offset).take len).length = len := by
  have done : ∀ filled : Bytes, filled = (file.bytes.drop offset).take filled.length → filled.length = len →
      filled = (file.bytes.drop offset).take len ∧ ((file.bytes.drop offset).take len).length = len := by
    intro filled sofar all
    rw [all] at sofar
    exact ⟨sofar, sofar ▸ all⟩
  induction fuel generalizing filled with
  | zero =>
    obtain ⟨same, length⟩ := done filled sofar (by omega)
    rw [readFileRange,if_neg (by omega)]
    exact ⟨congrArg some same, length⟩
  | succ fuel ih =>
    rw [readFileRange]
    by_cases more : filled.length < len
    swap
    · obtain ⟨same, length⟩ := done filled sofar (by omega)
      rw [if_neg more]
      exact ⟨congrArg some same, length⟩
    have some_ := readable filled.length more
    obtain ⟨few, inside⟩ := file.part _ _ some_
    rw [if_pos more]
    dsimp only
    rw [if_neg (by omega)]
    generalize file.pread (offset + filled.length) (len - filled.length) = n at some_ few inside
    have read : ((file.bytes.drop (offset + filled.length)).take n.toNat).length = n.toNat := by
      rw [List.length_take,List.length_drop]
      omega
    apply ih
    · rw [List.length_append,read,List.take_add,← sofar,List.drop_drop]
    · rw [List.length_append,read]
      omega
    · rw [List.length_append,read]
      omega

theorem length_held (heap : Heap) (b : Buf) : (b.held heap).length = match b.pos with
    | some pos => b.last.getD 0 - pos
    | none => 0 := by
  unfold Buf.held
  split
  · rw [List.length_map,List.length_range']
  · rfl

/-- One buffer of the chain: its bytes, if there is room for them. -/
theorem collect_cons {heap : Heap} {b : Buf} (readable : b.Readable) (chain : Chain) (limit : Nat) (out : Bytes) :
    collect heap limit (some b :: chain) out =
      if limit - out.length < (b.content heap).length then none else collect heap limit chain (out ++ b.content heap) := by
  have empty : ∀ bytes : Bytes, bytes.length = 0 → collect heap limit chain out =
      if limit - out.length < bytes.length then none else collect heap limit chain (out ++ bytes) := by
    intro bytes none_
    rw [none_,if_neg (Nat.not_lt_zero _),List.eq_nil_of_length_eq_zero none_,List.append_nil]
  rw [collect]
  unfold Buf.content
  cases spilled : b.inFile with
  | true =>
    simp only [if_true]
    cases stored : b.file with
    | none => exact empty [] rfl
    | some file =>
      dsimp only
      by_cases some_ : b.filePos < b.fileLast
      · have readable : ∀ i < b.fileLast - b.filePos, 0 < file.pread (b.filePos + i) (b.fileLast - b.filePos - i) := by
          intro i inside
          have part := readable spilled file stored (b.filePos + i) (by omega) (by omega)
          rwa [Nat.sub_add_eq] at part
        obtain ⟨read, length⟩ := readFileRange_whole file _ _ readable (b.fileLast - b.filePos) [] rfl
          (Nat.zero_le _) (by simp)
        rw [if_pos some_,read,length]
      · rw [if_neg some_]
        apply empty
        rw [Nat.sub_eq_zero_of_le (by omega),List.take_zero]
        rfl
  | false =>
    simp only [Bool.false_eq_true,if_false]
    have length := length_held heap b
    cases place : b.pos with
    | none =>
      rw [place] at length
      exact empty _ length
    | some pos =>
      rw [place] at length
      dsimp only at length ⊢
      by_cases some_ : 0 < b.last.getD 0 - pos
      · rw [if_pos some_,length]
      · rw [if_neg some_]
        exact empty _ (by omega)

/-- What is read back is all of it, or nothing when it is more than the limit. -/
theorem collect_whole {heap : Heap} {chain : Chain} (readable : ∀ b, some b ∈ chain → b.Readable) (limit : Nat) (out : Bytes)
    (short : out.length ≤ limit) : collect heap limit chain out =
      if (out ++ content heap chain).length ≤ limit then some (out ++ content heap chain) else none := by
  induction chain generalizing out with
  | nil => simp [collect,content,short]
  | cons link chain ih =>
    obtain ⟨first, rest⟩ : (∀ b, link = some b → b.Readable) ∧ ∀ b, some b ∈ chain → b.Readable :=
      ⟨fun b same => readable b (by simp [same]), fun b member => readable b (List.mem_cons_of_mem _ member)⟩
    cases link with
    | none =>
      rw [collect,ih rest out short]
      rfl
    | some b =>
      have split : content heap (some b :: chain) = b.content heap ++ content heap chain := rfl
      rw [collect_cons (first b rfl),split]
      by_cases long : limit - out.length < (b.content heap).length
      · rw [if_pos long,if_neg]
        rw [List.length_append,List.length_append]
        omega
      · rw [if_neg long,ih rest _ (by rw [List.length_append]; omega),List.append_assoc]

end Reading

section Filtering

/-- The bytes counted in a chain. -/
def sizes (chain : Chain) : Nat := (chain.map fun link => link.elim 0 Buf.size).sum

theorem tally_eq (limit count : Nat) (chain : Chain) (short : count ≤ limit) :
    (count + sizes chain ≤ limit → tally limit count chain = .ok (count + sizes chain)) ∧
      (limit < count + sizes chain → ∃ counted, tally limit count chain = .error counted) := by
  induction chain generalizing count with
  | nil => exact ⟨fun _ => rfl, fun long => absurd long (Nat.not_lt.mpr short)⟩
  | cons link chain ih =>
    cases link with
    | none =>
      have same : sizes (none :: chain) = sizes chain := Nat.zero_add _
      rw [tally,same]
      exact ih count short
    | some b =>
      have split : sizes (some b :: chain) = b.size + sizes chain := rfl
      rw [tally,split,← Nat.add_assoc]
      by_cases long : limit - count < b.size
      · rw [if_pos long]
        exact ⟨fun fits => by omega, fun _ => ⟨count, rfl⟩⟩
      · rw [if_neg long]
        exact ih (count + b.size) (by omega)

/-- The filter lets a body through exactly when all of it is within the limit, and hands on no more than the limit. -/
theorem receive_eq (count : Nat) (chains : List Chain) (short : count ≤ verifyLimit) :
    ((receive (some ⟨true, count⟩) chains).1 = .next ↔ count + (chains.map sizes).sum ≤ verifyLimit) ∧
    ((receive (some ⟨true, count⟩) chains).1 = .next → (receive (some ⟨true, count⟩) chains).2 = chains) ∧
    count + ((receive (some ⟨true, count⟩) chains).2.map sizes).sum ≤ verifyLimit := by
  induction chains generalizing count with
  | nil => exact ⟨iff_of_true rfl short, fun _ => rfl, short⟩
  | cons chain chains ih =>
    obtain ⟨fits, long⟩ := tally_eq verifyLimit count chain short
    simp only [receive,filter,List.map_cons,List.sum_cons]
    by_cases room : count + sizes chain ≤ verifyLimit
    · rw [fits room]
      obtain ⟨passes, same, kept⟩ := ih (count + sizes chain) room
      dsimp only
      refine ⟨passes.trans (by omega), fun next => congrArg _ (same next), ?_⟩
      rw [List.map_cons,List.sum_cons]
      omega
    · obtain ⟨counted, refused⟩ := long (by omega)
      rw [refused]
      dsimp only
      exact ⟨iff_of_false (by simp) (by omega), (fun next => by cases next), short⟩

end Filtering

/-- A body as it comes: its chains, each with the memory at the time. -/
def arrived (arriving : List (Heap × Chain)) : Bytes := arriving.flatMap fun part => content part.1 part.2

/-- A buffer from the connection has its bytes in memory, so it is counted as it is. -/
def Counted (arriving : List (Heap × Chain)) : Prop :=
  ∀ part ∈ arriving, ∀ b, some b ∈ part.2 → b.size = (b.content part.1).length

theorem sizes_arrived {arriving : List (Heap × Chain)} (counted : Counted arriving) :
    ((arriving.map Prod.snd).map sizes).sum = (arrived arriving).length := by
  have chains : ∀ heap chain, (∀ b, some b ∈ chain → b.size = (b.content heap).length) →
      sizes chain = (content heap chain).length := by
    intro heap chain same
    induction chain with
    | nil => rfl
    | cons link chain ih =>
      have rest := ih fun b member => same b (List.mem_cons_of_mem _ member)
      have split : sizes (link :: chain) = link.elim 0 Buf.size + sizes chain := rfl
      have cut : content heap (link :: chain) = link.elim [] (Buf.content heap) ++ content heap chain := rfl
      rw [split,cut,List.length_append,rest]
      cases link with
      | none => rfl
      | some b => exact congrArg (· + _) (same b List.mem_cons_self)
  induction arriving with
  | nil => rfl
  | cons part arriving ih =>
    obtain ⟨first, rest⟩ := List.forall_mem_cons.mp counted
    have cut : arrived (part :: arriving) = content part.1 part.2 ++ arrived arriving := rfl
    rw [List.map_cons,List.map_cons,List.sum_cons,ih rest,cut,List.length_append,chains _ _ first]

/-- In whatever parts the body of a solution arrives: the filter lets it through exactly when it is
within 8192 bytes, and nginx keeps no more than that in any case. When nginx has kept the bytes in
order, in memory or in its file, the handler's answer is the one for the bytes that were sent,
however short the reads from the file are. -/
theorem body_reaches_handler (known : Option Counter) (allocated : Bool) (enabled : known.isSome ∨ allocated)
    (arriving : List (Heap × Chain)) (counted : Counted arriving) (heap : Heap) (kept : Chain)
    (readable : ∀ b, some b ∈ kept → b.Readable) (same : content heap kept = arrived arriving) :
    ((receive (enable known allocated) (arriving.map Prod.snd)).1 = .next ↔ (arrived arriving).length ≤ 8192) ∧
    ((receive (enable known allocated) (arriving.map Prod.snd)).2.map sizes).sum ≤ 8192 ∧
    ((arrived arriving).length ≤ 8192 → requestBodyLimited heap verifyLimit (some kept) = some (arrived arriving)) ∧
    ∀ w r cfg t lc out, verifyBody w r cfg t lc (requestBodyLimited heap verifyLimit (some kept)) out =
      verifyBody w r cfg t lc (some (arrived arriving)) out := by
  have started : enable known allocated = some ⟨true, 0⟩ := if_pos enabled
  obtain ⟨passes, _, bounded⟩ := receive_eq 0 (arriving.map Prod.snd) (Nat.zero_le _)
  rw [Nat.zero_add] at passes bounded
  rw [sizes_arrived counted] at passes
  have read : requestBodyLimited heap verifyLimit (some kept) = (some (arrived arriving)).filter fun b => b.length ≤ verifyLimit := by
    rw [requestBodyLimited,collect_whole readable verifyLimit [] (Nat.zero_le _),List.nil_append,same]
    rw [Option.filter_some]
    simp only [decide_eq_true_eq]
  rw [started]
  refine ⟨passes, bounded, ?_, ?_⟩
  · intro short
    have within : (arrived arriving).length ≤ verifyLimit := short
    rw [read,Option.filter_some,if_pos (decide_eq_true within)]
  · intro w r cfg t lc out
    unfold verifyBody
    rw [read,Option.filter_filter]
    simp only [Bool.and_self]

/-- Three bytes that arrive in two parts, are kept in a file and are read back one by one. -/
theorem body_reaches_handler_spilled : ∃ (kept : Chain) (heap : Heap), requestBodyLimited heap verifyLimit (some kept) =
    some (ascii "abc") := by
  let first : Heap × Chain := (fun i => (ascii "abc").getD i 0, [some ⟨true, false, some 0, some 2, none, 0, 0⟩, none])
  let second : Heap × Chain := (fun i => (ascii "abc").getD i 0, [some ⟨true, false, some 2, some 3, none, 0, 0⟩])
  let file : File := ⟨ascii "abc", fun offset count => if offset < 3 ∧ 0 < count then 1 else 0, by
    intro offset count some_
    have length : (ascii "abc").length = 3 := by decide
    by_cases inside : offset < 3 ∧ 0 < count
    · simp only [inside,and_self,if_true]
      rw [length]
      omega
    · simp [inside] at some_⟩
  let kept : Chain := [some ⟨false, true, none, none, some file, 0, 3⟩]
  have counted : Counted [first, second] := by
    intro part member b inside
    simp only [List.mem_cons,List.not_mem_nil,or_false] at member
    rcases member with rfl | rfl
    · simp only [first,List.mem_cons,Option.some.injEq,List.not_mem_nil,or_false,reduceCtorEq] at inside
      subst inside
      rfl
    · simp only [second,List.mem_cons,Option.some.injEq,List.not_mem_nil,or_false] at inside
      subst inside
      rfl
  have readable : ∀ b, some b ∈ kept → b.Readable := by
    intro b inside _ file' stored offset low high
    simp only [kept,List.mem_cons,Option.some.injEq,List.not_mem_nil,or_false] at inside
    subst inside
    obtain rfl := Option.some.inj stored
    have one : offset < 3 ∧ 0 < 3 - offset := by
      change offset < 3 at high
      omega
    exact (show (0 : Int) < if offset < 3 ∧ 0 < 3 - offset then 1 else 0 by rw [if_pos one]; decide)
  have same : content first.1 kept = arrived [first, second] := by decide
  have whole := (body_reaches_handler none true (.inr rfl) [first, second] counted first.1 kept readable same).2.2.1 (by decide)
  exact ⟨kept, first.1, whole⟩

end PowGate.Bodies
