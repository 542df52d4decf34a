import Mathlib.Algebra.Ring.Nat
import Mathlib.Data.List.AList
import PowGate.Runs

/-! The bounded cache of DNS verdicts, for an arbitrary key type. The map is the
observable content of the `HashMap`; instants and durations are nanoseconds. -/
namespace PowGate.Verdicts

inductive Lookup where
  | cached (verdict : Bool)
  | start (generation : Nat)
  | full
  deriving DecidableEq, Repr

structure Entry where
  verdict : Bool
  at_ : Nat
  generation : Nat
  deriving DecidableEq, Repr

structure VerdictCache (K : Type) where
  entries : AList fun _ : K => Entry
  capacity : Nat
  ttl : Nat
  nextSweep : Nat
  generation : Nat

variable {K : Type} [DecidableEq K]

/-- `HashMap::retain`. -/
def retain (keep : Entry → Bool) (entries : AList fun _ : K => Entry) :
    AList fun _ : K => Entry where
  entries := entries.entries.filter fun pair => keep pair.2
  nodupKeys := entries.nodupKeys.sublist List.filter_sublist

def len (cache : VerdictCache K) : Nat := cache.entries.entries.length

/-- `VerdictCache::new`, called at instant `created`. -/
def new (capacity ttl created : Nat) : VerdictCache K := ⟨∅, capacity, ttl, created, 0⟩

/-- `now.saturating_duration_since(entry.at) < ttl`. -/
def fresh (ttl now : Nat) (entry : Entry) : Bool := now - entry.at_ < ttl

/-- The sweep `begin` makes at most once per second, and only when full. -/
def sweep (cache : VerdictCache K) (now : Nat) : VerdictCache K :=
  if cache.capacity ≤ len cache ∧ cache.nextSweep ≤ now then
    { cache with entries := retain (fresh cache.ttl now) cache.entries
                 nextSweep := now + 1000000000 }
  else cache

/-- The tail of `begin`: refuse when still full, else open a new lookup. -/
def start (cache : VerdictCache K) (key : K) (now : Nat) : Lookup × VerdictCache K :=
  if cache.capacity ≤ len cache then (.full, cache)
  else
    let generation := (cache.generation + 1) % 2 ^ 64
    (.start generation,
      { cache with entries := cache.entries.insert key ⟨false, now, generation⟩
                   generation := generation })

def begin (cache : VerdictCache K) (key : K) (now : Nat) : Lookup × VerdictCache K :=
  match cache.entries.lookup key with
  | some entry =>
    if fresh cache.ttl now entry then (.cached entry.verdict, cache)
    else start (sweep { cache with entries := cache.entries.erase key } now) key now
  | none => start (sweep cache now) key now

def complete (cache : VerdictCache K) (key : K) (generation : Nat) (verdict : Bool) (now : Nat) :
    VerdictCache K :=
  match cache.entries.lookup key with
  | some entry =>
    if entry.generation = generation then
      { cache with entries := cache.entries.insert key ⟨verdict, now, entry.generation⟩ }
    else cache
  | none => cache

def cancel (cache : VerdictCache K) (key : K) (generation : Nat) : VerdictCache K :=
  if (cache.entries.lookup key).any fun entry => entry.generation = generation then
    { cache with entries := cache.entries.erase key }
  else cache

/-- One call under the cache's mutex, with what it returned. -/
inductive Event (K : Type) where
  | begin (key : K) (now : Nat) (result : Lookup)
  | complete (key : K) (generation : Nat) (verdict : Bool) (now : Nat)
  | cancel (key : K) (generation : Nat)

def Event.time : Event K → Option Nat
  | .begin _ now _ => some now
  | .complete _ _ _ now => some now
  | .cancel _ _ => none

/-- The generation of a lookup this call started. -/
def Event.started : Event K → Option Nat
  | .begin _ _ (.start generation) => some generation
  | _ => none

def Step (cache : VerdictCache K) (event : Event K) (next : VerdictCache K) : Prop :=
  match event with
  | .begin key now result => begin cache key now = (result, next)
  | .complete key generation verdict now => next = complete cache key generation verdict now
  | .cancel key generation => next = cancel cache key generation

@[simp] theorem lookup_retain (keep : Entry → Bool) (entries : AList fun _ : K => Entry) (key : K) :
    (retain keep entries).lookup key = (entries.lookup key).filter keep := by
  ext entry
  have known : entry ∈ entries.lookup key ↔ _ := AList.mem_lookup_iff
  have kept : entry ∈ (retain keep entries).lookup key ↔ _ := AList.mem_lookup_iff
  rw [Option.mem_def] at known kept
  rw [kept,Option.filter_eq_some_iff,known]
  simp [retain]

omit [DecidableEq K] in
theorem len_eq (entries : AList fun _ : K => Entry) : entries.entries.length = entries.keys.length := by
  simp [AList.keys,List.keys]

theorem length_erase_le (entries : AList fun _ : K => Entry) (key : K) :
    (entries.erase key).entries.length ≤ entries.entries.length := by
  rw [len_eq,len_eq,AList.keys_erase]
  exact List.length_erase_le

theorem length_insert_le (entries : AList fun _ : K => Entry) (key : K) (entry : Entry) :
    (entries.insert key entry).entries.length ≤ entries.entries.length + 1 := by
  rw [len_eq,len_eq,AList.keys_insert]
  simpa using List.length_erase_le

theorem length_overwrite (entries : AList fun _ : K => Entry) (key : K) (entry : Entry)
    (present : key ∈ entries) :
    (entries.insert key entry).entries.length = entries.entries.length := by
  have member : key ∈ entries.keys := AList.mem_keys.mp present
  have positive : 0 < entries.keys.length := List.length_pos_of_mem member
  rw [len_eq,len_eq,AList.keys_insert,List.length_cons,List.length_erase_of_mem member]
  omega

/-- Another key's entry is as it was, unless it had expired and was dropped. -/
def Aged (cache next : VerdictCache K) (now : Nat) (key : K) : Prop :=
  next.entries.lookup key = cache.entries.lookup key ∨
    (next.entries.lookup key = none ∧
      ∀ entry, cache.entries.lookup key = some entry → fresh cache.ttl now entry = false)

theorem sweep_aged (cache : VerdictCache K) (now : Nat) (key : K) :
    Aged cache (sweep cache now) now key := by
  unfold sweep
  split
  · cases found : cache.entries.lookup key with
    | none => exact .inl (by simp [found])
    | some entry =>
      cases age : fresh cache.ttl now entry with
      | true => exact .inl (by simp [found,age])
      | false => exact .inr (by simp [found,age])
  · exact .inl rfl

omit [DecidableEq K] in
@[simp] theorem sweep_capacity (cache : VerdictCache K) (now : Nat) :
    (sweep cache now).capacity = cache.capacity := by unfold sweep; split <;> rfl

omit [DecidableEq K] in
@[simp] theorem sweep_ttl (cache : VerdictCache K) (now : Nat) :
    (sweep cache now).ttl = cache.ttl := by unfold sweep; split <;> rfl

omit [DecidableEq K] in
@[simp] theorem sweep_generation (cache : VerdictCache K) (now : Nat) :
    (sweep cache now).generation = cache.generation := by unfold sweep; split <;> rfl

omit [DecidableEq K] in
theorem len_sweep_le (cache : VerdictCache K) (now : Nat) : len (sweep cache now) ≤ len cache := by
  unfold sweep
  split
  · exact List.length_filter_le _ _
  · exact Nat.le_refl _

theorem lookup_sweep_absent (cache : VerdictCache K) (now : Nat) (key : K)
    (absent : cache.entries.lookup key = none) : (sweep cache now).entries.lookup key = none := by
  unfold sweep
  split <;> simp [absent]

/-- What every call leaves alone, and what it may do to the keys it is not about. -/
structure Frame (cache next : VerdictCache K) : Prop where
  capacity : next.capacity = cache.capacity
  ttl : next.ttl = cache.ttl
  bounded : len cache ≤ cache.capacity → len next ≤ cache.capacity

/-- The miss path of `begin`, from a cache that no longer holds the key. -/
theorem start_cases {cache next : VerdictCache K} (absent : cache.entries.lookup key = none)
    (h : start (sweep cache now) key now = (result, next)) :
    Frame cache next ∧ (∀ other, other ≠ key → Aged cache next now other) ∧
    ((result = .full ∧ next.entries.lookup key = none ∧ next.generation = cache.generation) ∨
     (result = .start ((cache.generation + 1) % 2 ^ 64) ∧
       next.entries.lookup key = some ⟨false, now, (cache.generation + 1) % 2 ^ 64⟩ ∧
       next.generation = (cache.generation + 1) % 2 ^ 64)) := by
  have smaller := len_sweep_le cache now
  unfold start at h
  split at h
  · obtain ⟨rfl, rfl⟩ := Prod.mk.inj h
    exact ⟨⟨by simp, by simp, fun bound => by omega⟩, fun other _ => sweep_aged cache now other,
      .inl ⟨rfl, lookup_sweep_absent cache now key absent, by simp⟩⟩
  · next room =>
    simp only [sweep_capacity,Nat.not_le] at room
    obtain ⟨rfl, rfl⟩ := Prod.mk.inj h
    refine ⟨⟨by simp, by simp, fun _ => ?_⟩, ?_, .inr ⟨by simp, by simp, by simp⟩⟩
    · have grown := length_insert_le (sweep cache now).entries key
        ⟨false, now, ((sweep cache now).generation + 1) % 2 ^ 64⟩
      simp only [len] at grown room ⊢
      omega
    · intro other apart
      simpa [Aged,AList.lookup_insert_ne apart] using sweep_aged cache now other

/-- Everything one `begin` can do. -/
theorem begin_cases {cache next : VerdictCache K} (h : begin cache key now = (result, next)) :
    (∃ entry, cache.entries.lookup key = some entry ∧ fresh cache.ttl now entry = true ∧
      result = .cached entry.verdict ∧ next = cache) ∨
    (Frame cache next ∧ (∀ other, other ≠ key → Aged cache next now other) ∧
      (∀ entry, cache.entries.lookup key = some entry → fresh cache.ttl now entry = false) ∧
      ((result = .full ∧ next.entries.lookup key = none ∧ next.generation = cache.generation) ∨
       (result = .start ((cache.generation + 1) % 2 ^ 64) ∧
         next.entries.lookup key = some ⟨false, now, (cache.generation + 1) % 2 ^ 64⟩ ∧
         next.generation = (cache.generation + 1) % 2 ^ 64))) := by
  unfold begin at h
  cases found : cache.entries.lookup key with
  | none =>
    simp only [found] at h
    obtain ⟨frame, others, cases⟩ := start_cases found h
    exact .inr ⟨frame, others, by simp, cases⟩
  | some entry =>
    simp only [found] at h
    split at h
    · next hit =>
      obtain ⟨rfl, rfl⟩ := Prod.mk.inj h
      exact .inl ⟨entry, rfl, hit, rfl, rfl⟩
    · next stale =>
      obtain ⟨frame, others, cases⟩ := start_cases (AList.lookup_erase key cache.entries) h
      have smaller := length_erase_le cache.entries key
      refine .inr ⟨⟨frame.capacity, frame.ttl, fun bound => frame.bounded ?_⟩, ?_, ?_, cases⟩
      · simp only [len] at bound ⊢
        omega
      · intro other apart
        simpa [Aged,AList.lookup_erase_ne apart] using others other apart
      · simpa using stale

/-- A reply is written only into the entry of its own generation. -/
theorem complete_cases (cache : VerdictCache K) (key : K) (generation : Nat) (verdict : Bool)
    (now : Nat) :
    complete cache key generation verdict now = cache ∨
    (∃ entry, cache.entries.lookup key = some entry ∧ entry.generation = generation ∧
      complete cache key generation verdict now =
        { cache with entries := cache.entries.insert key ⟨verdict, now, generation⟩ }) := by
  unfold complete
  cases found : cache.entries.lookup key with
  | none => exact .inl rfl
  | some entry =>
    simp only
    split
    · next same => exact .inr ⟨entry, rfl, same, by rw [same]⟩
    · exact .inl rfl

theorem cancel_cases (cache : VerdictCache K) (key : K) (generation : Nat) :
    cancel cache key generation = cache ∨
    (∃ entry, cache.entries.lookup key = some entry ∧ entry.generation = generation ∧
      cancel cache key generation = { cache with entries := cache.entries.erase key }) := by
  unfold cancel
  cases found : cache.entries.lookup key with
  | none => exact .inl (by simp)
  | some entry =>
    by_cases same : entry.generation = generation
    · exact .inr ⟨entry, rfl, same, by simp [same]⟩
    · exact .inl (by simp [same])

/-- A result or a cancellation of another generation changes nothing. -/
theorem other_generation_ignored (cache : VerdictCache K) (key : K) (generation : Nat)
    (verdict : Bool) (now : Nat)
    (other : ∀ entry, cache.entries.lookup key = some entry → entry.generation ≠ generation) :
    complete cache key generation verdict now = cache ∧ cancel cache key generation = cache := by
  constructor
  · rcases complete_cases cache key generation verdict now with same | ⟨entry, found, same, _⟩
    · exact same
    · exact absurd same (other entry found)
  · rcases cancel_cases cache key generation with same | ⟨entry, found, same, _⟩
    · exact same
    · exact absurd same (other entry found)

theorem step_frame {cache next : VerdictCache K} (taken : Step cache event next) :
    Frame cache next := by
  cases event with
  | begin key now result =>
    rcases begin_cases taken with ⟨_, _, _, _, rfl⟩ | ⟨frame, _⟩
    · exact ⟨rfl, rfl, fun bound => bound⟩
    · exact frame
  | complete key generation verdict now =>
    obtain rfl : next = _ := taken
    rcases complete_cases cache key generation verdict now with same | ⟨entry, found, _, same⟩
    · rw [same]
      exact ⟨rfl, rfl, fun bound => bound⟩
    · rw [same]
      have present : key ∈ cache.entries := AList.lookup_isSome.mp (by simp [found])
      refine ⟨rfl, rfl, fun bound => ?_⟩
      rw [len,length_overwrite _ _ _ present]
      exact bound
  | cancel key generation =>
    obtain rfl : next = _ := taken
    rcases cancel_cases cache key generation with same | ⟨entry, found, _, same⟩
    · rw [same]
      exact ⟨rfl, rfl, fun bound => bound⟩
    · rw [same]
      exact ⟨rfl, rfl, fun bound => Nat.le_trans (length_erase_le cache.entries key) bound⟩

end PowGate.Verdicts
