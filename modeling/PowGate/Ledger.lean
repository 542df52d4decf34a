import Mathlib.Data.List.Basic
import PowGate.Runs

/-! The bounded one-use ledger of the core crate. `consume` is the source's probe
loop over one shared table; `Spent` is the fact a redemption leaves behind and
no later call can remove. -/
namespace PowGate.Ledger

/-- `[u8; 32]`, the SHA-256 of a redeemed token. -/
abbrev Id := Vector UInt8 32

structure Entry where
  id : Id
  expires : Int
  deriving DecidableEq, Repr

/-- The derived `Default`: an all-zero id that expired at the epoch. -/
instance : Inhabited Entry := ⟨⟨Vector.replicate 32 0, 0⟩⟩

inductive Outcome where
  | accepted
  | reused
  | full
  | expired
  deriving DecidableEq, Repr

/-- `entries[index]`; every index the code forms is in range. -/
def slot (entries : List Entry) (index : Nat) : Entry := entries[index]!

/-- `u64::from_be_bytes(id[..8]) as usize % entries.len()`. -/
def start (id : Id) (length : Nat) : Nat :=
  (id.toList.take 8).foldl (fun acc byte => acc * 256 + byte.toNat) 0 % length

/-- The indices the loop visits, in order: at most 64, wrapping at the end. -/
def window (id : Id) (length : Nat) : List Nat :=
  (List.range (min length 64)).map fun probe => (start id length + probe) % length

/-- The probe loop. `none` is the early return on a live entry with this id;
otherwise the first free index seen, if there was one. -/
def probeLoop (entries : List Entry) (id : Id) (now : Int) :
    List Nat → Option Nat → Option (Option Nat)
  | [], free => some free
  | index :: rest, free =>
    let entry := slot entries index
    if now < entry.expires ∧ entry.id = id then none
    else probeLoop entries id now rest
      (if entry.expires ≤ now ∧ free.isNone then some index else free)

def consume (entries : List Entry) (id : Id) (expires now : Int) : Outcome × List Entry :=
  if expires ≤ now then (.expired, entries)
  else if entries.isEmpty then (.full, entries)
  else
    match probeLoop entries id now (window id entries.length) none with
    | none => (.reused, entries)
    | some (some index) => (.accepted, entries.set index ⟨id, expires⟩)
    | some none => (.full, entries)

variable {entries : List Entry} {id : Id} {now : Int} {indices : List Nat}

@[simp] theorem slot_set_same (entries : List Entry) (i : Nat) (entry : Entry)
    (bound : i < entries.length) : slot (entries.set i entry) i = entry := by
  simp [slot,bound]

@[simp] theorem slot_set_other (entries : List Entry) (i j : Nat) (entry : Entry) (apart : i ≠ j) :
    slot (entries.set i entry) j = slot entries j := by
  simp only [slot,List.getElem!_eq_getElem?_getD,List.getElem?_set_ne apart]

theorem window_lt (member : i ∈ window id n) : i < n := by
  obtain ⟨probe, inside, rfl⟩ := List.mem_map.mp member
  have := List.mem_range.mp inside
  exact Nat.mod_lt _ (by omega)

/-- A live entry with this id, at one of the given indices. -/
def Holds (entries : List Entry) (id : Id) (now : Int) (indices : List Nat) : Prop :=
  ∃ i ∈ indices, now < (slot entries i).expires ∧ (slot entries i).id = id

theorem probeLoop_none_iff :
    probeLoop entries id now indices free = none ↔ Holds entries id now indices := by
  induction indices generalizing free with
  | nil => simp [probeLoop,Holds]
  | cons index rest ih =>
    simp only [probeLoop]
    split
    · next hit => simpa [Holds] using Or.inl hit
    · next miss => simp [ih,Holds,miss]

/-- Without a live match the loop runs to its end and keeps the first free slot. -/
theorem probeLoop_some (h : probeLoop entries id now indices free = some found) :
    found = free.or (indices.find? fun i => decide ((slot entries i).expires ≤ now)) := by
  induction indices generalizing free with
  | nil => simpa [probeLoop,eq_comm] using h
  | cons index rest ih =>
    simp only [probeLoop] at h
    split at h
    · contradiction
    · rw [ih h]
      by_cases vacant : (slot entries index).expires ≤ now <;> cases free <;>
        simp [vacant]

/-- Everything one call can do, with the guard under which it does it. -/
theorem consume_cases (entries : List Entry) (id : Id) (expires now : Int) :
    (expires ≤ now ∧ consume entries id expires now = (.expired, entries)) ∨
    (now < expires ∧ Holds entries id now (window id entries.length) ∧
      consume entries id expires now = (.reused, entries)) ∨
    (now < expires ∧ ¬ Holds entries id now (window id entries.length) ∧
      (∀ i ∈ window id entries.length, now < (slot entries i).expires) ∧
      consume entries id expires now = (.full, entries)) ∨
    (now < expires ∧ ¬ Holds entries id now (window id entries.length) ∧
      ∃ i ∈ window id entries.length, (slot entries i).expires ≤ now ∧
        consume entries id expires now = (.accepted, entries.set i ⟨id, expires⟩)) := by
  by_cases late : expires ≤ now
  · exact .inl ⟨late, by simp [consume,late]⟩
  have early : now < expires := by omega
  by_cases empty : entries.isEmpty
  · have nil : entries = [] := by simpa using empty
    subst nil
    exact .inr (.inr (.inl ⟨early, by simp [Holds,window], by simp [window],
      by simp [consume,late]⟩))
  cases result : probeLoop entries id now (window id entries.length) none with
  | none =>
    exact .inr (.inl ⟨early, probeLoop_none_iff.mp result, by simp [consume,late,empty,result]⟩)
  | some found =>
    have miss : ¬ Holds entries id now (window id entries.length) := by
      rw [← probeLoop_none_iff,result]
      simp
    have first := probeLoop_some result
    simp only [Option.none_or] at first
    cases found with
    | none =>
      have live := List.find?_eq_none.mp first.symm
      refine .inr (.inr (.inl ⟨early, miss, ?_, by simp [consume,late,empty,result]⟩))
      intro i member
      simpa using live i member
    | some index =>
      have vacant := List.find?_some first.symm
      exact .inr (.inr (.inr ⟨early, miss, index, List.mem_of_find?_eq_some first.symm,
        by simpa using vacant, by simp [consume,late,empty,result]⟩))

@[simp] theorem consume_length (entries : List Entry) (id : Id) (expires now : Int) :
    (consume entries id expires now).2.length = entries.length := by
  rcases consume_cases entries id expires now with ⟨_, h⟩ | ⟨_, _, h⟩ | ⟨_, _, _, h⟩ |
    ⟨_, _, i, _, _, h⟩ <;> simp [h]

/-- A call overwrites no live entry. -/
theorem consume_keeps_live (entries : List Entry) (id : Id) (expires now : Int) (i : Nat)
    (live : now < (slot entries i).expires) :
    slot (consume entries id expires now).2 i = slot entries i := by
  rcases consume_cases entries id expires now with ⟨_, h⟩ | ⟨_, _, h⟩ | ⟨_, _, _, h⟩ |
    ⟨_, _, j, _, vacant, h⟩
  · rw [h]
  · rw [h]
  · rw [h]
  · have apart : j ≠ i := by rintro rfl; omega
    rw [h]
    exact slot_set_other _ _ _ _ apart

/-- The token is past its expiry on the shared clock, or its entry is still in
the probe window of its id. -/
def Spent (entries : List Entry) (id : Id) (expires clock : Int) : Prop :=
  expires ≤ clock ∨ ∃ i ∈ window id entries.length, slot entries i = ⟨id, expires⟩

theorem consume_accepted_spent (entries : List Entry) (id : Id) (expires now : Int)
    (accepted : (consume entries id expires now).1 = .accepted) :
    Spent (consume entries id expires now).2 id expires now := by
  rcases consume_cases entries id expires now with ⟨_, h⟩ | ⟨_, _, h⟩ | ⟨_, _, _, h⟩ |
    ⟨_, _, i, inside, _, h⟩
  · simp [h] at accepted
  · simp [h] at accepted
  · simp [h] at accepted
  · refine .inr ⟨i, by simpa using inside, ?_⟩
    rw [h]
    exact slot_set_same _ _ _ (window_lt inside)

/-- Spending survives every later call: a slot is recycled only when the entry
in it has expired on the clock that call uses. -/
theorem consume_keeps_spent (entries : List Entry) (id other : Id) (expires e clock now : Int)
    (advances : clock ≤ now) (spent : Spent entries id expires clock) :
    Spent (consume entries other e now).2 id expires now := by
  rcases spent with past | ⟨i, inside, entry⟩
  · exact .inl (by omega)
  · by_cases past : expires ≤ now
    · exact .inl past
    · refine .inr ⟨i, by simpa using inside, ?_⟩
      rw [consume_keeps_live entries other e now i (by rw [entry]; simpa using past),entry]

theorem spent_not_accepted (entries : List Entry) (id : Id) (expires clock now : Int)
    (advances : clock ≤ now) (spent : Spent entries id expires clock) :
    (consume entries id expires now).1 ≠ .accepted := by
  rcases consume_cases entries id expires now with ⟨_, h⟩ | ⟨_, _, h⟩ | ⟨_, _, _, h⟩ |
    ⟨early, miss, _⟩
  · simp [h]
  · simp [h]
  · simp [h]
  · rcases spent with past | ⟨i, inside, entry⟩
    · omega
    · exact absurd ⟨i, inside, by rw [entry]; exact early, by rw [entry]⟩ miss

end PowGate.Ledger
