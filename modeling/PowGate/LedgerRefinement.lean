import Mathlib.Logic.Function.Basic
import PowGate.Ledger

/-! The bounded table refines an unbounded map from redeemed id to expiry. The
map is the specification: it forgets slots, windows and capacity, and only
`full` reveals that the table is finite. -/
namespace PowGate.Ledger

/-- What the ledger is for: which ids were redeemed, and until when that counts. -/
abbrev Ideal := Id → Option Int

def Ideal.Live (ideal : Ideal) (id : Id) (now : Int) : Prop :=
  ∃ expires, ideal id = some expires ∧ now < expires

structure Call where
  id : Id
  expires : Int
  now : Int

structure State where
  table : List Entry
  ideal : Ideal

def initial (n : Nat) : State := ⟨List.replicate n default, fun _ => none⟩

def Call.on (call : Call) (table : List Entry) : Outcome × List Entry :=
  consume table call.id call.expires call.now

/-- The table takes the source's step; the ideal map records what was accepted. -/
def advance (s : State) (call : Call) : State where
  table := (call.on s.table).2
  ideal := match (call.on s.table).1 with
    | .accepted => Function.update s.ideal call.id (some call.expires)
    | _ => s.ideal

def execute (calls : List Call) (s : State) : State := calls.foldl advance s

/-- The representation invariant at clock `now`: live slots and live map entries
are the same pairs, each live slot lies in its own id's window, and no id has two. -/
structure Represents (n : Nat) (s : State) (now : Int) : Prop where
  length : s.table.length = n
  recorded : ∀ i, now < (slot s.table i).expires → i ∈ window (slot s.table i).id n ∧
    s.ideal (slot s.table i).id = some (slot s.table i).expires
  stored : ∀ id expires, s.ideal id = some expires → now < expires →
    ∃ i ∈ window id n, slot s.table i = ⟨id, expires⟩
  unique : ∀ i j, now < (slot s.table i).expires → now < (slot s.table j).expires →
    (slot s.table i).id = (slot s.table j).id → i = j

variable {n : Nat} {s : State} {call : Call} {now after : Int}

theorem Represents.later (valid : Represents n s now) (advances : now ≤ after) :
    Represents n s after where
  length := valid.length
  recorded i live := valid.recorded i (by omega)
  stored id expires known live := valid.stored id expires known (by omega)
  unique i j first second same := valid.unique i j (by omega) (by omega) same

theorem slot_initial (n i : Nat) : (slot (initial n).table i).expires = 0 := by
  have vacant : slot (initial n).table i = default := by
    simp only [slot,initial,List.getElem!_eq_getElem?_getD,List.getElem?_replicate]
    split <;> rfl
  rw [vacant]
  rfl

theorem initial_represents (n : Nat) (now : Int) (nonneg : 0 ≤ now) :
    Represents n (initial n) now := by
  constructor
  · simp [initial]
  · intro i live
    rw [slot_initial] at live
    omega
  · intro id expires known
    simp [initial] at known
  · intro i j live
    rw [slot_initial] at live
    omega

/-- The probe window sees a live match exactly when the map holds the id. -/
theorem Represents.holds_iff (valid : Represents n s now) (id : Id) :
    Holds s.table id now (window id n) ↔ s.ideal.Live id now := by
  constructor
  · rintro ⟨i, _, live, rfl⟩
    exact ⟨_, (valid.recorded i live).2, live⟩
  · rintro ⟨expires, known, live⟩
    obtain ⟨i, inside, entry⟩ := valid.stored id expires known live
    exact ⟨i, inside, by rw [entry]; exact live, by rw [entry]⟩

/-- One call, seen from both sides. -/
theorem Represents.call_cases (valid : Represents n s call.now) :
    (call.expires ≤ call.now ∧ call.on s.table = (.expired, s.table)) ∨
    (call.now < call.expires ∧ s.ideal.Live call.id call.now ∧
      call.on s.table = (.reused, s.table)) ∨
    (call.now < call.expires ∧ ¬ s.ideal.Live call.id call.now ∧
      (∀ i ∈ window call.id n, call.now < (slot s.table i).expires) ∧
      call.on s.table = (.full, s.table)) ∨
    (call.now < call.expires ∧ ¬ s.ideal.Live call.id call.now ∧
      ∃ i ∈ window call.id n, (slot s.table i).expires ≤ call.now ∧
        call.on s.table = (.accepted, s.table.set i ⟨call.id, call.expires⟩)) := by
  have cases := consume_cases s.table call.id call.expires call.now
  rw [valid.length,valid.holds_iff] at cases
  exact cases

theorem advance_represents (valid : Represents n s call.now) :
    Represents n (advance s call) call.now := by
  rcases valid.call_cases with ⟨_, h⟩ | ⟨_, _, h⟩ | ⟨_, _, _, h⟩ | ⟨early, fresh, i, inside, vacant, h⟩
  · simpa [advance,h] using valid
  · simpa [advance,h] using valid
  · simpa [advance,h] using valid
  -- Only an acceptance moves the state: slot `i` changes hands, and it was not live.
  have bound : i < s.table.length := valid.length ▸ window_lt inside
  have other (j : Nat) (apart : i ≠ j) :
      slot (s.table.set i ⟨call.id, call.expires⟩) j = slot s.table j :=
    slot_set_other _ _ _ _ apart
  have foreign (j : Nat) (live : call.now < (slot s.table j).expires) :
      (slot s.table j).id ≠ call.id := by
    intro same
    exact fresh (same ▸ ⟨_, (valid.recorded j live).2, live⟩)
  simp only [advance,h]
  constructor
  · simpa using valid.length
  · intro j live
    by_cases same : i = j
    · subst j
      simpa [bound] using inside
    · rw [other j same] at live ⊢
      simpa [Function.update_of_ne (foreign j live)] using valid.recorded j live
  · intro id expires known live
    change Function.update s.ideal call.id (some call.expires) id = some expires at known
    by_cases same : id = call.id
    · subst id
      rw [Function.update_self] at known
      obtain rfl := Option.some.inj known
      exact ⟨i, inside, slot_set_same _ _ _ bound⟩
    · rw [Function.update_of_ne same] at known
      obtain ⟨j, within, entry⟩ := valid.stored id expires known live
      have apart : i ≠ j := by
        rintro rfl
        rw [entry] at vacant
        simp only at vacant
        omega
      exact ⟨j, within, by rw [other j apart,entry]⟩
  · intro j k first second same
    by_cases atJ : i = j <;> by_cases atK : i = k
    · omega
    · subst j
      rw [slot_set_same _ _ _ bound,other k atK] at same
      rw [other k atK] at second
      exact absurd same.symm (foreign k second)
    · subst k
      rw [slot_set_same _ _ _ bound,other j atJ] at same
      rw [other j atJ] at first
      exact absurd same (foreign j first)
    · rw [other j atJ,other k atK] at same
      rw [other j atJ] at first
      rw [other k atK] at second
      exact valid.unique j k first second same

/-- Calls in clock order keep the representation, whatever ids they mix. -/
theorem execute_represents (calls : List Call) (valid : Represents n s now)
    (ordered : calls.Pairwise fun a b => a.now ≤ b.now) (later : ∀ call ∈ calls, now ≤ call.now)
    (after : Int) (reached : now ≤ after) (bounded : ∀ call ∈ calls, call.now ≤ after) :
    Represents n (execute calls s) after := by
  induction calls generalizing s now with
  | nil => exact valid.later reached
  | cons call rest ih =>
    obtain ⟨first, tail⟩ := List.pairwise_cons.mp ordered
    exact ih (advance_represents (valid.later (later call (by simp)))) tail first
      (bounded call (by simp)) (fun c member => bounded c (by simp [member]))

/-- One call of the table against the ideal map. -/
structure Refines (n : Nat) (s : State) (call : Call) : Prop where
  expired_iff : (call.on s.table).1 = .expired ↔ call.expires ≤ call.now
  reused_iff : call.now < call.expires →
    ((call.on s.table).1 = .reused ↔ s.ideal.Live call.id call.now)
  accepted_iff : call.now < call.expires → ¬ s.ideal.Live call.id call.now →
    ((call.on s.table).1 = .accepted ↔
      ∃ i ∈ window call.id n, (slot s.table i).expires ≤ call.now)
  full_iff : call.now < call.expires → ¬ s.ideal.Live call.id call.now →
    ((call.on s.table).1 = .full ↔
      ¬ ∃ i ∈ window call.id n, (slot s.table i).expires ≤ call.now)
  one_slot : (call.on s.table).1 = .accepted → ∃ i < n,
    (slot s.table i).expires ≤ call.now ∧
    slot (call.on s.table).2 i = ⟨call.id, call.expires⟩ ∧
    slot (call.on s.table).2 i ≠ slot s.table i ∧
    ∀ j, j ≠ i → slot (call.on s.table).2 j = slot s.table j
  unchanged : (call.on s.table).1 ≠ .accepted → (call.on s.table).2 = s.table
  never_evicted : ∀ i, call.now < (slot s.table i).expires →
    slot (call.on s.table).2 i = slot s.table i
  never_duplicated : ∀ i j, call.now < (slot (call.on s.table).2 i).expires →
    call.now < (slot (call.on s.table).2 j).expires →
    (slot (call.on s.table).2 i).id = (slot (call.on s.table).2 j).id → i = j

theorem Represents.refines (valid : Represents n s call.now) : Refines n s call := by
  have unique : ∀ i j, call.now < (slot (call.on s.table).2 i).expires →
      call.now < (slot (call.on s.table).2 j).expires →
      (slot (call.on s.table).2 i).id = (slot (call.on s.table).2 j).id → i = j :=
    (advance_represents valid).unique
  have kept : ∀ i, call.now < (slot s.table i).expires →
      slot (call.on s.table).2 i = slot s.table i :=
    consume_keeps_live s.table call.id call.expires call.now
  rcases valid.call_cases with ⟨late, h⟩ | ⟨early, known, h⟩ | ⟨early, fresh, live, h⟩ |
    ⟨early, fresh, i, inside, vacant, h⟩
  · refine ⟨?_, ?_, ?_, ?_, ?_, ?_, kept, unique⟩ <;> simp [h] <;> omega
  · refine ⟨?_, ?_, ?_, ?_, ?_, ?_, kept, unique⟩ <;> simp [h,known]
    omega
  · have none : ¬ ∃ i ∈ window call.id n, (slot s.table i).expires ≤ call.now := by
      rintro ⟨i, inside, vacant⟩
      have := live i inside
      omega
    refine ⟨?_, ?_, ?_, ?_, ?_, ?_, kept, unique⟩
    · simp [h]
      omega
    · simp [h,fresh]
    · simp [h,none]
    · simp [h,none]
    · simp [h]
    · simp [h]
  · have found : ∃ i ∈ window call.id n, (slot s.table i).expires ≤ call.now := ⟨i, inside, vacant⟩
    have bound : i < s.table.length := valid.length ▸ window_lt inside
    refine ⟨?_, ?_, ?_, ?_, ?_, ?_, kept, unique⟩
    · simp [h]
      omega
    · simp [h,fresh]
    · simp [h,found]
    · simp [h,found]
    · intro _
      refine ⟨i, window_lt inside, vacant, by simp [h,bound], ?_, ?_⟩
      · rw [h]
        intro same
        rw [slot_set_same _ _ _ bound] at same
        rw [← same] at vacant
        simp only at vacant
        omega
      · intro j apart
        rw [h]
        exact slot_set_other _ _ _ _ apart.symm
    · simp [h]

/-- Every call of every run from an empty table, for every table length, in
nondecreasing nonnegative time. Neither a positive length nor a fixed expiry per id is needed. -/
theorem consume_refines_ideal (n : Nat) (calls before rest : List Call)
    (call : Call) (ordered : calls.Pairwise fun a b => a.now ≤ b.now)
    (nonneg : ∀ c ∈ calls, 0 ≤ c.now) (split : calls = before ++ call :: rest) :
    Refines n (execute before (initial n)) call := by
  subst split
  obtain ⟨first, _, across⟩ := List.pairwise_append.mp ordered
  have bounded : ∀ c ∈ before, c.now ≤ call.now := fun c member => across c member call (by simp)
  exact (execute_represents before (initial_represents n 0 (by omega)) first
    (fun c member => nonneg c (by simp [member])) call.now (nonneg call (by simp)) bounded).refines

/-- Two ids collide in a table of two slots; the first expires while the second lives. -/
theorem consume_refines_ideal_recycled :
    let a : Call := ⟨Vector.replicate 32 0, 110, 100⟩
    let b : Call := ⟨Vector.replicate 32 2, 200, 100⟩
    let c : Call := ⟨Vector.replicate 32 2, 200, 110⟩
    Refines 2 (execute [a,b] (initial 2)) c ∧ (c.on (execute [a,b] (initial 2)).table).1 = .reused := by
  refine ⟨consume_refines_ideal 2 _ _ [] _ ?_ ?_ rfl, by decide⟩
  · simp
  · simp

end PowGate.Ledger
