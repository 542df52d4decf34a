import PowGate.OneUse
import PowGate.Presented

/-! The shared zone through the life of nginx. Configurations are loaded, refused and replaced,
worker processes of several cycles run side by side, and a process settles redemptions in the
zone of the cycle that started it. A zone that is mapped anew has a new identity, so what was
issued under another one cannot be redeemed in it. -/
namespace PowGate.Cycles

open Text

/-- Shared memory: each `redemption::State` by its address, and the `data` of each slab pool. -/
structure Memory where
  states : Nat → Option Zone
  pools : Nat → Option Nat

/-- `ngx_shm_zone_t`, as far as the module reads it. -/
structure ShmZone where
  addr : Nat
  data : Option Nat

/-- The cycle's Redis configuration, by its issuer, and its redemption zone. -/
structure MainConf where
  cluster : Option Digest
  redemptionZone : Option ShmZone

/-- The statics of a worker process: `cluster::RUNTIME`, by its issuer, and `ZONE`. -/
structure Process where
  runtime : Option Digest
  zone : Option ShmZone

/-- `redemption::configure`, with the result of `ngx_shared_memory_add`. Redis owns the ledger
in cluster mode: no local zone is reserved. -/
def configure (cluster : Option Digest) (added : Option ShmZone) : Option MainConf :=
  match cluster with
  | some _ => some ⟨cluster, none⟩
  | none => added.map fun zone => ⟨none, some zone⟩

/-- `init_zone`, with the results of `ngx_slab_calloc` and of the entropy source. -/
def initZone (m : Memory) (zone : ShmZone) (old : Option Nat) (attached : Bool) (slab : Option Nat)
    (entropy : Option Digest) : Option (ShmZone × Memory) :=
  match old with
  | some state => some ({ zone with data := some state }, m)
  | none =>
    if attached then some ({ zone with data := m.pools zone.addr }, m)
    else match slab, entropy with
    | some state, some issuer =>
      some ({ zone with data := some state },
        ⟨Function.update m.states state (some (Zone.init issuer)), Function.update m.pools zone.addr (some state)⟩)
    | _, _ => none

/-- What an attempt to load a configuration asks for and meets: `attached` is `shm.exists`. -/
structure Load where
  cluster : Option Digest
  added : Bool
  addr : Nat
  attached : Bool
  slab : Option Nat
  entropy : Option Digest

/-- `ngx_init_cycle`, as far as the zone goes: a zone of the same name in the cycle that is
replaced hands over its mapping and its data, any other is mapped anew. -/
def Load.start (ask : Load) (m : Memory) (old : Option ShmZone) : Option (MainConf × Memory) := do
  let main ← configure ask.cluster (if ask.added then some ⟨ask.addr, none⟩ else none)
  match main.redemptionZone with
  | none => some (main, m)
  | some zone =>
    let (zone, m) ← initZone m { zone with addr := (old.map (·.addr)).getD zone.addr } (old.bind (·.data))
      ask.attached ask.slab ask.entropy
    some ({ main with redemptionZone := some zone }, m)

/-- `redemption::activate`. A worker that finds neither backend refuses to start. -/
def MainConf.activate (main : MainConf) : Option Process :=
  if main.cluster.isSome || (main.redemptionZone.bind (·.data)).isSome then
    some ⟨main.cluster, main.redemptionZone⟩
  else none

namespace Process

def data (p : Process) : Option Nat := p.zone.bind (·.data)

/-- `redemption::issuer`. -/
def issuer (p : Process) (m : Memory) (fenced : Bool) : Option Digest :=
  match p.runtime with
  | some store => if fenced then none else some store
  | none => (p.data.bind m.states).map (·.issuer)

/-- `redemption::consume`. -/
def consume (crates : Crates) (p : Process) (m : Memory) (token : Bytes) (expires clock : Int64) :
    Ledger.Outcome × Memory :=
  match p.data.bind fun address => (m.states address).map fun zone => (address, zone) with
  | none => (.full, m)
  | some (address, zone) =>
    let result := zone.consume crates token expires clock
    (result.1, { m with states := Function.update m.states address (some result.2) })

end Process

/-- All requests so far, shared memory, the cycle the master runs, and its worker processes
with the redemptions each is about to settle. -/
structure State where
  past : List Event
  memory : Memory
  cycle : Option MainConf
  processes : Nat → Option Process
  pending : Nat → List Redemption

def State.boot : State := ⟨[], ⟨fun _ => none, fun _ => none⟩, none, fun _ => none, fun _ => []⟩

inductive Act where
  /-- A configuration is loaded, by the running master or by a new one. -/
  | load (ask : Load) (inherits : Bool)
  /-- A configuration is refused and its cycle thrown away. -/
  | refuse (ask : Load)
  | fork (pid : Nat)
  | exit (pid : Nat)
  | serve (pid : Nat) (e : Event)
  /-- A process settles a redemption in its zone. -/
  | settle (pid : Nat) (rd : Redemption) (outcome : Ledger.Outcome)
  /-- A process in cluster mode settles one by what Redis told it. -/
  | forward (pid : Nat) (rd : Redemption) (outcome : Ledger.Outcome)

/-- The slab allocator hands out unused memory, and 32 random bytes were never drawn before. -/
structure Load.Fresh (ask : Load) (m : Memory) : Prop where
  slab : ∀ state ∈ ask.slab, m.states state = none
  entropy : ∀ issuer ∈ ask.entropy, ∀ address zone, m.states address = some zone → zone.issuer ≠ issuer

/-- The zone of the cycle that is replaced, if the new cycle is loaded by the same master. -/
def State.replaced (s : State) (inherits : Bool) : Option ShmZone :=
  if inherits then s.cycle.bind (·.redemptionZone) else none

inductive Step (crates : Crates) (s : State) : Act → State → Prop where
  | load {ask : Load} {inherits : Bool} {main : MainConf} {memory : Memory} (fresh : ask.Fresh s.memory)
      (started : ask.start s.memory (s.replaced inherits) = some (main, memory)) :
      Step crates s (.load ask inherits) { s with cycle := some main, memory := memory }
  | refuse {ask : Load} : Step crates s (.refuse ask) s
  | fork {pid : Nat} {main : MainConf} {p : Process} (cycle : s.cycle = some main) (activated : main.activate = some p) :
      Step crates s (.fork pid) { s with
        processes := Function.update s.processes pid (some p), pending := Function.update s.pending pid [] }
  | exit {pid : Nat} : Step crates s (.exit pid) { s with
      processes := Function.update s.processes pid none, pending := Function.update s.pending pid [] }
  | serve {pid : Nat} {p : Process} {e : Event} {v : Visit} {fenced : Bool} (running : s.processes pid = some p)
      (visited : e.visit = some v) (shown : v.w.issuer = p.issuer s.memory fenced) (sound : Sound crates s.past e)
      (apart : Apart crates s.past v) :
      Step crates s (.serve pid e) { s with
        past := s.past ++ [e], pending := Function.update s.pending pid (e.begins.toList ++ s.pending pid) }
  | settle {pid : Nat} {p : Process} {rd : Redemption} {clock : Int64} {outcome : Ledger.Outcome} {memory : Memory}
      (running : s.processes pid = some p) (alone : p.runtime = none) (asked : rd ∈ s.pending pid)
      (consumed : p.consume crates s.memory rd.token rd.expires clock = (outcome, memory)) :
      Step crates s (.settle pid rd outcome) { s with
        past := s.past ++ [.settle rd outcome], memory := memory,
        pending := Function.update s.pending pid ((s.pending pid).erase rd) }
  | forward {pid : Nat} {p : Process} {store : Digest} {rd : Redemption} {outcome : Ledger.Outcome}
      (running : s.processes pid = some p) (fleet : p.runtime = some store) (asked : rd ∈ s.pending pid) :
      Step crates s (.forward pid rd outcome) { s with
        past := s.past ++ [.settle rd outcome],
        pending := Function.update s.pending pid ((s.pending pid).erase rd) }

/-- A worker with a zone releases a clearance for this token. -/
def clears (token : Bytes) : Act → Bool
  | .settle _ rd .accepted => rd.token = token
  | _ => false

/-- Memory after some steps: every zone is still there, under its identity, and what was spent
in it is still spent. -/
def Grows (crates : Crates) (m m' : Memory) : Prop :=
  ∀ address zone, m.states address = some zone → ∃ zone', m'.states address = some zone' ∧
    zone'.issuer = zone.issuer ∧ ∀ token expires, zone.Spent crates token expires → zone'.Spent crates token expires

/-- No two zones have one identity, and the pools point to zones. -/
structure Memory.Ordered (m : Memory) : Prop where
  apart : ∀ a b zone zone', m.states a = some zone → m.states b = some zone' → zone.issuer = zone'.issuer → a = b
  pools : ∀ pool, ∀ a ∈ m.pools pool, (m.states a).isSome

section Memory

variable {crates : Crates} {m m' m'' : Memory} {p : Process} {ask : Load} {old : Option ShmZone} {main : MainConf}

theorem Grows.refl (m : Memory) : Grows crates m m := fun _ zone found => ⟨zone, found, rfl, fun _ _ spent => spent⟩

theorem Grows.isSome (grows : Grows crates m m') (there : (m.states a).isSome) : (m'.states a).isSome := by
  obtain ⟨zone, found⟩ := Option.isSome_iff_exists.mp there
  obtain ⟨zone', found', _⟩ := grows a zone found
  exact Option.isSome_iff_exists.mpr ⟨zone', found'⟩

/-- A process goes on showing the identity it showed. -/
theorem Grows.issuer (grows : Grows crates m m') (there : ∀ a ∈ p.data, (m.states a).isSome) (fenced : Bool) :
    p.issuer m' fenced = p.issuer m fenced := by
  unfold Process.issuer
  split
  · rfl
  · cases points : p.data with
    | none => rfl
    | some a =>
      obtain ⟨zone, found⟩ := Option.isSome_iff_exists.mp (there a points)
      obtain ⟨zone', found', same, _⟩ := grows a zone found
      simp [found,found',same]

/-- What loading a configuration does: it has no zone because Redis keeps the ledger, or takes
over a zone that exists, or makes one. -/
theorem start_cases (started : ask.start m old = some (main, m')) :
    (main.redemptionZone = none ∧ m' = m) ∨
    (∃ zone, main.redemptionZone = some zone ∧ m' = m ∧ main.cluster = none ∧
      (old.bind (·.data) = zone.data ∨ old.bind (·.data) = none ∧ ∃ pool, m.pools pool = zone.data)) ∨
    ∃ zone state issuer pool, main.redemptionZone = some zone ∧ main.cluster = none ∧ zone.data = some state ∧
      ask.slab = some state ∧ ask.entropy = some issuer ∧ old.bind (·.data) = none ∧
      m' = ⟨Function.update m.states state (some (Zone.init issuer)), Function.update m.pools pool (some state)⟩ := by
  unfold Load.start at started
  obtain ⟨configured, asked, started⟩ := Option.bind_eq_some_iff.mp started
  split at started
  · next absent =>
    obtain ⟨rfl, rfl⟩ := Prod.mk.inj (Option.some.inj started)
    exact .inl ⟨absent, rfl⟩
  · next zone wanted =>
    have alone : configured.cluster = none := by
      unfold configure at asked
      split at asked
      · obtain rfl := Option.some.inj asked
        cases wanted
      · obtain ⟨_, _, rfl⟩ := Option.map_eq_some_iff.mp asked
        rfl
    obtain ⟨⟨zone', memory⟩, initialised, started⟩ := Option.bind_eq_some_iff.mp started
    obtain ⟨rfl, rfl⟩ := Prod.mk.inj (Option.some.inj started)
    unfold initZone at initialised
    split at initialised
    · next state kept =>
      obtain ⟨rfl, rfl⟩ := Prod.mk.inj (Option.some.inj initialised)
      exact .inr (.inl ⟨_, rfl, rfl, alone, .inl kept⟩)
    · next lost =>
      split at initialised
      · obtain ⟨rfl, rfl⟩ := Prod.mk.inj (Option.some.inj initialised)
        exact .inr (.inl ⟨_, rfl, rfl, alone, .inr ⟨lost, _, rfl⟩⟩)
      · split at initialised
        · next state issuer made drawn =>
          obtain ⟨rfl, rfl⟩ := Prod.mk.inj (Option.some.inj initialised)
          exact .inr (.inr ⟨_, state, issuer, _, rfl, alone, rfl, made, drawn, lost, rfl⟩)
        · cases initialised

theorem start_grows (fresh : ask.Fresh m) (started : ask.start m old = some (main, m')) : Grows crates m m' := by
  rcases start_cases started with ⟨_, rfl⟩ | ⟨_, _, rfl, _⟩ | ⟨zone, state, issuer, pool, _, _, _, made, _, _, rfl⟩
  · exact .refl _
  · exact .refl _
  · intro address zone' found
    have apart : address ≠ state := by
      rintro rfl
      rw [fresh.slab address made] at found
      cases found
    exact ⟨zone', (Function.update_of_ne apart ..).trans found, rfl, fun _ _ spent => spent⟩

/-- A new zone has an identity of its own. -/
theorem Memory.Ordered.make (ordered : m.Ordered) (state pool : Nat) {issuer : Digest}
    (new : ∀ address zone, m.states address = some zone → zone.issuer ≠ issuer) :
    Memory.Ordered ⟨Function.update m.states state (some (Zone.init issuer)), Function.update m.pools pool (some state)⟩ := by
  have cases : ∀ {a zone}, Function.update m.states state (some (Zone.init issuer)) a = some zone →
      (a = state ∧ zone.issuer = issuer) ∨ m.states a = some zone := by
    intro a zone found
    by_cases here : a = state
    · subst here
      rw [Function.update_self] at found
      obtain rfl := Option.some.inj found
      exact .inl ⟨rfl, rfl⟩
    · rw [Function.update_of_ne here] at found
      exact .inr found
  refine ⟨?_, ?_⟩
  · intro a b zone zone' found found' same
    rcases cases found with ⟨rfl, made⟩ | old <;> rcases cases found' with ⟨rfl, made'⟩ | old'
    · rfl
    · exact absurd (same.symm.trans made) (new b zone' old')
    · exact absurd (same.trans made') (new a zone old)
    · exact ordered.apart a b zone zone' old old' same
  · intro pool' a points
    by_cases here : a = state
    · subst here
      simp
    · have points : m.pools pool' = some a := by
        by_cases there : pool' = pool
        · subst there
          simp only [Function.update_self,Option.mem_def,Option.some.injEq] at points
          exact absurd points.symm here
        · exact (Function.update_of_ne there ..).symm.trans points
      simpa [here] using ordered.pools pool' a points

/-- Loading keeps memory in order, and the zone of the new cycle exists. -/
theorem start_ordered (fresh : ask.Fresh m) (ordered : m.Ordered) (there : ∀ a ∈ old.bind (·.data), (m.states a).isSome)
    (started : ask.start m old = some (main, m')) :
    m'.Ordered ∧ ∀ zone ∈ main.redemptionZone, ∀ a ∈ zone.data, (m'.states a).isSome := by
  rcases start_cases started with ⟨absent, rfl⟩ | ⟨zone, present, rfl, _, source⟩ |
    ⟨zone, state, issuer, pool, present, _, points, _, drawn, _, rfl⟩
  · refine ⟨ordered, ?_⟩
    intro zone found
    rw [absent] at found
    cases found
  · refine ⟨ordered, ?_⟩
    intro zone' found a points
    obtain rfl := Option.some.inj (present.symm.trans found)
    rcases source with same | ⟨_, pool, same⟩
    · exact there a (same.trans points)
    · exact ordered.pools pool a (same.trans points)
  · refine ⟨ordered.make state pool (fresh.entropy issuer drawn), ?_⟩
    intro zone' found a points'
    obtain rfl := Option.some.inj (present.symm.trans found)
    obtain rfl := Option.some.inj (points.symm.trans points')
    simp

/-- A process consumes in its zone, or has none. -/
theorem consume_cases (consumed : p.consume crates m token expires clock = (outcome, m')) :
    (outcome = .full ∧ m' = m) ∨ ∃ address zone, p.data = some address ∧ m.states address = some zone ∧
      outcome = (zone.consume crates token expires clock).1 ∧
      m' = ⟨Function.update m.states address (some (zone.consume crates token expires clock).2), m.pools⟩ := by
  unfold Process.consume at consumed
  split at consumed
  · obtain ⟨rfl, rfl⟩ := Prod.mk.inj consumed
    exact .inl ⟨rfl, rfl⟩
  · next found =>
    obtain ⟨rfl, rfl⟩ := Prod.mk.inj consumed
    obtain ⟨address, points, mapped⟩ := Option.bind_eq_some_iff.mp found
    obtain ⟨zone, held, same⟩ := Option.map_eq_some_iff.mp mapped
    obtain ⟨rfl, rfl⟩ := Prod.mk.inj same
    exact .inr ⟨_, _, points, held, rfl, rfl⟩

theorem consume_eq {address : Nat} {zone : Zone} (points : p.data = some address) (found : m.states address = some zone) :
    p.consume crates m token expires clock = ((zone.consume crates token expires clock).1,
      ⟨Function.update m.states address (some (zone.consume crates token expires clock).2), m.pools⟩) := by
  simp [Process.consume,points,found]

/-- Rewriting a zone in place, with its identity. -/
theorem Memory.Ordered.write (ordered : m.Ordered) (found : m.states address = some zone)
    (same : zone'.issuer = zone.issuer) : Memory.Ordered ⟨Function.update m.states address (some zone'), m.pools⟩ := by
  have before : ∀ {a after}, Function.update m.states address (some zone') a = some after →
      ∃ old, m.states a = some old ∧ old.issuer = after.issuer := by
    intro a after now
    by_cases here : a = address
    · subst here
      rw [Function.update_self] at now
      obtain rfl := Option.some.inj now
      exact ⟨zone, found, same.symm⟩
    · rw [Function.update_of_ne here] at now
      exact ⟨after, now, rfl⟩
  refine ⟨?_, ?_⟩
  · intro a b after after' now now' equal
    obtain ⟨old, was, identity⟩ := before now
    obtain ⟨old', was', identity'⟩ := before now'
    exact ordered.apart a b old old' was was' (by rw [identity,identity',equal])
  · intro pool a points
    by_cases here : a = address
    · subst here
      simp
    · simpa [here] using ordered.pools pool a points

theorem consume_ordered (ordered : m.Ordered) (consumed : p.consume crates m token expires clock = (outcome, m')) :
    m'.Ordered := by
  rcases consume_cases consumed with ⟨_, rfl⟩ | ⟨address, zone, _, found, _, rfl⟩
  · exact ordered
  · exact ordered.write found rfl

theorem consume_grows (consumed : p.consume crates m token expires clock = (outcome, m')) : Grows crates m m' := by
  rcases consume_cases consumed with ⟨_, rfl⟩ | ⟨address, zone, _, held, _, rfl⟩
  · exact .refl _
  · intro other zone' found
    by_cases here : other = address
    · subst here
      obtain rfl := Option.some.inj (held.symm.trans found)
      refine ⟨_, Function.update_self .., rfl, ?_⟩
      intro t e spent
      exact spent.kept token expires clock
    · exact ⟨zone', (Function.update_of_ne here ..).trans found, rfl, fun _ _ spent => spent⟩

end Memory

/-- The redemption began in `past`, while its worker showed this identity. -/
def Under (past : List Event) (rd : Redemption) (issuer : Option Digest) : Prop :=
  ∃ before e after, past = before ++ e :: after ∧ e.begins = some rd ∧ e.visit.bind (·.w.issuer) = issuer

theorem Under.later (under : Under past rd issuer) : Under (past ++ more) rd issuer := by
  obtain ⟨before, e, after, rfl, rest⟩ := under
  exact ⟨before, e, after ++ more, by simp, rest⟩

/-- Every pointer leads to a zone, and what a process is about to settle began under the identity
it shows. -/
structure Inv (crates : Crates) (s : State) : Prop where
  memory : s.memory.Ordered
  cycle : ∀ main ∈ s.cycle, ∀ zone ∈ main.redemptionZone, ∀ a ∈ zone.data, (s.memory.states a).isSome
  processes : ∀ pid, ∀ p ∈ s.processes pid, ∀ a ∈ p.data, (s.memory.states a).isSome
  pending : ∀ pid, ∀ p ∈ s.processes pid, ∀ rd ∈ s.pending pid, ∃ fenced, Under s.past rd (p.issuer s.memory fenced)
  entered : Entered crates s.past

/-- Some redemption of this token was accepted by the zone whose identity it began under. -/
def Used (crates : Crates) (token : Bytes) (s : State) : Prop :=
  ∃ rd address zone, rd.token = token ∧ Under s.past rd (some zone.issuer) ∧
    s.memory.states address = some zone ∧ zone.Spent crates token rd.expires

section Steps

variable {crates : Crates} {s t : State} {act : Act} {m' : Memory} {p : Process} {token : Bytes}

theorem step_grows (taken : Step crates s act t) : Grows crates s.memory t.memory := by
  cases taken with
  | load fresh started => exact start_grows fresh started
  | refuse => exact .refl _
  | fork => exact .refl _
  | exit => exact .refl _
  | serve => exact .refl _
  | settle _ _ _ consumed => exact consume_grows consumed
  | forward => exact .refl _

theorem boot_inv : Inv crates .boot := by
  refine ⟨⟨?_, ?_⟩, ?_, ?_, ?_, ?_, ?_⟩ <;> simp [State.boot,Settled]

/-- One more request. -/
theorem entered_visit {past : List Event} {e : Event} {v : Visit} (entered : Entered crates past)
    (visited : e.visit = some v) (sound : Sound crates past e) (separate : Apart crates past v) :
    Entered crates (past ++ [e]) := by
  refine ⟨?_, ?_⟩
  · intro before x after w split seen
    rcases snoc_split split with ⟨_, rfl, rfl⟩ | ⟨rest, _, rfl⟩
    · obtain rfl := Option.some.inj (visited.symm.trans seen)
      exact ⟨sound, separate⟩
    · exact entered.visits before x rest w rfl seen
  · intro rd member
    rcases List.mem_append.mp member with old | new
    · exact entered.settled rd old
    · rw [← List.mem_singleton.mp new] at visited
      cases visited

/-- One more answer from a store. -/
theorem entered_settle {past : List Event} {rd : Redemption} (entered : Entered crates past)
    (under : Under past rd issuer) (outcome : Ledger.Outcome) : Entered crates (past ++ [.settle rd outcome]) := by
  refine ⟨?_, ?_⟩
  · intro before x after w split seen
    rcases snoc_split split with ⟨_, _, rfl⟩ | ⟨rest, _, rfl⟩
    · cases seen
    · exact entered.visits before x rest w rfl seen
  · intro rd' member
    rcases List.mem_append.mp member with old | new
    · exact entered.settled rd' old
    · obtain ⟨rfl, _⟩ := Event.settle.inj (List.mem_singleton.mp new)
      obtain ⟨_, _, _, _, begins, _⟩ := under
      exact begins_message begins

/-- What is pending at a running process stays under the identity the process shows. -/
theorem Inv.pending_later (inv : Inv crates s) (grows : Grows crates s.memory m') (more : List Event)
    {pid : Nat} (running : s.processes pid = some p) (asked : rd ∈ s.pending pid) :
    ∃ fenced, Under (s.past ++ more) rd (p.issuer m' fenced) := by
  obtain ⟨fenced, under⟩ := inv.pending pid p running rd asked
  refine ⟨fenced, ?_⟩
  rw [grows.issuer (inv.processes pid p running)]
  exact under.later

/-- A process starts or ends, with nothing to settle. -/
theorem Inv.replace (inv : Inv crates s) (pid : Nat) (started : Option Process)
    (there : ∀ p ∈ started, ∀ a ∈ p.data, (s.memory.states a).isSome) :
    Inv crates { s with processes := Function.update s.processes pid started, pending := Function.update s.pending pid [] } := by
  refine ⟨inv.memory, inv.cycle, ?_, ?_, inv.entered⟩
  · intro other p running
    by_cases here : other = pid
    · subst here
      simp only [Function.update_self] at running
      exact there p running
    · exact inv.processes other p ((Function.update_of_ne here ..).symm.trans running)
  · intro other p running rd asked
    by_cases here : other = pid
    · subst here
      simp at asked
    · refine inv.pending other p ((Function.update_of_ne here ..).symm.trans running) rd ?_
      simpa [here] using asked

/-- A process answers a request or settles one; what it has left to settle was pending, or begins now. -/
theorem Inv.advance (inv : Inv crates s) (grows : Grows crates s.memory m') (ordered : m'.Ordered) (e : Event) (pid : Nat)
    (left : List Redemption) (running : s.processes pid = some p) (entered : Entered crates (s.past ++ [e]))
    (known : ∀ rd ∈ left, rd ∈ s.pending pid ∨ ∃ fenced, Under (s.past ++ [e]) rd (p.issuer m' fenced)) :
    Inv crates { s with past := s.past ++ [e], memory := m', pending := Function.update s.pending pid left } := by
  refine ⟨ordered, ?_, ?_, ?_, entered⟩
  · intro main current zone there a points
    exact grows.isSome (inv.cycle main current zone there a points)
  · intro other q running' a points
    exact grows.isSome (inv.processes other q running' a points)
  · intro other q running' rd asked
    by_cases here : other = pid
    · subst here
      obtain rfl := Option.some.inj (running.symm.trans running')
      simp only [Function.update_self] at asked
      rcases known rd asked with old | new
      · exact inv.pending_later grows [e] running old
      · exact new
    · simp only [Function.update_of_ne here] at asked
      exact inv.pending_later grows [e] running' asked

theorem step_inv (inv : Inv crates s) (taken : Step crates s act t) : Inv crates t := by
  have grows := step_grows taken
  cases taken with
  | @load ask inherits main memory fresh started =>
    have replaced : ∀ a ∈ (s.replaced inherits).bind (·.data), (s.memory.states a).isSome := by
      intro a points
      unfold State.replaced at points
      split at points
      · obtain ⟨zone, there, points⟩ := Option.bind_eq_some_iff.mp points
        obtain ⟨main, running, there⟩ := Option.bind_eq_some_iff.mp there
        exact inv.cycle main running zone there a points
      · cases points
    obtain ⟨ordered, there⟩ := start_ordered fresh inv.memory replaced started
    refine ⟨ordered, ?_, ?_, ?_, inv.entered⟩
    · rintro main' ⟨⟩
      exact there
    · intro pid p running a points
      exact grows.isSome (inv.processes pid p running a points)
    · intro pid p running rd asked
      simpa using inv.pending_later grows [] running asked
  | refuse => exact inv
  | @fork pid main p cycle activated =>
    apply inv.replace
    rintro p' ⟨⟩ a points
    unfold MainConf.activate at activated
    split at activated
    · obtain rfl := Option.some.inj activated
      obtain ⟨zone, there, points⟩ := Option.bind_eq_some_iff.mp points
      exact inv.cycle main cycle zone there a points
    · cases activated
  | exit =>
    apply inv.replace
    intro p absent
    cases absent
  | @serve pid p e v fenced running visited shown sound separate =>
    refine inv.advance grows inv.memory e pid _ running (entered_visit inv.entered visited sound separate) ?_
    intro rd asked
    rcases List.mem_append.mp asked with new | old
    · refine .inr ⟨fenced, s.past, e, [], rfl, Option.mem_toList.mp new, ?_⟩
      rw [visited,← shown]
      rfl
    · exact .inl old
  | @settle pid p rd clock outcome memory running alone asked consumed =>
    obtain ⟨_, under⟩ := inv.pending pid p running rd asked
    exact inv.advance grows (consume_ordered inv.memory consumed) _ pid _ running (entered_settle inv.entered under outcome)
      fun rd' left => .inl (List.mem_of_mem_erase left)
  | @forward pid p store rd outcome running fleet asked =>
    obtain ⟨_, under⟩ := inv.pending pid p running rd asked
    exact inv.advance grows inv.memory _ pid _ running (entered_settle inv.entered under outcome)
      fun rd' left => .inl (List.mem_of_mem_erase left)

theorem Used.later (used : Used crates token s) (taken : Step crates s act t) : Used crates token t := by
  obtain ⟨rd, address, zone, same, under, found, spent⟩ := used
  obtain ⟨zone', found', identity, kept⟩ := step_grows taken address zone found
  have longer : ∃ more, t.past = s.past ++ more := by
    cases taken with
    | serve => exact ⟨_, rfl⟩
    | settle => exact ⟨_, rfl⟩
    | forward => exact ⟨_, rfl⟩
    | load => exact ⟨[], by simp⟩
    | refuse => exact ⟨[], by simp⟩
    | fork => exact ⟨[], by simp⟩
    | exit => exact ⟨[], by simp⟩
  obtain ⟨more, past⟩ := longer
  refine ⟨rd, address, zone', same, ?_, found', kept token rd.expires spent⟩
  rw [past,identity]
  exact under.later

/-- What a process without Redis settles began under the identity of the zone it settles it in. -/
theorem Inv.settles (inv : Inv crates s) {pid : Nat} (running : s.processes pid = some p) (alone : p.runtime = none)
    (asked : rd ∈ s.pending pid) (points : p.data = some address) (found : s.memory.states address = some zone) :
    Under s.past rd (some zone.issuer) := by
  obtain ⟨fenced, under⟩ := inv.pending pid p running rd asked
  have shown : p.issuer s.memory fenced = some zone.issuer := by simp [Process.issuer,alone,points,found]
  rwa [shown] at under

theorem clears_settle (cleared : clears token act = true) :
    ∃ pid rd, act = .settle pid rd .accepted ∧ rd.token = token := by
  unfold clears at cleared
  split at cleared
  · next pid rd => exact ⟨pid, rd, rfl, by simpa using cleared⟩
  · cases cleared

theorem clears_used (inv : Inv crates s) (taken : Step crates s act t) (cleared : clears token act = true) :
    Used crates token t := by
  obtain ⟨pid, rd, rfl, rfl⟩ := clears_settle cleared
  cases taken with
  | settle running alone asked consumed =>
    rcases consume_cases consumed with ⟨full, _⟩ | ⟨address, zone, points, found, accepted, rfl⟩
    · cases full
    · have under := inv.settles running alone asked points found
      refine ⟨rd, address, _, rfl, ?_, Function.update_self .., Zone.consume_spends accepted.symm⟩
      exact under.later

theorem used_blocks (inv : Inv crates s) (used : Used crates token s) (taken : Step crates s act t) :
    clears token act = false := by
  by_contra fires
  obtain ⟨pid, rd, rfl, rfl⟩ := clears_settle (Bool.not_eq_false _ ▸ fires)
  obtain ⟨first, address, zone, same, ⟨before, e, after, split, begins, shown⟩, found, spent⟩ := used
  cases taken with
  | settle running alone asked consumed =>
    rcases consume_cases consumed with ⟨full, _⟩ | ⟨address', zone', points, found', accepted, rfl⟩
    · cases full
    · obtain ⟨before', e', after', split', begins', shown'⟩ := inv.settles running alone asked points found'
      -- One token means one expiry and one identity, so one zone.
      obtain ⟨expires, stores⟩ := inv.entered.agree split split' begins begins' same
      rw [shown,shown'] at stores
      obtain rfl := inv.memory.apart _ _ _ _ found found' (Option.some.inj stores)
      obtain rfl := Option.some.inj (found.symm.trans found')
      rw [expires] at spent
      exact spent.blocks accepted.symm

end Steps

/-- However often nginx is reloaded, restarted or switched between backends, and whatever
processes of old and new cycles do at once, its zones release one clearance per token. -/
theorem one_use_across_cycles (crates : Crates) (acts : List Act) (final : State)
    (run : Runs.Run (Step crates) .boot acts final) (token : Bytes) : acts.countP (clears token) ≤ 1 :=
  run.at_most_once (Inv crates) (Used crates token) (clears token)
    (fun _ _ _ inv taken => step_inv inv taken)
    (fun _ _ _ inv taken cleared => clears_used inv taken cleared)
    (fun _ _ _ _ used taken => used.later taken)
    (fun _ _ _ inv used taken => used_blocks inv used taken) boot_inv

/-- The first configuration of the reference deployment, and one that reloads it. -/
def firstLoad : Load := ⟨none, true, 0, false, some 0, some (Vector.replicate 32 73)⟩
def reload : Load := ⟨none, true, 1, false, none, none⟩

def alone : Process := ⟨none, some ⟨0, some 0⟩⟩

/-- The states of a visit: loaded, a worker started, the client asked, and a worker of the next cycle started. -/
def loaded : State := { State.boot with
  memory := ⟨Function.update (fun _ => none) 0 (some (Zone.init (Vector.replicate 32 73))),
    Function.update (fun _ => none) 0 (some 0)⟩
  cycle := some ⟨none, some ⟨0, some 0⟩⟩ }

def started : State := { loaded with
  processes := Function.update loaded.processes 0 (some alone), pending := Function.update loaded.pending 0 [] }

def visited : State := { started with
  past := [.access (Reference.home.visit Reference.asking 1000)]
  pending := Function.update started.pending 0
    ((Event.access (Reference.home.visit Reference.asking 1000)).begins.toList ++ started.pending 0) }

def respawned : State := { visited with
  processes := Function.update visited.processes 1 (some alone), pending := Function.update visited.pending 1 [] }

theorem firstLoad_fresh : firstLoad.Fresh State.boot.memory :=
  ⟨fun _ _ => rfl, fun _ _ _ _ absent => by cases absent⟩

theorem reload_fresh (m : Memory) : reload.Fresh m := by
  refine ⟨?_, ?_⟩ <;> intro _ drawn <;> cases drawn

/-- nginx is reloaded between the visit and the start of another worker. -/
theorem reloaded_run : Runs.Run (Step Reference.crates) .boot [.load firstLoad false, .fork 0,
    .serve 0 (.access (Reference.home.visit Reference.asking 1000)), .load reload true, .fork 1] respawned := by
  have first : Step Reference.crates .boot (.load firstLoad false) loaded := .load firstLoad_fresh rfl
  have second : Step Reference.crates loaded (.fork 0) started := .fork rfl rfl
  have third : Step Reference.crates started (.serve 0 (.access (Reference.home.visit Reference.asking 1000))) visited := by
    apply @Step.serve Reference.crates started 0 alone _ _ false rfl rfl rfl Reference.home_genuine.asking_sound
    intro e member
    cases member
  have fourth : Step Reference.crates visited (.load reload true) visited := .load (reload_fresh _) rfl
  have fifth : Step Reference.crates visited (.fork 1) respawned := .fork rfl rfl
  exact .cons first (.cons second (.cons third (.cons fourth (.cons fifth .nil))))

/-- A client asks a worker, nginx is reloaded, and a worker of the new cycle lets the client pass. -/
theorem one_use_reloaded : ∃ acts final, Runs.Run (Step Reference.crates) .boot acts final ∧
    .settle 1 Reference.home.redemption .accepted ∈ acts ∧ .load reload true ∈ acts ∧
      ∀ token, acts.countP (clears token) ≤ 1 := by
  obtain ⟨zone, consumed⟩ : ∃ zone, (Zone.init (Vector.replicate 32 73)).consume Reference.crates
      Reference.home.redemption.token Reference.home.redemption.expires 1010 = (.accepted, zone) :=
    Zone.init_accepts _ (by decide) (by decide)
  have genuine := Reference.home_genuine
  let passed : Event := .access (Reference.home.visit Reference.home.passing 1010)
  let served : State := { respawned with
    past := respawned.past ++ [passed]
    pending := Function.update respawned.pending 1 (passed.begins.toList ++ respawned.pending 1) }
  have serve : Step Reference.crates respawned (.serve 1 passed) served := by
    refine @Step.serve Reference.crates respawned 1 alone _ _ false rfl rfl rfl genuine.passing_sound ?_
    intro e member v seen message found message' found' _
    rw [List.mem_singleton.mp member] at seen
    cases seen
    have left := Option.some.inj (found.symm.trans (genuine.found Reference.home.passing rfl))
    have right := Option.some.inj (found'.symm.trans (genuine.found Reference.asking rfl))
    rw [left,right]
  have asked : Reference.home.redemption ∈ served.pending 1 := by
    simp only [served,passed,Function.update_self,genuine.passing_begins]
    exact List.mem_cons_self
  have settle := @Step.settle Reference.crates served 1 alone _ 1010 _ _ rfl rfl asked (consume_eq rfl rfl)
  rw [consumed] at settle
  have run := reloaded_run.append (.cons serve (.cons settle .nil))
  exact ⟨_, _, run, by simp, by simp, fun token => one_use_across_cycles _ _ _ run token⟩

/-- Everything is on the zone at this address: the cycle and every process. -/
structure Shares (crates : Crates) (address : Nat) (zone : Zone) (s : State) : Prop where
  cycle : ∃ main, s.cycle = some main ∧ main.cluster = none ∧ main.redemptionZone.bind (·.data) = some address
  processes : ∀ pid, ∀ p ∈ s.processes pid, p.runtime = none ∧ p.data = some address
  zone : ∃ now, s.memory.states address = some now ∧ now.issuer = zone.issuer ∧
    ∀ token expires, zone.Spent crates token expires → now.Spent crates token expires

/-- A configuration is only ever replaced by the running master, and by one without Redis. -/
def Graceful : Act → Prop
  | .load ask inherits => inherits = true ∧ ask.cluster = none
  | _ => True

section Sharing

variable {crates : Crates} {s t : State} {act : Act} {address : Nat} {zone : Zone}

theorem configure_none (configured : configure none added = some main) : ∃ zone, main.redemptionZone = some zone := by
  obtain ⟨zone, _, rfl⟩ := Option.map_eq_some_iff.mp configured
  exact ⟨zone, rfl⟩

/-- A load without Redis that inherits a zone keeps it. -/
theorem start_inherits {ask : Load} (alone : ask.cluster = none) (inherited : old.bind (·.data) = some address)
    (started : ask.start m old = some (main, m')) :
    m' = m ∧ main.cluster = none ∧ main.redemptionZone.bind (·.data) = some address := by
  rcases start_cases started with ⟨absent, rfl⟩ | ⟨zone, present, rfl, bare, source⟩ | ⟨_, _, _, _, _, _, _, _, _, lost, _⟩
  · unfold Load.start at started
    rw [alone] at started
    obtain ⟨configured, asked, started⟩ := Option.bind_eq_some_iff.mp started
    obtain ⟨zone, wanted⟩ := configure_none asked
    rw [wanted] at started
    obtain ⟨_, _, started⟩ := Option.bind_eq_some_iff.mp started
    obtain ⟨rfl, _⟩ := Prod.mk.inj (Option.some.inj started)
    cases absent
  · refine ⟨rfl, bare, ?_⟩
    rw [present]
    rcases source with same | ⟨lost, _⟩
    · exact same.symm.trans inherited
    · rw [lost] at inherited
      cases inherited
  · rw [lost] at inherited
    cases inherited

theorem Shares.step (shares : Shares crates address zone s) (graceful : Graceful act) (taken : Step crates s act t) :
    Shares crates address zone t := by
  have held : ∃ now, t.memory.states address = some now ∧ now.issuer = zone.issuer ∧
      ∀ token expires, zone.Spent crates token expires → now.Spent crates token expires := by
    obtain ⟨now, found, identity, spent⟩ := shares.zone
    obtain ⟨later, found', identity', spent'⟩ := step_grows taken address now found
    exact ⟨later, found', identity'.trans identity, fun token expires before => spent' _ _ (spent _ _ before)⟩
  cases taken with
  | load fresh started =>
    obtain ⟨rfl, alone⟩ := graceful
    obtain ⟨main, current, _, points⟩ := shares.cycle
    have inherited : (s.replaced true).bind (·.data) = some address := by simpa [State.replaced,current] using points
    obtain ⟨_, bare, points'⟩ := start_inherits alone inherited started
    exact ⟨⟨_, rfl, bare, points'⟩, shares.processes, held⟩
  | refuse => exact shares
  | @fork pid main p cycle activated =>
    refine ⟨shares.cycle, ?_, held⟩
    intro other q running
    by_cases here : other = pid
    · subst here
      simp only [Function.update_self] at running
      obtain ⟨main', current, bare, points⟩ := shares.cycle
      obtain rfl := Option.some.inj (current.symm.trans cycle)
      unfold MainConf.activate at activated
      split at activated
      · obtain rfl := Option.some.inj activated
        obtain rfl := Option.some.inj running
        exact ⟨bare, points⟩
      · cases activated
    · exact shares.processes other q ((Function.update_of_ne here ..).symm.trans running)
  | @exit pid =>
    refine ⟨shares.cycle, ?_, held⟩
    intro other q running
    by_cases here : other = pid
    · subst here
      simp at running
    · exact shares.processes other q ((Function.update_of_ne here ..).symm.trans running)
  | serve => exact ⟨shares.cycle, shares.processes, held⟩
  | settle => exact ⟨shares.cycle, shares.processes, held⟩
  | forward => exact ⟨shares.cycle, shares.processes, held⟩

end Sharing

/-- Through any number of graceful reloads, refused configurations, respawned and draining
workers, every worker shows one store identity, and none accepts what was spent at the start. -/
theorem reloads_keep_store (crates : Crates) (s final : State) (address : Nat) (zone : Zone) (acts : List Act)
    (shares : Shares crates address zone s) (run : Runs.Run (Step crates) s acts final)
    (graceful : ∀ act ∈ acts, Graceful act) (pid : Nat) (p : Process) (running : final.processes pid = some p) :
    (∀ fenced, p.issuer final.memory fenced = some zone.issuer) ∧
      ∀ token expires clock, zone.Spent crates token expires →
        (p.consume crates final.memory token expires clock).1 ≠ .accepted := by
  have shared := run.invariant_of (Shares crates address zone) Graceful
    (fun _ _ _ shares graceful taken => shares.step graceful taken) graceful shares
  obtain ⟨alone, points⟩ := shared.processes pid p running
  obtain ⟨now, found', identity, kept⟩ := shared.zone
  refine ⟨?_, ?_⟩
  · intro fenced
    simp [Process.issuer,alone,points,found',identity]
  · intro token expires clock spent accepted
    rw [consume_eq points found'] at accepted
    exact (kept token expires spent).blocks accepted

/-- The reference deployment after a client has passed, and after a reload and a new worker. -/
def spentZone : Zone :=
  ((Zone.init (Vector.replicate 32 73)).consume Reference.crates Reference.home.redemption.token
    Reference.home.redemption.expires 1010).2

def passedBy : State := { loaded with memory := ⟨Function.update (fun _ => none) 0 (some spentZone), fun _ => none⟩ }

theorem reloads_keep_store_spent : ∃ final p, Runs.Run (Step Reference.crates) passedBy [.load reload true, .fork 7] final ∧
    final.processes 7 = some p ∧ (∀ fenced, p.issuer final.memory fenced = some (Vector.replicate 32 73)) ∧
      (p.consume Reference.crates final.memory Reference.home.redemption.token Reference.home.redemption.expires 1011).1 ≠
        .accepted := by
  let final : State := { passedBy with
    processes := Function.update passedBy.processes 7 (some alone), pending := Function.update passedBy.pending 7 [] }
  have first : Step Reference.crates passedBy (.load reload true) passedBy := .load (reload_fresh _) rfl
  have second : Step Reference.crates passedBy (.fork 7) final := .fork rfl rfl
  have run := Runs.Run.cons first (.cons second .nil)
  have shares : Shares Reference.crates 0 spentZone passedBy := by
    refine ⟨⟨_, rfl, rfl, rfl⟩, ?_, spentZone, rfl, rfl, fun _ _ spent => spent⟩
    intro pid p running
    cases running
  have graceful : ∀ act ∈ [.load reload true, .fork 7], Graceful act := by simp [Graceful,reload]
  obtain ⟨zone, consumed⟩ : ∃ zone, (Zone.init (Vector.replicate 32 73)).consume Reference.crates
      Reference.home.redemption.token Reference.home.redemption.expires 1010 = (.accepted, zone) :=
    Zone.init_accepts _ (by decide) (by decide)
  have spent := Zone.consume_spends (congrArg Prod.fst consumed)
  have kept := reloads_keep_store Reference.crates passedBy final 0 spentZone _ shares run graceful 7 alone rfl
  exact ⟨final, alone, run, rfl, kept.1, kept.2 _ _ 1011 spent⟩

end PowGate.Cycles
