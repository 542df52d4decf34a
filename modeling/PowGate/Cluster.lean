import Mathlib.Logic.Function.Basic
import PowGate.Engine
import PowGate.RedisScript
import PowGate.Resp

/-! The Redis jobs of one worker. `complete` frees a job, pumps the queue and finishes a
request, and each of these can enter the handlers again, so the call stack is part of the
state: a step is what runs between two points where control can be entered. -/
namespace PowGate.Cluster

open Text

/-- `Config`, with what validation guarantees. -/
@[ext] structure Config where
  space : Bytes
  epoch : Bytes
  issuer : Digest
  /-- A password is configured, so `AUTH` goes first. -/
  auth : Bool
  connections : Nat
  queue : Nat
  skew : Int64
  space_plain : ∀ c ∈ space, isDigit c ∨ (65 ≤ c ∧ c ≤ 90) ∨ (97 ≤ c ∧ c ≤ 122) ∨ c = 95 ∨ c = 45
  connections_range : 1 ≤ connections ∧ connections ≤ 32
  queue_range : queue ≤ 1024
  skew_range : 1 ≤ skew ∧ skew ≤ 60

/-- The text whose digest is the issuer. -/
def Config.identity (config : Config) : Bytes := ascii "redis:" ++ config.space ++ 58 :: config.epoch

/-- The address of a job. Addresses are never reused here. -/
abbrev Id := Nat

/-- The script a job sends. -/
inductive Script where
  | health (epoch : Bytes)
  | consume (args : Redis.Args)

structure Job where
  /-- A connection is open. -/
  connection : Bool
  output : Script
  input : Bytes
  auth : Bool
  /-- The deadline timer is set. -/
  deadline : Bool
  request : Option Nat
  /-- The cleanup handler of the request points here. -/
  cleanup : Bool
  grant : Option Prepared
  expires : Int64
  health : Bool

/-- A call that has not returned. -/
inductive Frame where
  /-- `connect`, from `redeem`, from `poll` or from the pump loop. -/
  | connecting (job : Id)
  /-- `complete` in its pump loop, with what is left to do after it. -/
  | pumping (job : Id) (request : Option Nat) (grant : Option Prepared) (outcome : Ledger.Outcome)
  /-- `redemption::finish`, called by `complete` for a job or by `redeem` to refuse. -/
  | finishing (job : Option Id)

/-- Why a job was completed: a reply, and what the wall clock showed then, or no reply. -/
inductive Cause where
  | reply (found : Resp.Reply) (clock : Int64)
  | failure
  | aborted
  deriving DecidableEq

/-- What happened, for the record only: no handler reads it. -/
inductive Note where
  | admitted (job : Id) (request : Nat)
  | completed (job : Id) (health : Bool) (cause : Cause) (msec : UInt64)
  | finished (job : Option Id) (request : Nat) (outcome : Ledger.Outcome) (grant : Prepared)

/-- `Runtime`, the allocated jobs, the call stack and `ngx_current_msec`. -/
structure State where
  pending : List Id
  active : List Id
  healthBusy : Bool
  pumping : Bool
  ready : Bool
  fenced : Bool
  lastOk : UInt64
  jobs : Id → Option Job
  fresh : Id
  stack : List Frame
  msec : UInt64
  log : List Note

/-- `activate`. -/
def activate (msec : UInt64) : State where
  pending := []
  active := []
  healthBusy := false
  pumping := false
  ready := false
  fenced := false
  lastOk := 0
  jobs _ := none
  fresh := 0
  stack := []
  msec := msec
  log := []

variable (crates : Crates) (config : Config)

def issuer (s : State) : Option Digest := if s.fenced then none else some config.issuer

def available (s : State) : Bool := s.ready && !s.fenced && s.msec - s.lastOk < 2500

/-- `make_job` for a token, when the wall clock shows `clock`. -/
def makeJob (request : Nat) (grant : Prepared) (token : Bytes) (expires clock : Int64) : Job where
  connection := false
  output := .consume ⟨config.epoch, (Redis.keys crates config.space config.epoch token).2.1, expires.toInt,
    config.skew.toInt, clock.toInt⟩
  input := []
  auth := config.auth
  deadline := false
  request := some request
  cleanup := false
  grant := some grant
  expires := expires
  health := false

def makeHealth : Job where
  connection := false
  output := .health config.epoch
  input := []
  auth := config.auth
  deadline := false
  request := none
  cleanup := false
  grant := none
  expires := 0
  health := true

/-- `redemption::finish` is called for a job, unless its request is gone. -/
def finishJob (s : State) (id : Id) (request : Option Nat) (grant : Option Prepared) (outcome : Ledger.Outcome) :
    State :=
  match request, grant with
  | some request, some grant =>
    { s with
      stack := .finishing (some id) :: s.stack
      log := s.log ++ [.finished (some id) request outcome grant] }
  | _, _ => s

def fence (s : State) (fenced : Bool) : State :=
  if fenced then { s with fenced := true, ready := false } else s

/-- The part of `complete` for a health check. -/
def settleHealth (s : State) (outcome : Ledger.Outcome) : State :=
  let ready := outcome = .accepted && !s.fenced
  { s with healthBusy := false, ready, lastOk := if ready then s.msec else s.lastOk }

/-- The two `retain` calls. -/
def detach (s : State) (id : Id) : State :=
  { s with active := s.active.filter (· ≠ id), pending := s.pending.filter (· ≠ id) }

/-- A late successful reply cannot mint an already expired token. -/
def late (job : Job) (outcome : Ledger.Outcome) (clock : Int64) : Ledger.Outcome :=
  if job.health = false ∧ outcome = .accepted ∧ job.expires ≤ clock then .expired else outcome

/-- `complete` until the job is freed. -/
def release (s : State) (id : Id) (job : Job) (outcome : Ledger.Outcome) (fenced : Bool) (cause : Cause) : State :=
  let s := fence s fenced
  let s := if job.health then settleHealth s outcome else detach s id
  { s with
    jobs := Function.update s.jobs id none
    log := s.log ++ [.completed id job.health cause s.msec] }

/-- `complete` up to its pump loop, or to its end when the loop already runs further down. -/
def complete (s : State) (id : Id) (job : Job) (outcome : Ledger.Outcome) (fenced : Bool) (clock : Int64)
    (cause : Cause) : State :=
  let s := release s id job outcome fenced cause
  if s.pumping then finishJob s id job.request job.grant (late job outcome clock)
  else
    { s with
      pumping := true
      stack := .pumping id job.request job.grant (late job outcome clock) :: s.stack }

/-- `complete(job, Outcome::Full, false)`. -/
def fail (s : State) (id : Id) (job : Job) (cause : Cause) : State := complete s id job .full false 0 cause

def refuse (s : State) (request : Nat) (grant : Prepared) : State :=
  { s with
    stack := .finishing none :: s.stack
    log := s.log ++ [.finished none request .full grant] }

/-- `memory` tells whether `ngx_http_cleanup_add` succeeded. -/
def redeem (s : State) (request : Nat) (token : Bytes) (expires : Int64) (grant : Prepared) (memory : Bool)
    (clock : Int64) : State :=
  if available s = false then refuse s request grant
  else if config.connections ≤ s.active.length ∧ config.queue ≤ s.pending.length then refuse s request grant
  else if memory = false then refuse s request grant
  else
    let id := s.fresh
    let job := { makeJob crates config request grant token expires clock with cleanup := true, deadline := true }
    let s := { s with
      jobs := Function.update s.jobs id (some job)
      fresh := id + 1
      log := s.log ++ [Note.admitted id request] }
    if s.active.length < config.connections then
      { s with active := s.active ++ [id], stack := .connecting id :: s.stack }
    else { s with pending := s.pending ++ [id] }

def poll (s : State) : State :=
  if s.healthBusy = false ∧ s.fenced = false then
    { s with
      healthBusy := true
      jobs := Function.update s.jobs s.fresh (some (makeHealth config))
      fresh := s.fresh + 1
      stack := .connecting s.fresh :: s.stack }
  else s

/-- The end of `connect`, with the result of `ngx_event_connect_peer`. -/
def connect (s : State) (id : Id) (job : Job) (connected : Bool) : State :=
  let job := { job with deadline := job.deadline || job.health }
  if connected then { s with jobs := Function.update s.jobs id (some { job with connection := true }) }
  else fail s id job .failure

/-- One turn of the pump loop of the `complete` on top of the stack. -/
def pump (s : State) (rest : List Frame) (id : Id) (request : Option Nat) (grant : Option Prepared)
    (outcome : Ledger.Outcome) : State :=
  match s.pending with
  | next :: more =>
    if s.active.length < config.connections then
      { s with pending := more, active := s.active ++ [next], stack := .connecting next :: s.stack }
    else finishJob { s with pumping := false, stack := rest } id request grant outcome
  | [] => finishJob { s with pumping := false, stack := rest } id request grant outcome

/-- What `recv` returned. -/
inductive Recv where
  /-- `NGX_AGAIN`; the flag is the success of `ngx_handle_read_event`. -/
  | again (rearmed : Bool)
  /-- The bytes read, none on an error or the end of the stream. -/
  | data (chunk : Bytes)

/-- One `recv` in the loop of `read`. -/
def read (s : State) (id : Id) (job : Job) (recv : Recv) (clock : Int64) : State :=
  match recv with
  | .again true => s
  | .again false => fail s id job .failure
  | .data [] => fail s id job .failure
  | .data chunk => match Resp.receive job.auth job.input chunk with
    | .more auth input => { s with jobs := Function.update s.jobs id (some { job with auth, input }) }
    | .replied found => complete s id job (Resp.judge found).1 (Resp.judge found).2 clock (.reply found clock)
    | .failed => fail s id job .failure

/-- What nginx can do next: enter a handler, or go on with the call on top of the stack. -/
inductive Action where
  | redeem (request : Nat) (token : Bytes) (expires : Int64) (grant : Prepared) (memory : Bool) (clock : Int64)
  | poll
  | write (job : Id) (ok : Bool)
  | read (job : Id) (recv : Recv) (clock : Int64)
  | deadline (job : Id)
  | aborted (job : Id)
  | tick (msec : UInt64)
  | connect (connected : Bool)
  | pump
  | leave

/-- Handlers are entered from the event loop or from inside `redemption::finish`. -/
def State.open (s : State) : Bool :=
  match s.stack with
  | [] => true
  | .finishing _ :: _ => true
  | _ => false

/-- A handler is entered only while what triggers it is armed. -/
def next (s : State) : Action → Option State
  | .redeem request token expires grant memory clock =>
    if s.open then some (redeem crates config s request token expires grant memory clock) else none
  | .poll => if s.open then some (poll config s) else none
  | .write id ok =>
    match s.jobs id with
    | some job =>
      if s.open && job.connection then some (if ok then s else fail s id job .failure) else none
    | none => none
  | .read id recv clock =>
    match s.jobs id with
    | some job => if s.open && job.connection then some (read s id job recv clock) else none
    | none => none
  | .deadline id =>
    match s.jobs id with
    | some job =>
      if s.open && job.deadline then some (fail s id { job with deadline := false } .failure) else none
    | none => none
  | .aborted id =>
    match s.jobs id with
    | some job =>
      if s.open && job.cleanup then some (fail s id { job with request := none, cleanup := false } .aborted)
      else none
    | none => none
  | .tick msec => if s.open && s.msec ≤ msec then some { s with msec } else none
  | .connect connected =>
    match s.stack with
    | .connecting id :: rest =>
      (s.jobs id).map fun job => connect { s with stack := rest } id job connected
    | _ => none
  | .pump =>
    match s.stack with
    | .pumping id request grant outcome :: rest => some (pump config s rest id request grant outcome)
    | _ => none
  | .leave =>
    match s.stack with
    | .finishing _ :: rest => some { s with stack := rest }
    | _ => none

/-- One step of the worker. -/
def Step (s : State) (action : Action) (t : State) : Prop := next crates config s action = some t

/-- An admitted redemption in the books, before it is dialled or queued. -/
def enrol (s : State) (request : Nat) (token : Bytes) (expires : Int64) (grant : Prepared) (clock : Int64) : State :=
  { s with
    jobs := Function.update s.jobs s.fresh
      (some { makeJob crates config request grant token expires clock with cleanup := true, deadline := true })
    fresh := s.fresh + 1
    log := s.log ++ [.admitted s.fresh request] }

/-- A redemption is refused, dialled at once or queued. -/
theorem redeem_cases (s : State) (request : Nat) (token : Bytes) (expires : Int64) (grant : Prepared) (memory : Bool)
    (clock : Int64) :
    redeem crates config s request token expires grant memory clock = refuse s request grant ∨
    (s.active.length < config.connections ∧ redeem crates config s request token expires grant memory clock =
      { enrol crates config s request token expires grant clock with
        active := s.active ++ [s.fresh], stack := .connecting s.fresh :: s.stack }) ∨
    (config.connections ≤ s.active.length ∧ s.pending.length < config.queue ∧
      redeem crates config s request token expires grant memory clock =
      { enrol crates config s request token expires grant clock with pending := s.pending ++ [s.fresh] }) := by
  unfold redeem
  split
  · exact .inl rfl
  split
  · exact .inl rfl
  next room =>
  split
  · exact .inl rfl
  simp only
  split
  · next spare => exact .inr (.inl ⟨spare, rfl⟩)
  · next busy => exact .inr (.inr ⟨by omega, by omega, rfl⟩)

/-- A pump loop dials the next job or comes to its end. -/
theorem pump_cases (s : State) (rest : List Frame) (id : Id) (request : Option Nat) (grant : Option Prepared)
    (outcome : Ledger.Outcome) :
    (∃ first more, s.pending = first :: more ∧ s.active.length < config.connections ∧
      pump config s rest id request grant outcome =
        { s with pending := more, active := s.active ++ [first], stack := .connecting first :: s.stack }) ∨
    ((s.pending ≠ [] → config.connections ≤ s.active.length) ∧
      pump config s rest id request grant outcome =
        finishJob { s with pumping := false, stack := rest } id request grant outcome) := by
  unfold pump
  split
  · next first more queued =>
    split
    · next spare => exact .inl ⟨first, more, queued, spare, rfl⟩
    · next busy => exact .inr ⟨fun _ => Nat.not_lt.mp busy, rfl⟩
  · next empty => exact .inr ⟨fun waiting => absurd empty waiting, rfl⟩

/-- Everything one `recv` can do. -/
inductive ReadEffect (s : State) (id : Id) (job : Job) (clock : Int64) : Recv → State → Prop where
  | idle : ReadEffect s id job clock (.again true) s
  | failed : ReadEffect s id job clock recv (fail s id job .failure)
  | more (nonempty : chunk ≠ []) (received : Resp.receive job.auth job.input chunk = .more auth input) :
    ReadEffect s id job clock (.data chunk)
      { s with jobs := Function.update s.jobs id (some { job with auth, input }) }
  | replied (nonempty : chunk ≠ []) (received : Resp.receive job.auth job.input chunk = .replied found) :
    ReadEffect s id job clock (.data chunk)
      (complete s id job (Resp.judge found).1 (Resp.judge found).2 clock (.reply found clock))

theorem read_effect {id : Id} {recv : Recv} (done : read s id job recv clock = t) : ReadEffect s id job clock recv t := by
  subst done
  unfold read
  split
  · exact .idle
  · exact .failed
  · exact .failed
  · next nonempty =>
    split
    · next received => exact .more nonempty received
    · next received => exact .replied nonempty received
    · exact .failed

/-- Everything a step can do. -/
inductive Effect (s : State) : Action → State → Prop where
  | redeem (opened : s.open = true) :
    Effect s (.redeem request token expires grant memory clock)
      (redeem crates config s request token expires grant memory clock)
  | poll (opened : s.open = true) : Effect s .poll (poll config s)
  | sent {id : Id} (opened : s.open = true) (alive : s.jobs id = some job) : Effect s (.write id true) s
  | unsent {id : Id} (opened : s.open = true) (alive : s.jobs id = some job) :
    Effect s (.write id false) (fail s id job .failure)
  | read {id : Id} (opened : s.open = true) (alive : s.jobs id = some job) (connected : job.connection = true) :
    Effect s (.read id recv clock) (read s id job recv clock)
  | deadline {id : Id} (opened : s.open = true) (alive : s.jobs id = some job) :
    Effect s (.deadline id) (fail s id { job with deadline := false } .failure)
  | aborted {id : Id} (opened : s.open = true) (alive : s.jobs id = some job) :
    Effect s (.aborted id) (fail s id { job with request := none, cleanup := false } .aborted)
  | tick (opened : s.open = true) (later : s.msec ≤ msec) : Effect s (.tick msec) { s with msec }
  | connect {id : Id} (top : s.stack = .connecting id :: rest) (alive : s.jobs id = some job) :
    Effect s (.connect connected) (connect { s with stack := rest } id job connected)
  | pump {id : Id} (top : s.stack = .pumping id request grant outcome :: rest) :
    Effect s .pump (pump config s rest id request grant outcome)
  | leave (top : s.stack = .finishing job :: rest) : Effect s .leave { s with stack := rest }

variable {crates config}

theorem step_effect (taken : Step crates config s action t) : Effect crates config s action t := by
  unfold Step next at taken
  cases action with
  | redeem request token expires grant memory clock =>
    simp only [Option.ite_none_right_eq_some,Option.some.injEq] at taken
    obtain ⟨opened, rfl⟩ := taken
    exact .redeem opened
  | poll =>
    simp only [Option.ite_none_right_eq_some,Option.some.injEq] at taken
    obtain ⟨opened, rfl⟩ := taken
    exact .poll opened
  | write id ok =>
    simp only at taken
    split at taken
    · next job alive =>
      simp only [Option.ite_none_right_eq_some,Option.some.injEq,Bool.and_eq_true] at taken
      obtain ⟨⟨opened, _⟩, rfl⟩ := taken
      cases ok with
      | true => exact .sent opened alive
      | false => exact .unsent opened alive
    · cases taken
  | read id recv clock =>
    simp only at taken
    split at taken
    · next job alive =>
      simp only [Option.ite_none_right_eq_some,Option.some.injEq,Bool.and_eq_true] at taken
      obtain ⟨⟨opened, connected⟩, rfl⟩ := taken
      exact .read opened alive connected
    · cases taken
  | deadline id =>
    simp only at taken
    split at taken
    · next job alive =>
      simp only [Option.ite_none_right_eq_some,Option.some.injEq,Bool.and_eq_true] at taken
      obtain ⟨⟨opened, _⟩, rfl⟩ := taken
      exact .deadline opened alive
    · cases taken
  | aborted id =>
    simp only at taken
    split at taken
    · next job alive =>
      simp only [Option.ite_none_right_eq_some,Option.some.injEq,Bool.and_eq_true] at taken
      obtain ⟨⟨opened, _⟩, rfl⟩ := taken
      exact .aborted opened alive
    · cases taken
  | tick msec =>
    simp only [Option.ite_none_right_eq_some,Option.some.injEq,Bool.and_eq_true,decide_eq_true_eq] at taken
    obtain ⟨⟨opened, later⟩, rfl⟩ := taken
    exact .tick opened later
  | connect connected =>
    simp only at taken
    split at taken
    · next id rest top =>
      obtain ⟨job, alive, rfl⟩ := Option.map_eq_some_iff.mp taken
      exact .connect top alive
    · cases taken
  | pump =>
    simp only at taken
    split at taken
    · next top =>
      obtain rfl := Option.some.inj taken
      exact .pump top
    · cases taken
  | leave =>
    simp only at taken
    split at taken
    · next top =>
      obtain rfl := Option.some.inj taken
      exact .leave top
    · cases taken

end PowGate.Cluster
