import PowGate.ClusterLinks
import PowGate.Presented

/-! Workers on any number of machines that share one Redis primary. Requests, worker steps,
script runs, deliveries and epoch rotations interleave freely; a script may run long after its
job is gone, and what is never delivered is lost. Local clocks are arbitrary, Redis' own clock
does not go back. -/
namespace PowGate.Fleet

open Cluster (Id Config Wire)

/-- One run of `CONSUME`, with the epoch that was stored when it ran. -/
structure Ran where
  worker : Nat
  job : Id
  space : Bytes
  args : Redis.Args
  stored : Option Bytes
  reply : Int

structure State where
  /-- The requests made anywhere, and the answers to the redemptions among them. -/
  past : List Event
  workers : Nat → Cluster.State
  wires : Nat → Id → Wire
  /-- What the primary holds in each namespace. -/
  primary : Bytes → Redis.Primary
  /-- `TIME` of the primary. -/
  time : Int
  ran : List Ran

/-- Nothing is provisioned and every worker has just started. -/
def start (msec : Nat → UInt64) (time : Int) : State where
  past := []
  workers w := Cluster.activate (msec w)
  wires _ _ := .closed
  primary _ := ⟨none, none, fun _ => none⟩
  time := time
  ran := []

/-- The redemption that request `n` asked for, if a worker with this identity handled it. -/
def owner (past : List Event) (issuer : Digest) (n : Nat) : Option Redemption :=
  past[n]?.bind fun e => if e.visit.bind (·.w.issuer) = some issuer then e.begins else none

/-- The answers to clients among the notes of a worker. -/
def settlements (past : List Event) (issuer : Digest) (notes : List Cluster.Note) : List Event :=
  notes.filterMap fun
    | .finished _ n outcome _ => (owner past issuer n).map (.settle · outcome)
    | _ => none

def State.setWire (s : State) (w : Nat) (id : Id) (wire : Wire) : State :=
  { s with wires := Function.update s.wires w (Function.update (s.wires w) id wire) }

def State.setPrimary (s : State) (space : Bytes) (primary : Redis.Primary) : State :=
  { s with primary := Function.update s.primary space primary }

variable (crates : Crates) (configs : Nat → Config)

/-- Worker `w` gets to `next`, and what it answered meanwhile has happened. -/
def State.advance (s : State) (w : Nat) (next : Cluster.State) : State :=
  { s with
    workers := Function.update s.workers w next
    past := s.past ++ settlements s.past (configs w).issuer (next.log.drop (s.workers w).log.length) }

/-- Worker `w` handles a request: its handlers read the state of its own Redis client, and HMAC
holds as far as this request goes. -/
structure Enters (s : State) (w : Nat) (e : Event) (v : Visit) : Prop where
  visit : e.visit = some v
  enabled : v.w.clusterEnabled = true
  issuer : v.w.issuer = Cluster.issuer (configs w) (s.workers w)
  available : v.w.clusterAvailable = Cluster.available (s.workers w)
  sound : Sound crates s.past e
  apart : Apart crates s.past v

inductive Act where
  | visit (w : Nat) (e : Event)
  | redeem (w : Nat) (e : Event) (memory : Bool) (clock : Int64)
  | act (w : Nat) (action : Cluster.Action)
  | dial (w : Nat)
  | hear (w : Nat) (job : Id) (count : Nat) (clock : Int64)
  | run (w : Nat) (job : Id)
  | reject (w : Nat) (job : Id) (welcomed : Bool) (rest : Bytes)
  | provision (space : Bytes) (expected : Option Bytes) (fresh : Bytes)
  | tick (time : Int)
  | linger (space marker : Bytes) (deadline : Int)

/-- One step of the fleet. -/
inductive Step (s : State) : Act → State → Prop where
  /-- A request that asks for no redemption. -/
  | visit (enters : Enters crates configs s w e v) (idle : e.begins = none) :
    Step s (.visit w e) { s with past := s.past ++ [e] }
  /-- A request that ends in `cluster::redeem`. -/
  | redeem (enters : Enters crates configs s w e v) (begins : e.begins = some rd)
    (taken : Cluster.Step crates (configs w) (s.workers w)
      (.redeem s.past.length rd.token rd.expires rd.prepared memory clock) next) :
    Step s (.redeem w e memory clock) ({ s with past := s.past ++ [e] }.advance configs w next)
  /-- Timers, aborts, failures, health polls and returns. -/
  | act (quiet : action.quiet = true) (taken : Cluster.Step crates (configs w) (s.workers w) action next) :
    Step s (.act w action) (s.advance configs w next)
  /-- A connection is established and the script of its job is on the way. -/
  | dial {id : Id} (top : (s.workers w).stack = .connecting id :: rest) (alive : (s.workers w).jobs id = some job)
    (taken : Cluster.Step crates (configs w) (s.workers w) (.connect true) next) :
    Step s (.dial w) ((s.advance configs w next).setWire w id ⟨some job.output, none, 0⟩)
  /-- The next bytes of an answer are delivered. -/
  | hear {id : Id} (some_ : (s.wires w id).chunk (configs w).auth count ≠ [])
    (taken : Cluster.Step crates (configs w) (s.workers w)
      (.read id (.data ((s.wires w id).chunk (configs w).auth count)) clock) next) :
    Step s (.hear w id count clock) ((s.advance configs w next).setWire w id ((s.wires w id).hear count))
  /-- Redis runs `CONSUME`, at most once for each time it was sent, at a reading `tostring` keeps. -/
  | run {id : Id} (sent : (s.wires w id).output = some (.consume args)) (waiting : (s.wires w id).answer = none)
    (evaluated : Redis.consume Redis.unrounded (s.primary (configs w).space) args s.time = (reply, primary)) :
    Step s (.run w id) { ((s.setPrimary (configs w).space primary).setWire w id
        { s.wires w id with answer := some (.integer reply) }) with
      ran := s.ran ++ [⟨w, id, (configs w).space, args, (s.primary (configs w).space).epoch, reply⟩] }
  /-- Redis runs `HEALTH`. -/
  | check {id : Id} (sent : (s.wires w id).output = some (.health epoch)) (waiting : (s.wires w id).answer = none) :
    Step s (.run w id) (s.setWire w id
      { s.wires w id with answer := some (.integer (Redis.health (s.primary (configs w).space) epoch)) })
  /-- Redis answers with an error instead of running the script. -/
  | reject {id : Id} (sent : (s.wires w id).output ≠ none) (waiting : (s.wires w id).answer = none) :
    Step s (.reject w id welcomed rest) (s.setWire w id { s.wires w id with answer := some (.error welcomed rest) })
  /-- `redis-epoch.py`. -/
  | provision : Step s (.provision space expected fresh)
      (s.setPrimary space (Redis.provision (s.primary space) expected fresh s.time).2)
  | tick (later : s.time ≤ time) : Step s (.tick time) { s with time }
  /-- A key set with `EX n` lives at least `n` seconds. -/
  | linger (marked : (s.primary space).spent marker = some deadline) (later : deadline ≤ deadline') :
    Step s (.linger space marker deadline') (s.setPrimary space ((s.primary space).setMarker marker deadline'))

end PowGate.Fleet
