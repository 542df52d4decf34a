import PowGate.FleetSafety

/-! A fleet in good health does answer: a worker that is not busy passes its health check, and a
redemption in time is answered with its clearance. -/
namespace PowGate.Cluster

/-- The worker waits for events and no redemption is in progress. -/
structure Resting (s : State) : Prop where
  stack : s.stack = []
  pumping : s.pumping = false
  active : s.active = []
  pending : s.pending = []

section Forward

variable {crates : Crates} {config : Config} {s : State} {id : Id} {job : Job}

/-- A worker that can redeem binds its clients to its own store. -/
theorem available_issuer (config : Config) (ready : available s = true) : issuer config s = some config.issuer := by
  simp only [available,Bool.and_eq_true,Bool.not_eq_true'] at ready
  simp [issuer,ready.1.2]

/-- The state in which a job's connection is about to be opened. -/
structure Opening (config : Config) (s : State) (id : Id) (job : Job) : Prop where
  stack : s.stack = [.connecting id]
  pumping : s.pumping = false
  pending : s.pending = []
  alive : s.jobs id = some job
  auth : job.auth = config.auth
  input : job.input = []

theorem redeem_opens (crates : Crates) (config : Config) (resting : Resting s) (ready : available s = true) :
    ∃ t, Step crates config s (.redeem n token expires grant true clock) t ∧
      Opening config t s.fresh
        { makeJob crates config n grant token expires clock with cleanup := true, deadline := true } ∧
      t.log = s.log ++ [.admitted s.fresh n] := by
  have room : s.active.length < config.connections := by
    rw [resting.active]
    exact config.connections_range.1
  have entered : State.open s = true := by simp [State.open,resting.stack]
  refine ⟨redeem crates config s n token expires grant true clock, by simp [Step,next,entered], ?_⟩
  unfold redeem
  rw [if_neg (by simp [ready]),if_neg (by omega),if_neg (by simp)]
  simp only
  rw [if_pos room]
  exact ⟨⟨by simp [resting.stack], resting.pumping, resting.pending, Function.update_self _ _ _, rfl, rfl⟩, rfl⟩

theorem poll_opens (crates : Crates) (config : Config) (resting : Resting s) (idle : s.healthBusy = false) (free : s.fenced = false) :
    ∃ t, Step crates config s .poll t ∧ Opening config t s.fresh (makeHealth config) ∧ t.log = s.log ∧
      t.fenced = false ∧ t.active = [] ∧ t.msec = s.msec := by
  have entered : State.open s = true := by simp [State.open,resting.stack]
  refine ⟨poll config s, by simp [Step,next,entered], ?_⟩
  unfold poll
  rw [if_pos ⟨idle, free⟩]
  exact ⟨⟨by simp [resting.stack], resting.pumping, resting.pending, Function.update_self _ _ _, rfl, rfl⟩, rfl, free,
    resting.active, rfl⟩

/-- The reply 1, greeting included, is read in one piece. -/
theorem receive_one (auth : Bool) :
    Resp.receive auth [] ((Answer.integer 1).bytes auth) = .replied (.integer 1) := by
  cases auth <;> decide +kernel

/-- A connection is opened, the reply 1 is read and the job is done with. -/
theorem opening_exchange (crates : Crates) (opening : Opening config s id job) (clock : Int64) :
    ∃ t u, Step crates config s (.connect true) t ∧ t.log = s.log ∧
      Step crates config t (.read id (.data ((Answer.integer 1).bytes config.auth)) clock) u ∧
      u.log = s.log ++ [.completed id job.health (.reply (.integer 1) clock) s.msec] ∧
      ∃ done, done.stack = [] ∧ done.pumping = false ∧ done.pending = [] ∧ done.log = u.log ∧
        done.active = (if job.health then s.active else s.active.filter (· ≠ id)) ∧
        (job.health = true → s.fenced = false → available done = true) ∧
        Step crates config u .pump (finishJob done id job.request job.grant (late job .accepted clock)) := by
  let wired : Job := { job with deadline := job.deadline || job.health, connection := true }
  let t : State := { s with stack := [], jobs := Function.update s.jobs id (some wired) }
  let cause : Cause := .reply (.integer 1) clock
  let released : State := release t id wired .accepted false cause
  let u : State := { released with
    pumping := true
    stack := [.pumping id job.request job.grant (late job .accepted clock)] }
  have dialed : Step crates config s (.connect true) t := by
    simp [Step,next,opening.stack,opening.alive,connect,t,wired]
  have some_ : (Answer.integer 1).bytes config.auth ≠ [] := by
    cases config.auth <;> decide +kernel
  have replied : Resp.receive wired.auth wired.input ((Answer.integer 1).bytes config.auth) = .replied (.integer 1) := by
    have same : wired.auth = config.auth ∧ wired.input = [] := ⟨opening.auth, opening.input⟩
    rw [same.1,same.2]
    exact receive_one config.auth
  have quiet : released.pumping = false := (release_pumping t).trans opening.pumping
  have read : read t id wired (.data ((Answer.integer 1).bytes config.auth)) clock = u := by
    unfold read
    split
    · next nothing => cases nothing
    · next nothing => cases nothing
    · next empty => exact absurd (Recv.data.inj empty) some_
    · next chunk _ same =>
      obtain rfl := Recv.data.inj same
      rw [replied]
      have judged : Resp.judge (.integer 1) = (.accepted, false) := by decide
      simp only [judged]
      unfold complete
      simp only
      have off : (release t id wired .accepted false (.reply (.integer 1) clock)).pumping = false := quiet
      rw [off,if_neg (by simp),release_stack]
      rfl
  have heard : Step crates config t (.read id (.data ((Answer.integer 1).bytes config.auth)) clock) u := by
    have alive : t.jobs id = some wired := Function.update_self _ _ _
    have opened : State.open t = true := rfl
    have connected : wired.connection = true := rfl
    simp only [Step,next,alive,opened,connected,Bool.and_self,if_true,read]
  have empty : released.pending = [] := by
    rw [show released = release t id wired .accepted false cause from rfl,release_pending]
    have none : t.pending = [] := opening.pending
    simp [none]
  have left : released.active = if job.health then s.active else s.active.filter (· ≠ id) := release_active t
  refine ⟨t, u, dialed, rfl, heard, release_log t, { released with pumping := false, stack := [] }, rfl, rfl, empty,
    rfl, left, ?_, ?_⟩
  · intro check free
    have health : wired.health = true := check
    have open_ : t.fenced = false := free
    simp [available,released,release,fence,health,settleHealth,open_]
  · simp only [Step,next,u,pump]
    rw [empty]

/-- A worker that passes its health check can redeem. -/
theorem check_ready (crates : Crates) (opening : Opening config s id (makeHealth config)) (free : s.fenced = false)
    (unused : s.active = []) (clock : Int64) :
    ∃ t u v, Step crates config s (.connect true) t ∧ t.log = s.log ∧
      Step crates config t (.read id (.data ((Answer.integer 1).bytes config.auth)) clock) u ∧
      u.log = s.log ++ [.completed id true (.reply (.integer 1) clock) s.msec] ∧
      Step crates config u .pump v ∧ v.log = u.log ∧ Resting v ∧ available v = true := by
  obtain ⟨t, u, dialed, same, heard, noted, done, stack, pumping, pending, log, active, ready, pumped⟩ :=
    opening_exchange crates opening clock
  exact ⟨t, u, done, dialed, same, heard, noted, pumped, log, ⟨stack, pumping, active.trans unused, pending⟩,
    ready rfl free⟩

/-- A redemption that reads the reply 1 in time is answered with its clearance. -/
theorem redemption_answered (crates : Crates) (opening : Opening config s id job) (redemption : job.health = false)
    (request : job.request = some n) (grant : job.grant = some g) (early : clock < job.expires) :
    ∃ t u v, Step crates config s (.connect true) t ∧ t.log = s.log ∧
      Step crates config t (.read id (.data ((Answer.integer 1).bytes config.auth)) clock) u ∧
      u.log = s.log ++ [.completed id false (.reply (.integer 1) clock) s.msec] ∧
      Step crates config u .pump v ∧ v.log = u.log ++ [.finished (some id) n .accepted g] := by
  obtain ⟨t, u, dialed, same, heard, noted, done, _, _, _, log, _, _, pumped⟩ :=
    opening_exchange crates opening clock
  have punctual : late job .accepted clock = .accepted := by
    unfold late
    rw [if_neg]
    rintro ⟨_, _, late⟩
    exact Int64.not_le.mpr early late
  rw [request,grant,punctual] at pumped
  rw [redemption] at noted
  refine ⟨t, u, _, dialed, same, heard, noted, pumped, ?_⟩
  simp [finishJob,log]

end Forward

end PowGate.Cluster

namespace PowGate.Fleet

open Cluster (Id Config Wire)

section Forward

variable {crates : Crates} {configs : Nat → Config} {s : State} {w : Nat} {id : Id} {job : Cluster.Job}
  {t u v : Cluster.State}

theorem advance_past (configs : Nat → Config) (s : State) (log : t.log = (s.workers w).log ++ more) :
    (s.advance configs w t).past = s.past ++ settlements s.past (configs w).issuer more := by
  simp [State.advance,log]

/-- The bytes on a wire from which nothing was delivered yet. -/
theorem chunk_whole (wire : Wire) (auth : Bool) (fresh : wire.heard = 0) :
    wire.chunk auth (wire.bytes auth).length = wire.bytes auth := by
  simp [Wire.chunk,fresh]

/-- Redis takes up the script on this wire and answers 1. -/
def Evaluates (crates : Crates) (configs : Nat → Config) (s : State) (w : Nat) (id : Id) (output : Cluster.Script)
    (primary : Bytes → Redis.Primary) : Prop :=
  ∀ r : State, r.primary = s.primary → r.time = s.time → r.wires w id = ⟨some output, none, 0⟩ →
    ∃ r', Step crates configs r (.run w id) r' ∧ r'.workers = r.workers ∧ r'.past = r.past ∧ r'.time = r.time ∧
      r'.primary = primary ∧ r'.wires w id = ⟨some output, some (.integer 1), 0⟩

/-- No epoch is drawn. -/
def Undrawn (acts : List Act) : Prop := ∀ space expected fresh, .provision space expected fresh ∉ acts

/-- A job is connected, answered and done with. -/
theorem exchange_run (clock : Int64) (opening : Cluster.Opening (configs w) (s.workers w) id job)
    (dialed : Cluster.Step crates (configs w) (s.workers w) (.connect true) t) (silent : t.log = (s.workers w).log)
    (heard : Cluster.Step crates (configs w) t
      (.read id (.data ((Cluster.Answer.integer 1).bytes (configs w).auth)) clock) u)
    (noted : u.log = (s.workers w).log ++ [.completed id job.health (.reply (.integer 1) clock) (s.workers w).msec])
    (pumped : Cluster.Step crates (configs w) u .pump v) (closed : v.log = u.log ++ more)
    (evaluates : Evaluates crates configs s w id job.output primary) :
    ∃ acts final, Runs.Run (Step crates configs) s acts final ∧ final.workers w = v ∧ final.time = s.time ∧
      final.primary = primary ∧ final.past = s.past ++ settlements s.past (configs w).issuer more ∧ Undrawn acts := by
  let s₁ : State := (s.advance configs w t).setWire w id ⟨some job.output, none, 0⟩
  have first : Step crates configs s (.dial w) s₁ := .dial opening.stack opening.alive dialed
  have past₁ : s₁.past = s.past := by
    have grown := advance_past configs s (silent.trans (List.append_nil _).symm)
    exact grown.trans (List.append_nil _)
  obtain ⟨s₂, second, workers₂, past₂, time₂, primary₂, wired⟩ := evaluates s₁ rfl rfl (setWire_self _ _ _ _)
  have here₂ : s₂.workers w = t := by
    rw [workers₂]
    exact Function.update_self _ _ _
  let count := ((s₂.wires w id).bytes (configs w).auth).length
  have chunk : (s₂.wires w id).chunk (configs w).auth count = (Cluster.Answer.integer 1).bytes (configs w).auth := by
    rw [chunk_whole _ _ (by rw [wired]),wired]
    rfl
  have some_ : (s₂.wires w id).chunk (configs w).auth count ≠ [] := by
    rw [chunk]
    cases (configs w).auth <;> decide +kernel
  let s₃ : State := (s₂.advance configs w u).setWire w id ((s₂.wires w id).hear count)
  have third : Step crates configs s₂ (.hear w id count clock) s₃ := by
    refine .hear some_ ?_
    rw [chunk,here₂]
    exact heard
  have past₃ : s₃.past = s₂.past := by
    have log : u.log = (s₂.workers w).log ++ [.completed id job.health (.reply (.integer 1) clock) (s.workers w).msec] := by
      rw [here₂,silent,noted]
    exact (advance_past configs s₂ log).trans (List.append_nil _)
  have here₃ : s₃.workers w = u := Function.update_self _ _ _
  have fourth : Step crates configs s₃ (.act w .pump) (s₃.advance configs w v) := by
    refine .act rfl ?_
    rw [here₃]
    exact pumped
  have past₄ : (s₃.advance configs w v).past = s.past ++ settlements s.past (configs w).issuer more := by
    rw [advance_past configs s₃ (by rw [here₃]; exact closed),past₃,past₂,past₁]
  exact ⟨_, _, .cons first (.cons second (.cons third (.cons fourth .nil))), Function.update_self _ _ _, time₂, primary₂,
    past₄, by simp [Undrawn]⟩

/-- A healthy primary with the worker's epoch. -/
structure Provisioned (config : Config) (primary : Redis.Primary) (time : Int) : Prop where
  epoch : primary.epoch = some config.epoch
  clock : ∃ reading, primary.clock = some reading ∧ reading ≤ time

theorem health_evaluates (provisioned : Provisioned (configs w) (s.primary (configs w).space) s.time) :
    Evaluates crates configs s w id (.health (configs w).epoch) s.primary := by
  intro r primary time wired
  have sent : (r.wires w id).output = some (.health (configs w).epoch) := by rw [wired]
  have waiting : (r.wires w id).answer = none := by rw [wired]
  have one : Redis.health (r.primary (configs w).space) (configs w).epoch = 1 := by
    obtain ⟨reading, clock, _⟩ := provisioned.clock
    simp [Redis.health,primary,provisioned.epoch,clock]
  refine ⟨_, .check sent waiting, rfl, rfl, rfl, primary, ?_⟩
  rw [setWire_self,wired,one]

/-- The first redemption of a token in time. -/
theorem consume_evaluates (id : Id) (provisioned : Provisioned (configs w) (s.primary (configs w).space) s.time)
    (unspent : (s.primary (configs w).space).spent (Redis.keys crates (configs w).space (configs w).epoch rd.token).2.1 = none)
    (near : |s.time - caller.toInt| ≤ (configs w).skew.toInt) (early : s.time < rd.expires.toInt) :
    ∃ primary, Evaluates crates configs s w id (.consume (Cluster.consumeArgs crates (configs w) rd caller)) primary := by
  obtain ⟨reading, clock, behind⟩ := provisioned.clock
  have one : (Redis.consume Redis.unrounded (s.primary (configs w).space) (Cluster.consumeArgs crates (configs w) rd caller) s.time).1 = 1 :=
    Redis.consume_accepts provisioned.epoch clock near (by rw [max_eq_left behind]; exact early) unspent
  refine ⟨Function.update s.primary (configs w).space
    (Redis.consume Redis.unrounded (s.primary (configs w).space) (Cluster.consumeArgs crates (configs w) rd caller) s.time).2, ?_⟩
  intro r primary time wired
  have sent : (r.wires w id).output = some (.consume (Cluster.consumeArgs crates (configs w) rd caller)) := by rw [wired]
  have waiting : (r.wires w id).answer = none := by rw [wired]
  have evaluated : Redis.consume Redis.unrounded (r.primary (configs w).space) (Cluster.consumeArgs crates (configs w) rd caller) r.time =
      (1, (Redis.consume Redis.unrounded (s.primary (configs w).space) (Cluster.consumeArgs crates (configs w) rd caller) s.time).2) := by
    rw [primary,time]
    exact Prod.ext one rfl
  refine ⟨_, .run sent waiting evaluated, rfl, rfl, rfl, ?_, ?_⟩
  · exact congrArg (Function.update · (configs w).space _) primary
  · refine (setWire_self _ w id _).trans ?_
    rw [wired]

/-- A worker at rest passes its health check. -/
theorem worker_ready (crates : Crates) (configs : Nat → Config) (s : State) (w : Nat) (resting : Cluster.Resting (s.workers w)) (idle : (s.workers w).healthBusy = false)
    (free : (s.workers w).fenced = false)
    (provisioned : Provisioned (configs w) (s.primary (configs w).space) s.time) :
    ∃ acts final, Runs.Run (Step crates configs) s acts final ∧ Cluster.Resting (final.workers w) ∧
      Cluster.available (final.workers w) = true ∧ final.time = s.time ∧ final.primary = s.primary ∧
      final.past = s.past ∧ Undrawn acts := by
  obtain ⟨p, polled, opening, log, open_, unused, _⟩ := Cluster.poll_opens crates (configs w) resting idle free
  let s₀ : State := s.advance configs w p
  have first : Step crates configs s (.act w .poll) s₀ := .act rfl polled
  have here : s₀.workers w = p := Function.update_self _ _ _
  have past : s₀.past = s.past :=
    (advance_past configs s (log.trans (List.append_nil _).symm)).trans (List.append_nil _)
  obtain ⟨t, u, v, dialed, silent, heard, noted, pumped, closed, rested, ready⟩ :=
    Cluster.check_ready crates opening open_ unused 0
  rw [← here] at opening dialed silent noted
  obtain ⟨acts, final, run, worker, time, primary, settled, undrawn⟩ := exchange_run 0 opening dialed silent heard noted pumped
    (closed.trans (List.append_nil _).symm) (health_evaluates provisioned)
  refine ⟨_, final, .cons first run, ?_, ?_, time, primary, ?_, ?_⟩
  · rw [worker]
    exact rested
  · rw [worker]
    exact ready
  · rw [settled,past]
    exact List.append_nil _
  · simpa [Undrawn] using undrawn

/-- A request that redeems an unspent token in time, on a worker that is ready, gets its clearance. -/
theorem redemption_cleared (crates : Crates) (configs : Nat → Config) (s : State) (w : Nat) (caller clock : Int64)
    (enters : Enters crates configs s w e visit) (begins : e.begins = some rd)
    (resting : Cluster.Resting (s.workers w)) (ready : Cluster.available (s.workers w) = true)
    (provisioned : Provisioned (configs w) (s.primary (configs w).space) s.time)
    (unspent : (s.primary (configs w).space).spent
      (Redis.keys crates (configs w).space (configs w).epoch rd.token).2.1 = none)
    (near : |s.time - caller.toInt| ≤ (configs w).skew.toInt) (early : s.time < rd.expires.toInt)
    (punctual : clock < rd.expires) :
    ∃ acts final, Runs.Run (Step crates configs) s acts final ∧ final.past = s.past ++ [e, .settle rd .accepted] ∧
      Undrawn acts := by
  obtain ⟨p, redeemed, opening, log⟩ := Cluster.redeem_opens crates (configs w) resting ready
  let entered : State := { s with past := s.past ++ [e] }
  let s₀ : State := entered.advance configs w p
  have first : Step crates configs s (.redeem w e true caller) s₀ := .redeem enters begins redeemed
  have here : s₀.workers w = p := Function.update_self _ _ _
  have past : s₀.past = s.past ++ [e] := (advance_past configs entered log).trans (List.append_nil _)
  obtain ⟨t, u, v, dialed, silent, heard, noted, pumped, closed⟩ :=
    Cluster.redemption_answered crates opening rfl rfl rfl punctual
  rw [← here] at opening dialed silent noted
  obtain ⟨primary, evaluates⟩ := consume_evaluates (s.workers w).fresh (s := s₀) provisioned unspent near early
  obtain ⟨acts, final, run, _, _, _, settled, undrawn⟩ :=
    exchange_run clock opening dialed silent heard noted pumped closed evaluates
  refine ⟨_, final, .cons first run, ?_, by simpa [Undrawn] using undrawn⟩
  rw [settled,past]
  have owned := enters.owner begins
  simp [settlements,owned]

end Forward

end PowGate.Fleet
