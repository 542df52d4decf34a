import PowGate.ClusterBooks
import PowGate.Reference

/-! Safety of the job machine. With the books, what the health flags say is the third
invariant of a worker; together they rule out lost, doubled and stuck jobs in every order
of events, and tie availability to the last health check. -/
namespace PowGate.Cluster

open Text

/-- What the flags say about the health checks. -/
structure Health (s : State) : Prop where
  busy : ∀ id job, s.jobs id = some job → job.health = true → s.healthBusy = true
  single : ∀ id id' job job', s.jobs id = some job → s.jobs id' = some job' → job.health = true →
    job'.health = true → id = id'
  fenced : s.fenced = true → s.ready = false
  checked : s.ready = true → ∃ before id clock after,
    s.log = before ++ .completed id true (.reply (.integer 1) clock) s.lastOk :: after ∧
      (∀ note ∈ after, note.checks = false) ∧ s.lastOk ≤ s.msec

variable {config : Config} {id : Id} {job old : Job} {outcome : Ledger.Outcome} {fenced : Bool} {cause : Cause}

section Health

variable {s : State}

/-- Notes about redemptions change nothing here. -/
theorem Health.note (health : Health s) (more : List Note) (quiet : ∀ note ∈ more, note.checks = false) :
    Health { s with log := s.log ++ more } := by
  obtain ⟨busy, single, fenced, checked⟩ := health
  refine ⟨busy, single, fenced, ?_⟩
  intro ready
  obtain ⟨before, id, clock, after, log, last, passed⟩ := checked ready
  refine ⟨before, id, clock, after ++ more, by simp [log], ?_, passed⟩
  intro note member
  rcases List.mem_append.mp member with old | new
  · exact last note old
  · exact quiet note new

theorem finishJob_health (health : Health s) : Health (finishJob s id request grant outcome) := by
  unfold finishJob
  split
  · next r g =>
    have noted := health.note [.finished (some id) r outcome g] (by simp [Note.checks])
    exact ⟨noted.busy, noted.single, noted.fenced, noted.checked⟩
  · exact health

/-- A finished health check was the only one, and it counts if the reply was 1 and the store
is not fenced. -/
theorem release_check (health : Health s) (alive : s.jobs id = some old) (kind : job.health = old.health)
    (honest : outcome = .accepted → ∃ clock, cause = .reply (.integer 1) clock) (check : job.health = true) :
    Health (release s id job outcome fenced cause) := by
  have lonely : ∀ other job', Function.update s.jobs id none other = some job' → job'.health = false := by
    intro other job' found
    obtain ⟨apart, found⟩ := freed_jobs found
    by_contra second
    exact apart (health.single other id job' old found alive (by simpa using second) (by rw [← kind,check]))
  refine ⟨?_, ?_, ?_, ?_⟩
  · intro other job' found second
    rw [release_jobs] at found
    rw [lonely other job' found] at second
    cases second
  · intro a b jobA jobB found _ second
    rw [release_jobs] at found
    rw [lonely a jobA found] at second
    cases second
  · intro set
    rw [release_fenced] at set
    rw [release_ready,check,set]
    simp
  · intro ready
    have last := release_lastOk s id job outcome fenced cause
    rw [ready,check] at last
    rw [release_ready,check] at ready
    simp only [if_true,Bool.and_eq_true,decide_eq_true_eq] at ready
    obtain ⟨clock, reply⟩ := honest ready.1
    refine ⟨s.log, id, clock, [], ?_, nofun, ?_⟩
    · rw [last,release_log,check,reply]
      rfl
    · rw [last,release_msec]
      exact UInt64.le_refl _

theorem release_health (health : Health s) (alive : s.jobs id = some old) (kind : job.health = old.health)
    (honest : outcome = .accepted → ∃ clock, cause = .reply (.integer 1) clock) :
    Health (release s id job outcome fenced cause) := by
  cases here : job.health with
  | true => exact release_check health alive kind honest here
  | false =>
    obtain ⟨busy, single, flagged, checked⟩ := health
    refine ⟨?_, ?_, ?_, ?_⟩
    · intro other job' found check
      rw [release_jobs] at found
      rw [release_healthBusy,here,busy other job' (freed_jobs found).2 check]
      rfl
    · intro a b jobA jobB foundA foundB
      rw [release_jobs] at foundA foundB
      exact single a b jobA jobB (freed_jobs foundA).2 (freed_jobs foundB).2
    · intro set
      rw [release_fenced] at set
      rw [release_ready,here]
      cases fenced with
      | true => simp
      | false => simpa using flagged (by simpa using set)
    · intro ready
      rw [release_ready,here] at ready
      simp only [Bool.false_eq_true,if_false,Bool.and_eq_true] at ready
      obtain ⟨before, id', clock, after, log, last, passed⟩ := checked ready.1
      rw [release_lastOk,here,release_log,release_msec]
      refine ⟨before, id', clock, after ++ [.completed id job.health cause s.msec], by simp [log], ?_,
        by simpa using passed⟩
      intro note member
      rcases List.mem_append.mp member with old | new
      · exact last note old
      · rw [List.mem_singleton.mp new]
        exact here

/-- A new or changed job that is no new health check. -/
theorem Health.jobs (health : Health s) (id : Id) (job : Job)
    (same : job.health = true → ∃ old, s.jobs id = some old ∧ old.health = true) :
    Health { s with jobs := Function.update s.jobs id (some job) } := by
  obtain ⟨busy, single, flagged, checked⟩ := health
  have before : ∀ other job', Function.update s.jobs id (some job) other = some job' → job'.health = true →
      ∃ old, s.jobs other = some old ∧ old.health = true := by
    intro other job' found check
    rcases updated_jobs found with ⟨rfl, rfl⟩ | ⟨_, found⟩
    · exact same check
    · exact ⟨job', found, check⟩
  refine ⟨?_, ?_, flagged, checked⟩
  · intro other job' found check
    obtain ⟨old, known, old_check⟩ := before other job' found check
    exact busy other old known old_check
  · intro a b jobA jobB foundA foundB checkA checkB
    obtain ⟨oldA, knownA, old_checkA⟩ := before a jobA foundA checkA
    obtain ⟨oldB, knownB, old_checkB⟩ := before b jobB foundB checkB
    exact single a b oldA oldB knownA knownB old_checkA old_checkB

theorem refuse_health (health : Health s) : Health (refuse s request grant) := by
  have noted := health.note [.finished none request .full grant] (by simp [Note.checks])
  exact ⟨noted.busy, noted.single, noted.fenced, noted.checked⟩

theorem redeem_health (health : Health s) :
    Health (redeem crates config s request token expires grant memory clock) := by
  have noted := health.note [.admitted s.fresh request] (by simp [Note.checks])
  have born := noted.jobs s.fresh { makeJob crates config request grant token expires clock with
    cleanup := true, deadline := true } nofun
  rcases redeem_cases crates config s request token expires grant memory clock with
    refused | ⟨_, dialled⟩ | ⟨_, _, queued⟩
  · rw [refused]
    exact refuse_health health
  · rw [dialled]
    exact ⟨born.busy, born.single, born.fenced, born.checked⟩
  · rw [queued]
    exact ⟨born.busy, born.single, born.fenced, born.checked⟩

theorem poll_health (health : Health s) : Health (poll config s) := by
  unfold poll
  split
  · next idle =>
    obtain ⟨busy, single, flagged, checked⟩ := health
    have mine : ∀ other job', Function.update s.jobs s.fresh (some (makeHealth config)) other = some job' →
        job'.health = true → other = s.fresh := by
      intro other job' found check
      by_contra here
      rw [Function.update_of_ne here] at found
      have := busy other job' found check
      rw [idle.1] at this
      cases this
    refine ⟨fun _ _ _ _ => rfl, ?_, flagged, checked⟩
    intro a b jobA jobB foundA foundB checkA checkB
    rw [mine a jobA foundA checkA,mine b jobB foundB checkB]
  · exact health

theorem complete_health (health : Health s) (alive : s.jobs id = some old) (kind : job.health = old.health)
    (honest : outcome = .accepted → ∃ clock, cause = .reply (.integer 1) clock) :
    Health (complete s id job outcome fenced clock cause) := by
  have released : Health (release s id job outcome fenced cause) := release_health health alive kind honest
  unfold complete
  simp only
  split
  · exact finishJob_health released
  · exact ⟨released.busy, released.single, released.fenced, released.checked⟩

end Health

structure Inv (config : Config) (s : State) : Prop where
  queues : Queues config s
  accounts : Accounts (fun _ => 0) s
  health : Health s

section Handlers

variable {s t : State}

theorem Inv.unborn (inv : Inv config s) : s.jobs s.fresh = none :=
  (inv.accounts.unborn s.fresh (Nat.le_refl _)).1

theorem activate_inv (msec : UInt64) : Inv config (activate msec) := by
  refine ⟨⟨Nat.zero_le _, Nat.zero_le _, fun _ => rfl, rfl, fun _ waiting => absurd rfl waiting⟩,
    ⟨fun _ _ => ⟨rfl, rfl⟩, fun _ => Nat.zero_le _, fun _ => rfl, fun _ => rfl, ?_, ?_, ?_, ?_⟩, ?_, ?_, ?_, ?_⟩
  all_goals simp [activate]

theorem complete_inv (inv : Inv config s) (alive : s.jobs id = some old) (kind : job.health = old.health)
    (answer : (job.request.isSome ∧ job.grant.isSome) ↔ job.health = false ∧ cause ≠ .aborted)
    (known : ∀ r, job.request = some r → .admitted id r ∈ s.log)
    (honest : outcome = .accepted → ∃ clock, cause = .reply (.integer 1) clock) :
    Inv config (complete s id job outcome fenced clock cause) :=
  ⟨complete_queues inv.queues alive kind, complete_accounts inv.accounts alive kind answer known,
    complete_health inv.health alive kind honest⟩

/-- The request of a live job is the one it was admitted for, and a health check has none. -/
theorem Inv.request_of (inv : Inv config s) (alive : s.jobs id = some job) :
    ((job.request.isSome ∧ job.grant.isSome) ↔ job.health = false) ∧
      ∀ r, job.request = some r → .admitted id r ∈ s.log := by
  cases here : job.health with
  | true => simp [inv.accounts.anonymous id job alive here]
  | false =>
    obtain ⟨⟨r, request, member⟩, grant, _⟩ := inv.accounts.owned id job alive here
    simp [request,grant,member]

theorem fail_inv (inv : Inv config s) (alive : s.jobs id = some old) (kind : job.health = old.health)
    (request : job.request = old.request) (grant : job.grant = old.grant) :
    Inv config (fail s id job .failure) := by
  obtain ⟨answer, known⟩ := inv.request_of alive
  rw [← request,← grant,← kind] at answer
  rw [← request] at known
  exact complete_inv inv alive kind (by simpa using answer) known nofun

theorem abort_inv (inv : Inv config s) (alive : s.jobs id = some old) (kind : job.health = old.health)
    (gone : job.request = none) : Inv config (fail s id job .aborted) :=
  complete_inv inv alive kind (by simp [gone]) (by simp [gone]) nofun

theorem reply_inv (inv : Inv config s) (alive : s.jobs id = some job) (found : Resp.Reply) (clock : Int64) :
    Inv config (complete s id job (Resp.judge found).1 (Resp.judge found).2 clock (.reply found clock)) := by
  obtain ⟨answer, known⟩ := inv.request_of alive
  apply complete_inv inv alive rfl (by simpa using answer) known
  intro accepted
  exact ⟨clock, by rw [Resp.judge_accepted.mp accepted]⟩

theorem jobs_inv (inv : Inv config s) (alive : s.jobs id = some old)
    (same : job.health = old.health ∧ job.request = old.request ∧ job.grant = old.grant)
    (armed : old.deadline = true → job.deadline = true) :
    Inv config { s with jobs := Function.update s.jobs id (some job) } := by
  refine ⟨?_, inv.accounts.jobs alive same armed, ?_⟩
  · apply inv.queues.jobs
    intro other
    rw [live_update]
    by_cases here : other = id
    · subst here
      simp [live,alive,same.1]
    · simp [here]
  · apply inv.health.jobs
    intro check
    exact ⟨old, alive, by rw [← same.1,check]⟩

/-- A frame other than a running loop returns. -/
theorem return_inv (inv : Inv config s) (top : s.stack = frame :: rest) (idle : frame.isPumping = false) :
    Inv config { s with stack := rest } := by
  have nothing : ∀ other, frame.awaits other = false := by
    intro other
    cases frame with
    | pumping => cases idle
    | connecting => rfl
    | finishing => rfl
  refine ⟨?_, ?_, ?_⟩
  · apply inv.queues.stack
    rw [top,List.countP_cons_of_neg (by simp [idle])]
  · refine inv.accounts.frame rfl rfl rfl ?_ ?_
    · intro other
      rw [top,List.countP_cons_of_neg (by simp [nothing other])]
    · intro id r g o member
      rw [top]
      exact List.mem_cons_of_mem _ member
  · obtain ⟨busy, single, flagged, checked⟩ := inv.health
    exact ⟨busy, single, flagged, checked⟩

theorem connect_inv (inv : Inv config s) (alive : s.jobs id = some job) :
    Inv config (connect s id job connected) := by
  unfold connect
  simp only
  split
  · exact jobs_inv inv alive ⟨rfl, rfl, rfl⟩ fun armed => by simp [armed]
  · exact fail_inv inv alive rfl rfl rfl

theorem pump_inv (inv : Inv config s) (top : s.stack = .pumping id request grant outcome :: rest) :
    Inv config (pump config s rest id request grant outcome) := by
  have accounts : Accounts (fun _ => 0) (finishJob { s with pumping := false, stack := rest } id request grant outcome) := by
    apply finishJob_accounts (inv.accounts.exit top)
    intro r same
    apply inv.accounts.waiting id r grant outcome
    rw [top,same]
    exact List.mem_cons_self
  have health : Health (finishJob { s with pumping := false, stack := rest } id request grant outcome) := by
    apply finishJob_health
    exact ⟨inv.health.busy, inv.health.single, inv.health.fenced, inv.health.checked⟩
  have queues := pump_queues inv.queues top
  rcases pump_cases config s rest id request grant outcome with ⟨first, more, _, _, dialled⟩ | ⟨_, ended⟩
  · rw [dialled] at queues ⊢
    exact ⟨queues, inv.accounts.dial rfl rfl rfl rfl,
      ⟨inv.health.busy, inv.health.single, inv.health.fenced, inv.health.checked⟩⟩
  · rw [ended] at queues ⊢
    exact ⟨queues, accounts, health⟩

theorem read_inv (inv : Inv config s) (alive : s.jobs id = some job) :
    Inv config (read s id job recv clock) := by
  generalize done : read s id job recv clock = t
  cases read_effect done with
  | idle => exact inv
  | failed => exact fail_inv inv alive rfl rfl rfl
  | more => exact jobs_inv inv alive ⟨rfl, rfl, rfl⟩ fun armed => armed
  | replied => exact reply_inv inv alive _ clock

theorem tick_inv (inv : Inv config s) (later : s.msec ≤ msec) : Inv config { s with msec } := by
  obtain ⟨⟨active_le, pending_le, placed, pumping, full⟩, accounts, ⟨busy, single, flagged, checked⟩⟩ := inv
  refine ⟨⟨active_le, pending_le, placed, pumping, full⟩,
    accounts.frame rfl rfl rfl (fun _ => rfl) fun _ _ _ _ member => member, ⟨busy, single, flagged, ?_⟩⟩
  intro ready
  obtain ⟨before, id, clock, after, log, last, passed⟩ := checked ready
  exact ⟨before, id, clock, after, log, last, UInt64.le_trans passed later⟩

theorem step_inv (inv : Inv config s) (taken : Step crates config s action t) : Inv config t := by
  cases step_effect taken with
  | redeem => exact ⟨redeem_queues inv.queues inv.unborn, redeem_accounts inv.accounts, redeem_health inv.health⟩
  | poll => exact ⟨poll_queues inv.queues inv.unborn, poll_accounts inv.accounts, poll_health inv.health⟩
  | sent => exact inv
  | unsent _ alive => exact fail_inv inv alive rfl rfl rfl
  | read _ alive => exact read_inv inv alive
  | deadline _ alive => exact fail_inv inv alive rfl rfl rfl
  | aborted _ alive => exact abort_inv inv alive rfl rfl
  | tick _ later => exact tick_inv inv later
  | connect top alive => exact connect_inv (return_inv inv top rfl) alive
  | pump top => exact pump_inv inv top
  | leave top => exact return_inv inv top rfl

@[simp] theorem finishJob_fenced : (finishJob s id request grant outcome).fenced = s.fenced := by
  unfold finishJob
  split <;> rfl

theorem complete_fenced :
    (complete s id job outcome fenced clock cause).fenced = (s.fenced || fenced) := by
  unfold complete
  simp only
  split
  · rw [finishJob_fenced,release_fenced]
  · rw [release_fenced]

/-- Nothing lifts the fence. -/
theorem step_fenced (fenced : s.fenced = true) (taken : Step crates config s action t) : t.fenced = true := by
  have failed : ∀ s : State, s.fenced = true → ∀ id job cause, (fail s id job cause).fenced = true := by
    intro s set id job cause
    rw [fail,complete_fenced,set]
    rfl
  cases step_effect taken with
  | @redeem request token expires grant memory clock _ =>
    rcases redeem_cases crates config s request token expires grant memory clock with
      refused | ⟨_, dialled⟩ | ⟨_, _, queued⟩
    · rw [refused]
      exact fenced
    · rw [dialled]
      exact fenced
    · rw [queued]
      exact fenced
  | poll =>
    unfold poll
    split <;> exact fenced
  | sent => exact fenced
  | unsent => exact failed _ fenced _ _ _
  | @read job recv clock id =>
    generalize done : read s id job recv clock = t
    cases read_effect done with
    | idle | more => exact fenced
    | failed => exact failed _ fenced _ _ _
    | replied =>
      rw [complete_fenced,fenced]
      rfl
  | deadline => exact failed _ fenced _ _ _
  | aborted => exact failed _ fenced _ _ _
  | tick => exact fenced
  | connect =>
    unfold connect
    simp only
    split
    · exact fenced
    · apply failed
      exact fenced
  | @pump rest request grant outcome id =>
    rcases pump_cases config s rest id request grant outcome with ⟨_, _, _, _, dialled⟩ | ⟨_, ended⟩
    · rw [dialled]
      exact fenced
    · rw [ended,finishJob_fenced]
      exact fenced
  | leave => exact fenced

end Handlers

/-- What is claimed of every state a worker can be in. -/
structure Safe (config : Config) (s : State) : Prop where
  active_le : s.active.length ≤ config.connections
  pending_le : s.pending.length ≤ config.queue
  /-- An admitted job is in exactly one queue until it is completed, exactly once. -/
  placed : ∀ id request, .admitted id request ∈ s.log →
    (s.log.countP (Note.completes id) = 0 ∧ s.active.count id + s.pending.count id = 1) ∨
    (s.log.countP (Note.completes id) = 1 ∧ id ∉ s.active ∧ id ∉ s.pending)
  /-- Its deadline is armed as long as it is not completed. -/
  armed : ∀ id request, .admitted id request ∈ s.log → s.log.countP (Note.completes id) = 0 →
    ∃ job, s.jobs id = some job ∧ job.deadline = true
  /-- Its request, and no other, is answered exactly once, unless the client aborted first. -/
  answered : ∀ id request, .admitted id request ∈ s.log →
    s.log.countP (Note.finishes id) ≤ 1 ∧ (s.log.countP (Note.aborts id) = 1 → s.log.countP (Note.finishes id) = 0) ∧
    (s.log.countP (Note.completes id) = 1 → s.log.countP (Note.aborts id) = 0 →
      (∀ frame ∈ s.stack, frame.awaits id = false) → s.log.countP (Note.finishes id) = 1) ∧
    ∀ other outcome grant, .finished (some id) other outcome grant ∈ s.log → other = request
  /-- Without a call of `complete` on the stack, jobs wait only for a full set of connections. -/
  pumped : (∀ frame ∈ s.stack, frame.completing = false) → s.pending ≠ [] →
    s.active.length = config.connections
  one_check : ∀ id id' job job', s.jobs id = some job → s.jobs id' = some job' → job.health = true →
    job'.health = true → id = id'
  fenced : s.fenced = true → available s = false ∧ issuer config s = none
  /-- The last completed health check returned 1, less than 2500 ms ago. -/
  checked : available s = true → ∃ before id clock time after,
    s.log = before ++ .completed id true (.reply (.integer 1) clock) time :: after ∧
      (∀ note ∈ after, note.checks = false) ∧ time ≤ s.msec ∧ s.msec.toNat - time.toNat < 2500

section Safety

variable {s : State}

theorem admits_unique (once : s.log.countP (Note.admits id) ≤ 1) (first : .admitted id a ∈ s.log)
    (second : .admitted id b ∈ s.log) : a = b := by
  obtain ⟨before, after, split⟩ := List.append_of_mem first
  rw [split] at once second
  rw [List.countP_append,List.countP_cons_of_pos (by simp [Note.admits])] at once
  have nowhere : (Note.admitted id b) ∉ before ∧ (Note.admitted id b) ∉ after := by
    constructor
    · intro member
      have : 0 < before.countP (Note.admits id) := List.countP_pos_iff.mpr ⟨_, member, by simp [Note.admits]⟩
      omega
    · intro member
      have : 0 < after.countP (Note.admits id) := List.countP_pos_iff.mpr ⟨_, member, by simp [Note.admits]⟩
      omega
  have same : b = a := by simpa [nowhere] using second
  exact same.symm

theorem Inv.admitted_once (inv : Inv config s) (member : .admitted id request ∈ s.log) :
    live s.jobs id + s.log.countP (Note.completes id) = 1 := by
  have positive : 0 < s.log.countP (Note.admits id) :=
    List.countP_pos_iff.mpr ⟨_, member, by simp [Note.admits]⟩
  have once := inv.accounts.once id
  have balance := inv.accounts.admitted id
  omega

theorem Inv.safe (inv : Inv config s) : Safe config s where
  active_le := inv.queues.active_le
  pending_le := inv.queues.pending_le
  placed id request member := by
    have once := inv.admitted_once member
    have placed := inv.queues.placed id
    by_cases done : s.log.countP (Note.completes id) = 0
    · exact .inl ⟨done, by omega⟩
    · refine .inr ⟨by omega, ?_, ?_⟩
      · rw [← List.count_eq_zero]
        omega
      · rw [← List.count_eq_zero]
        omega
  armed id request member open_ := by
    have once := inv.admitted_once member
    have alive : live s.jobs id = 1 := by omega
    unfold live at alive
    split at alive
    · next job known =>
      split at alive
      · cases alive
      · next redemption => exact ⟨job, known, (inv.accounts.owned id job known (by simpa using redemption)).2.2⟩
    · cases alive
  answered id request member := by
    have once := inv.admitted_once member
    have balance := inv.accounts.finished id
    refine ⟨by omega, fun _ => by omega, ?_, ?_⟩
    · intro done stayed idle
      have none : s.stack.countP (Frame.awaits id) = 0 := by
        rw [List.countP_eq_zero]
        intro frame inside
        simp [idle frame inside]
      omega
    · intro other outcome grant answered
      exact admits_unique (inv.accounts.once id) (inv.accounts.answered id other outcome grant answered) member
  pumped idle waiting := by
    apply inv.queues.full _ waiting
    have none : s.stack.countP Frame.isPumping = 0 := by
      rw [List.countP_eq_zero]
      intro frame inside
      have := idle frame inside
      cases frame <;> simp_all [Frame.completing,Frame.isPumping]
    have := inv.queues.pumping
    cases running : s.pumping with
    | false => rfl
    | true =>
      rw [running,none] at this
      cases this
  one_check := inv.health.single
  fenced set := by simp [available,issuer,set]
  checked ready := by
    simp only [available,Bool.and_eq_true,decide_eq_true_eq] at ready
    obtain ⟨before, id, clock, after, log, last, passed⟩ := inv.health.checked ready.1.1
    refine ⟨before, id, clock, s.lastOk, after, log, last, passed, ?_⟩
    have recent := UInt64.lt_iff_toNat_lt.mp ready.2
    rw [UInt64.toNat_sub_of_le _ _ passed] at recent
    exact recent

end Safety

/-- In every state a worker reaches, in whatever order its handlers are entered and left,
jobs are neither lost, doubled nor stuck; and a fence, once set, holds forever. -/
theorem jobs_safe (crates : Crates) (config : Config) (msec : UInt64) (first more : List Action) (s t : State)
    (run : Runs.Run (Step crates config) (activate msec) first s)
    (later : Runs.Run (Step crates config) s more t) :
    Safe config s ∧ (s.fenced = true → t.fenced = true ∧ available t = false ∧ issuer config t = none) := by
  have inv : Inv config s :=
    run.invariant (Inv config) (fun _ _ _ inv taken => step_inv inv taken) (activate_inv msec)
  refine ⟨inv.safe, ?_⟩
  intro set
  have kept : t.fenced = true :=
    later.invariant (·.fenced = true) (fun _ _ _ set taken => step_fenced set taken) set
  exact ⟨kept, by simp [available,kept], by simp [issuer,kept]⟩

/-- One connection and one place in the queue. -/
def narrow : Config where
  space := ascii "pow"
  epoch := ascii "0f"
  issuer := Vector.replicate 32 1
  auth := false
  connections := 1
  queue := 1
  skew := 5
  space_plain := by decide +kernel
  connections_range := by decide
  queue_range := by decide
  skew_range := by decide

/-- The worker's first health check succeeds; a redemption fails at once to connect, and while
its request is answered another one is admitted. -/
theorem jobs_safe_reentered : ∃ s grant,
    Runs.Run (Step Reference.crates narrow) (activate 5000)
      [.poll, .connect true, .read 0 (.data (ascii ":1\r\n")) 0, .pump, .redeem 7 (ascii "t") 60 grant true 0,
        .connect false, .pump, .redeem 8 (ascii "u") 60 grant true 0, .connect true, .leave] s ∧
      Safe narrow s ∧ s.active = [2] := by
  let grant : Prepared := ⟨Clearance.payload [] [] (.noJs 2) 0 60, [], none⟩
  have reached : (Runs.follow (next Reference.crates narrow) (activate 5000)
      [.poll, .connect true, .read 0 (.data (ascii ":1\r\n")) 0, .pump, .redeem 7 (ascii "t") 60 grant true 0,
        .connect false, .pump, .redeem 8 (ascii "u") 60 grant true 0, .connect true, .leave]).map (·.active) =
      some [2] := by decide +kernel
  obtain ⟨s, followed, active⟩ := Option.map_eq_some_iff.mp reached
  have run := Runs.follow_run followed
  exact ⟨s, grant, run, (jobs_safe _ _ _ _ _ _ _ run .nil).1, active⟩

end PowGate.Cluster
