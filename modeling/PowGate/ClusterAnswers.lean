import PowGate.ClusterSafety
import PowGate.Server

/-! What the answers of a worker rest on. `own` tells which redemption each request asked
for; a clearance leaves only for a job that read the reply 1 while the worker's own clock
was before the expiry of the token. -/
namespace PowGate.Cluster

/-- The arguments of the script for a redemption, when the caller's clock shows `clock`. -/
def consumeArgs (crates : Crates) (config : Config) (rd : Redemption) (clock : Int64) : Redis.Args :=
  ⟨config.epoch, (Redis.keys crates config.space config.epoch rd.token).2.1, rd.expires.toInt,
    config.skew.toInt, clock.toInt⟩

/-- The response `outcome` with `grant` to request `n`, sent for a job, is justified. -/
def Justifies (own : Nat → Option Redemption) (log : List Note) (id : Id) (n : Nat) (grant : Prepared)
    (outcome : Ledger.Outcome) : Prop :=
  ∃ rd, own n = some rd ∧ grant = rd.prepared ∧ (outcome = .accepted →
    ∃ clock msec, .completed id false (.reply (.integer 1) clock) msec ∈ log ∧ clock < rd.expires)

/-- A job carries the redemption its request asked for. -/
def Carries (crates : Crates) (config : Config) (own : Nat → Option Redemption) (job : Job) (n : Nat) : Prop :=
  ∃ rd clock, own n = some rd ∧ job.grant = some rd.prepared ∧ job.expires = rd.expires ∧
    job.output = .consume (consumeArgs crates config rd clock)

structure Answers (crates : Crates) (config : Config) (own : Nat → Option Redemption) (s : State) : Prop where
  jobs : ∀ id job n, s.jobs id = some job → job.request = some n → Carries crates config own job n
  frames : ∀ id n grant outcome, .pumping id (some n) (some grant) outcome ∈ s.stack →
    Justifies own s.log id n grant outcome
  notes : ∀ id n grant outcome, .finished (some id) n outcome grant ∈ s.log →
    Justifies own s.log id n grant outcome
  refused : ∀ n grant outcome, .finished none n outcome grant ∈ s.log →
    outcome = .full ∧ ∃ rd, own n = some rd ∧ grant = rd.prepared

variable {crates : Crates} {config : Config} {own : Nat → Option Redemption} {s t : State} {id : Id}
  {job old : Job} {cause : Cause} {outcome : Ledger.Outcome} {fenced : Bool}

theorem Justifies.later (justifies : Justifies own log id n grant outcome) :
    Justifies own (log ++ more) id n grant outcome := by
  obtain ⟨rd, owned, same, paid⟩ := justifies
  refine ⟨rd, owned, same, ?_⟩
  intro accepted
  obtain ⟨clock, msec, member, early⟩ := paid accepted
  exact ⟨clock, msec, List.mem_append_left _ member, early⟩

/-- More requests do not change whose the earlier ones were. -/
theorem Answers.extend (answers : Answers crates config own s) (more : ∀ n rd, own n = some rd → own' n = some rd) :
    Answers crates config own' s := by
  have justified : ∀ {id n grant outcome}, Justifies own s.log id n grant outcome →
      Justifies own' s.log id n grant outcome := by
    rintro id n grant outcome ⟨rd, owned, rest⟩
    exact ⟨rd, more n rd owned, rest⟩
  refine ⟨?_, ?_, ?_, ?_⟩
  · intro id job n alive request
    obtain ⟨rd, clock, owned, rest⟩ := answers.jobs id job n alive request
    exact ⟨rd, clock, more n rd owned, rest⟩
  · intro id n grant outcome member
    exact justified (answers.frames id n grant outcome member)
  · intro id n grant outcome member
    exact justified (answers.notes id n grant outcome member)
  · intro n grant outcome member
    obtain ⟨full, rd, owned, same⟩ := answers.refused n grant outcome member
    exact ⟨full, rd, more n rd owned, same⟩

/-- Nothing is answered, and no new frame waits. -/
theorem Answers.frame (answers : Answers crates config own s) (jobs : t.jobs = s.jobs) (log : t.log = s.log)
    (old : ∀ id request grant outcome, .pumping id request grant outcome ∈ t.stack →
      .pumping id request grant outcome ∈ s.stack) : Answers crates config own t := by
  refine ⟨?_, ?_, ?_, ?_⟩
  · rw [jobs]
    exact answers.jobs
  · intro id n grant outcome member
    rw [log]
    exact answers.frames id n grant outcome (old id _ _ _ member)
  · rw [log]
    exact answers.notes
  · rw [log]
    exact answers.refused

/-- A connection is opened on top of what runs. -/
theorem Answers.dial (answers : Answers crates config own s) (jobs : t.jobs = s.jobs) (log : t.log = s.log)
    (stack : t.stack = .connecting id :: s.stack) : Answers crates config own t := by
  apply answers.frame jobs log
  intro other request grant outcome member
  rw [stack] at member
  rcases List.mem_cons.mp member with same | old
  · cases same
  · exact old

/-- Notes other than answers. -/
theorem Answers.note (answers : Answers crates config own s) (more : List Note)
    (quiet : ∀ job n outcome grant, .finished job n outcome grant ∉ more) :
    Answers crates config own { s with log := s.log ++ more } := by
  refine ⟨answers.jobs, ?_, ?_, ?_⟩
  · intro id n grant outcome member
    exact (answers.frames id n grant outcome member).later
  · intro id n grant outcome member
    rcases List.mem_append.mp member with old | new
    · exact (answers.notes id n grant outcome old).later
    · exact absurd new (quiet _ _ _ _)
  · intro n grant outcome member
    rcases List.mem_append.mp member with old | new
    · exact answers.refused n grant outcome old
    · exact absurd new (quiet _ _ _ _)

theorem Answers.jobs_update (answers : Answers crates config own s) (id : Id) (job : Job)
    (carries : ∀ n, job.request = some n → Carries crates config own job n) :
    Answers crates config own { s with jobs := Function.update s.jobs id (some job) } := by
  refine ⟨?_, answers.frames, answers.notes, answers.refused⟩
  intro other job' n found request
  rcases updated_jobs found with ⟨rfl, rfl⟩ | ⟨_, found⟩
  · exact carries n request
  · exact answers.jobs other job' n found request

theorem finishJob_answers (answers : Answers crates config own s)
    (justified : ∀ n g, request = some n → grant = some g → Justifies own s.log id n g outcome) :
    Answers crates config own (finishJob s id request grant outcome) := by
  unfold finishJob
  split
  · next n g =>
    have mine := justified n g rfl rfl
    refine ⟨answers.jobs, ?_, ?_, ?_⟩
    · intro id' n' g' o' member
      simp only [List.mem_cons,reduceCtorEq,false_or] at member
      exact (answers.frames id' n' g' o' member).later
    · intro id' n' g' o' member
      simp only [List.mem_append,List.mem_cons,Note.finished.injEq,Option.some.injEq,List.not_mem_nil,
        or_false] at member
      rcases member with old | ⟨rfl, rfl, rfl, rfl⟩
      · exact (answers.notes id' n' g' o' old).later
      · exact mine.later
    · intro n' g' o' member
      simp only [List.mem_append,List.mem_cons,Note.finished.injEq,reduceCtorEq,false_and,List.not_mem_nil,
        or_false] at member
      exact answers.refused n' g' o' member
  · exact answers

theorem release_answers (answers : Answers crates config own s) :
    Answers crates config own (release s id job outcome fenced cause) := by
  have noted := answers.note [.completed id job.health cause s.msec] (by simp)
  refine ⟨?_, ?_, ?_, ?_⟩
  · intro other job' n found
    rw [release_jobs] at found
    exact answers.jobs other job' n (freed_jobs found).2
  · rw [release_stack,release_log]
    exact noted.frames
  · rw [release_log]
    exact noted.notes
  · rw [release_log]
    exact noted.refused

/-- `complete` turns a job's reply into the answer it justifies. -/
theorem complete_answers (answers : Answers crates config own s)
    (carries : ∀ n, job.request = some n → job.health = false ∧ Carries crates config own job n)
    (honest : outcome = .accepted → cause = .reply (.integer 1) clock) :
    Answers crates config own (complete s id job outcome fenced clock cause) := by
  have released : Answers crates config own (release s id job outcome fenced cause) := release_answers answers
  have justified : ∀ n g, job.request = some n → job.grant = some g →
      Justifies own (release s id job outcome fenced cause).log id n g (late job outcome clock) := by
    intro n g request grant
    obtain ⟨redemption, rd, caller, owned, prepared, expires, _⟩ := carries n request
    refine ⟨rd, owned, Option.some.inj (grant.symm.trans prepared), ?_⟩
    intro accepted
    unfold late at accepted
    split at accepted
    · cases accepted
    · next early =>
      simp only [redemption,accepted,true_and,Int64.not_le] at early
      refine ⟨clock, s.msec, ?_, by rw [← expires]; exact early⟩
      rw [release_log,honest accepted,redemption]
      simp
  unfold complete
  simp only
  split
  · exact finishJob_answers released justified
  · refine ⟨released.jobs, ?_, released.notes, released.refused⟩
    intro id' n g o member
    rcases List.mem_cons.mp member with same | old
    · simp only [Frame.pumping.injEq] at same
      obtain ⟨rfl, request, grant, rfl⟩ := same
      exact justified n g request.symm grant.symm
    · exact released.frames id' n g o old

/-- `complete` without a reply of 1. -/
theorem fail_answers (answers : Answers crates config own s)
    (carries : ∀ n, job.request = some n → job.health = false ∧ Carries crates config own job n) :
    Answers crates config own (fail s id job cause) :=
  complete_answers answers carries nofun

theorem Inv.carries (inv : Inv config s) (answers : Answers crates config own s) (alive : s.jobs id = some job)
    (n : Nat) (request : job.request = some n) : job.health = false ∧ Carries crates config own job n := by
  refine ⟨?_, answers.jobs id job n alive request⟩
  cases here : job.health with
  | false => rfl
  | true =>
    rw [inv.accounts.anonymous id job alive here] at request
    cases request

theorem refuse_answers (answers : Answers crates config own s) (asked : own n = some rd) :
    Answers crates config own (refuse s n rd.prepared) := by
  refine ⟨answers.jobs, ?_, ?_, ?_⟩
  · intro id n grant outcome member
    rcases List.mem_cons.mp member with same | old
    · cases same
    · exact (answers.frames id n grant outcome old).later
  · intro id n grant outcome member
    rcases List.mem_append.mp member with old | new
    · exact (answers.notes id n grant outcome old).later
    · cases List.mem_singleton.mp new
  · intro n grant outcome member
    rcases List.mem_append.mp member with old | new
    · exact answers.refused n grant outcome old
    · cases List.mem_singleton.mp new
      exact ⟨rfl, rd, asked, rfl⟩

theorem redeem_answers (answers : Answers crates config own s) (asked : own n = some rd) :
    Answers crates config own (redeem crates config s n rd.token rd.expires rd.prepared memory clock) := by
  -- The new job carries the redemption, whether it waits or not.
  have admitted : Answers crates config own (enrol crates config s n rd.token rd.expires rd.prepared clock) := by
    refine ((answers.note [.admitted s.fresh n] (by simp)).jobs_update s.fresh _ ?_).frame rfl rfl
      fun _ _ _ _ member => member
    intro m request
    obtain rfl := Option.some.inj request
    exact ⟨rd, clock, asked, rfl, rfl, rfl⟩
  rcases redeem_cases crates config s n rd.token rd.expires rd.prepared memory clock with
    refused | ⟨_, dialled⟩ | ⟨_, _, queued⟩
  · rw [refused]
    exact refuse_answers answers asked
  · rw [dialled]
    exact admitted.dial rfl rfl rfl
  · rw [queued]
    exact admitted.frame rfl rfl fun _ _ _ _ member => member

theorem poll_answers (answers : Answers crates config own s) : Answers crates config own (poll config s) := by
  unfold poll
  split
  · have started := answers.jobs_update s.fresh (makeHealth config) nofun
    exact started.dial rfl rfl rfl
  · exact answers

theorem read_answers (inv : Inv config s) (answers : Answers crates config own s) (alive : s.jobs id = some job) :
    Answers crates config own (read s id job recv clock) := by
  have carries := inv.carries answers alive
  generalize done : read s id job recv clock = t
  cases read_effect done with
  | idle => exact answers
  | failed => exact fail_answers answers carries
  | more => exact answers.jobs_update _ _ fun n request => (carries n request).2
  | replied =>
    apply complete_answers answers carries
    intro accepted
    rw [Resp.judge_accepted.mp accepted]

theorem Answers.leave {head : Frame} (answers : Answers crates config own s) (top : s.stack = head :: rest) :
    Answers crates config own { s with stack := rest } := by
  refine answers.frame rfl rfl ?_
  intro id request grant outcome member
  rw [top]
  exact List.mem_cons_of_mem _ member

theorem connect_answers (inv : Inv config s) (answers : Answers crates config own s)
    (alive : s.jobs id = some job) : Answers crates config own (connect s id job connected) := by
  have carries := inv.carries answers alive
  unfold connect
  simp only
  split
  · exact answers.jobs_update _ _ fun n request => (carries n request).2
  · exact fail_answers answers carries

theorem pump_answers (answers : Answers crates config own s)
    (top : s.stack = .pumping id request grant outcome :: rest) :
    Answers crates config own (pump config s rest id request grant outcome) := by
  have finished : Answers crates config own
      (finishJob { s with pumping := false, stack := rest } id request grant outcome) := by
    have left : Answers crates config own { s with pumping := false, stack := rest } :=
      (answers.leave top).frame rfl rfl fun _ _ _ _ member => member
    apply finishJob_answers left
    rintro n g rfl rfl
    apply answers.frames
    rw [top]
    exact List.mem_cons_self
  rcases pump_cases config s rest id request grant outcome with ⟨first, more, _, _, dialled⟩ | ⟨_, ended⟩
  · rw [dialled]
    exact answers.dial rfl rfl rfl
  · rw [ended]
    exact finished

/-- Every step keeps the answers justified, when a call of `redeem` is for its own request. -/
theorem step_answers (inv : Inv config s) (answers : Answers crates config own s)
    (asked : ∀ n token expires grant memory clock, action = .redeem n token expires grant memory clock →
      ∃ rd, own n = some rd ∧ token = rd.token ∧ expires = rd.expires ∧ grant = rd.prepared)
    (taken : Step crates config s action t) : Answers crates config own t := by
  cases step_effect taken with
  | redeem =>
    obtain ⟨rd, owned, rfl, rfl, rfl⟩ := asked _ _ _ _ _ _ rfl
    exact redeem_answers answers owned
  | poll => exact poll_answers answers
  | sent => exact answers
  | unsent _ alive => exact fail_answers answers (inv.carries answers alive)
  | read _ alive => exact read_answers inv answers alive
  | deadline _ alive => exact fail_answers answers fun n request => inv.carries answers alive n request
  | aborted => exact fail_answers answers nofun
  | tick => exact answers.frame rfl rfl fun _ _ _ _ member => member
  | connect top alive => exact connect_answers (return_inv inv top rfl) (answers.leave top) alive
  | pump top => exact pump_answers answers top
  | leave top => exact answers.leave top

theorem activate_answers (msec : UInt64) : Answers crates config own (activate msec) := by
  refine ⟨?_, ?_, ?_, ?_⟩
  all_goals simp [activate]

end PowGate.Cluster
