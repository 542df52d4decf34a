import PowGate.Cluster

/-! The books of the job machine: where the jobs are, and how often each was admitted,
completed and answered. Both are kept by every handler, in every nesting. -/
namespace PowGate.Cluster

def Frame.isPumping : Frame → Bool
  | .pumping .. => true
  | _ => false

/-- A response to the request of this job is still to be sent. -/
def Frame.awaits (id : Id) : Frame → Bool
  | .pumping job (some _) (some _) _ => job = id
  | _ => false

/-- A call of `complete`. -/
def Frame.completing : Frame → Bool
  | .pumping .. => true
  | .finishing job => job.isSome
  | .connecting _ => false

namespace Note

def admits (id : Id) : Note → Bool
  | .admitted job _ => job = id
  | _ => false

def completes (id : Id) : Note → Bool
  | .completed job health _ _ => !health && job = id
  | _ => false

def aborts (id : Id) : Note → Bool
  | .completed job health cause _ => !health && cause = .aborted && job = id
  | _ => false

def finishes (id : Id) : Note → Bool
  | .finished (some job) _ _ _ => job = id
  | _ => false

/-- A health check completed. -/
def checks : Note → Bool
  | .completed _ health _ _ => health
  | _ => false

end Note

/-- One for an admitted job that is not completed. -/
def live (jobs : Id → Option Job) (id : Id) : Nat :=
  match jobs id with
  | some job => if job.health then 0 else 1
  | none => 0

theorem live_update (jobs : Id → Option Job) (id other : Id) (job : Option Job) :
    live (Function.update jobs id job) other =
      if other = id then live (fun _ => job) id else live jobs other := by
  by_cases same : other = id
  · subst same
    simp [live]
  · simp [live,same]

/-- Where the jobs are. -/
structure Queues (config : Config) (s : State) : Prop where
  active_le : s.active.length ≤ config.connections
  pending_le : s.pending.length ≤ config.queue
  placed : ∀ id, s.active.count id + s.pending.count id = live s.jobs id
  pumping : s.stack.countP Frame.isPumping = if s.pumping then 1 else 0
  full : s.pumping = false → s.pending ≠ [] → s.active.length = config.connections

/-- How often each job was admitted, completed and answered, when `owed` tells which answers
the running call still has to send. -/
structure Accounts (owed : Id → Nat) (s : State) : Prop where
  unborn : ∀ id, s.fresh ≤ id → s.jobs id = none ∧ s.log.countP (Note.admits id) = 0
  once : ∀ id, s.log.countP (Note.admits id) ≤ 1
  admitted : ∀ id, s.log.countP (Note.admits id) = live s.jobs id + s.log.countP (Note.completes id)
  finished : ∀ id, s.log.countP (Note.completes id) =
    s.log.countP (Note.finishes id) + s.log.countP (Note.aborts id) + s.stack.countP (Frame.awaits id) + owed id
  owned : ∀ id job, s.jobs id = some job → job.health = false →
    (∃ request, job.request = some request ∧ .admitted id request ∈ s.log) ∧ job.grant.isSome ∧
      job.deadline = true
  anonymous : ∀ id job, s.jobs id = some job → job.health = true → job.request = none
  waiting : ∀ id request grant outcome, .pumping id (some request) grant outcome ∈ s.stack →
    .admitted id request ∈ s.log
  answered : ∀ id request outcome grant, .finished (some id) request outcome grant ∈ s.log →
    .admitted id request ∈ s.log

/-- The answer a `complete` call sends once its loop is over. -/
def owes (id : Id) (request : Option Nat) (grant : Option Prepared) (other : Id) : Nat :=
  if id = other ∧ request.isSome ∧ grant.isSome then 1 else 0

variable {config : Config} {id : Id} {job old : Job} {outcome : Ledger.Outcome} {fenced : Bool} {cause : Cause}

@[simp] theorem release_pumping (s : State) : (release s id job outcome fenced cause).pumping = s.pumping := by
  unfold release fence settleHealth detach
  cases fenced <;> cases job.health <;> rfl

@[simp] theorem release_stack (s : State) : (release s id job outcome fenced cause).stack = s.stack := by
  unfold release fence settleHealth detach
  cases fenced <;> cases job.health <;> rfl

@[simp] theorem release_jobs (s : State) :
    (release s id job outcome fenced cause).jobs = Function.update s.jobs id none := by
  unfold release fence settleHealth detach
  cases fenced <;> cases job.health <;> rfl

/-- A completed job is freed. -/
theorem complete_jobs : (complete s id job outcome fenced clock cause).jobs id = none := by
  unfold complete finishJob
  simp only
  split
  · split
    · rw [release_jobs,Function.update_self]
    · rw [release_jobs,Function.update_self]
  · rw [release_jobs,Function.update_self]

@[simp] theorem release_fresh (s : State) : (release s id job outcome fenced cause).fresh = s.fresh := by
  unfold release fence settleHealth detach
  cases fenced <;> cases job.health <;> rfl

@[simp] theorem release_log (s : State) : (release s id job outcome fenced cause).log =
    s.log ++ [.completed id job.health cause s.msec] := by
  unfold release fence settleHealth detach
  cases fenced <;> cases job.health <;> rfl

theorem release_active (s : State) : (release s id job outcome fenced cause).active =
    if job.health then s.active else s.active.filter (· ≠ id) := by
  unfold release fence settleHealth detach
  cases fenced <;> cases job.health <;> rfl

theorem release_pending (s : State) : (release s id job outcome fenced cause).pending =
    if job.health then s.pending else s.pending.filter (· ≠ id) := by
  unfold release fence settleHealth detach
  cases fenced <;> cases job.health <;> rfl

@[simp] theorem release_msec (s : State) : (release s id job outcome fenced cause).msec = s.msec := by
  unfold release fence settleHealth detach
  cases fenced <;> cases job.health <;> rfl

theorem release_fenced (s : State) :
    (release s id job outcome fenced cause).fenced = (s.fenced || fenced) := by
  unfold release fence settleHealth detach
  cases fenced <;> cases job.health <;> simp

theorem release_healthBusy (s : State) :
    (release s id job outcome fenced cause).healthBusy = (s.healthBusy && !job.health) := by
  unfold release fence settleHealth detach
  cases fenced <;> cases job.health <;> simp

theorem release_ready (s : State) : (release s id job outcome fenced cause).ready =
    if job.health then outcome = .accepted && !(s.fenced || fenced) else s.ready && !fenced := by
  unfold release fence settleHealth detach
  cases fenced <;> cases job.health <;> simp

theorem release_lastOk (s : State) (id : Id) (job : Job) (outcome : Ledger.Outcome) (fenced : Bool)
    (cause : Cause) : (release s id job outcome fenced cause).lastOk =
    if job.health && (release s id job outcome fenced cause).ready then s.msec else s.lastOk := by
  unfold release fence settleHealth detach
  cases fenced <;> cases job.health <;> simp

section Queues

variable {s : State}

theorem finishJob_queues (queues : Queues config s) : Queues config (finishJob s id request grant outcome) := by
  obtain ⟨active_le, pending_le, placed, pumping, full⟩ := queues
  unfold finishJob
  split
  · exact ⟨active_le, pending_le, placed, by simpa [Frame.isPumping] using pumping, full⟩
  · exact ⟨active_le, pending_le, placed, pumping, full⟩

/-- A completed job is in neither queue. -/
theorem release_placed (queues : Queues config s) (known : s.jobs id = some old)
    (kind : job.health = old.health) (other : Id) :
    (release s id job outcome fenced cause).active.count other +
      (release s id job outcome fenced cause).pending.count other =
      live (Function.update s.jobs id none) other := by
  have placed := queues.placed other
  rw [release_active,release_pending,live_update]
  by_cases same : other = id
  · subst same
    simp only [live,known] at placed
    cases health : job.health with
    | true => simpa [live,← kind,health] using placed
    | false => simp [live,List.count_eq_zero]
  · rw [if_neg same]
    cases health : job.health with
    | true => simpa using placed
    | false => simpa [List.count_filter,same] using placed

theorem complete_queues (queues : Queues config s) (known : s.jobs id = some old)
    (kind : job.health = old.health) :
    Queues config (complete s id job outcome fenced clock cause) := by
  have active_le : (release s id job outcome fenced cause).active.length ≤ config.connections := by
    rw [release_active]
    split
    · exact queues.active_le
    · exact Nat.le_trans (List.length_filter_le _ _) queues.active_le
  have pending_le : (release s id job outcome fenced cause).pending.length ≤ config.queue := by
    rw [release_pending]
    split
    · exact queues.pending_le
    · exact Nat.le_trans (List.length_filter_le _ _) queues.pending_le
  have placed : ∀ other, (release s id job outcome fenced cause).active.count other +
      (release s id job outcome fenced cause).pending.count other = _ := release_placed queues known kind
  have pumping := queues.pumping
  unfold complete
  simp only [release_pumping,release_stack]
  cases running : s.pumping with
  | true =>
    rw [running] at pumping
    apply finishJob_queues
    exact ⟨active_le, pending_le, by simpa using placed, by simpa [running] using pumping,
      by simp [running]⟩
  | false =>
    rw [running] at pumping
    exact ⟨active_le, pending_le, by simpa using placed,
      by simpa [Frame.isPumping,List.countP_cons] using pumping, nofun⟩

theorem refuse_queues (queues : Queues config s) : Queues config (refuse s request grant) := by
  obtain ⟨active_le, pending_le, placed, pumping, full⟩ := queues
  refine ⟨active_le, pending_le, placed, ?_, full⟩
  rw [refuse,List.countP_cons_of_neg (by simp [Frame.isPumping])]
  exact pumping

theorem redeem_queues (queues : Queues config s) (unborn : s.jobs s.fresh = none) :
    Queues config (redeem crates config s request token expires grant memory clock) := by
  have refused : Queues config (refuse s request grant) := refuse_queues queues
  obtain ⟨active_le, pending_le, placed, pumping, full⟩ := queues
  have absent := placed s.fresh
  simp only [live,unborn] at absent
  have born : ∀ job : Job, job.health = false → ∀ other,
      live (Function.update s.jobs s.fresh (some job)) other =
        (if other = s.fresh then 1 else s.active.count other + s.pending.count other) := by
    intro job redemption other
    rw [live_update,placed other]
    simp [live,redemption]
  rcases redeem_cases crates config s request token expires grant memory clock with
    refusal | ⟨spare, dialled⟩ | ⟨busy, short, queued⟩
  · rw [refusal]
    exact refused
  · simp only [dialled,enrol]
    refine ⟨by simpa [Nat.succ_le_iff] using spare, pending_le, ?_, by simpa [Frame.isPumping] using pumping, ?_⟩
    · intro other
      rw [born _ rfl]
      by_cases same : other = s.fresh
      · subst same
        simp only [List.count_append,List.count_singleton_self,if_true]
        omega
      · simp [same,List.count_append,Ne.symm same]
    · intro quiet waiting
      have := full quiet waiting
      omega
  · simp only [queued,enrol]
    refine ⟨active_le, by simpa [Nat.succ_le_iff] using short, ?_, by simpa using pumping, ?_⟩
    · intro other
      rw [born _ rfl]
      by_cases same : other = s.fresh
      · subst same
        simp only [List.count_append,List.count_singleton_self,if_true]
        omega
      · simp [same,List.count_append,Ne.symm same]
    · intro _ _
      exact Nat.le_antisymm active_le busy

/-- A table that differs only by health jobs, or inside jobs, places the same. -/
theorem Queues.jobs (queues : Queues config s) (jobs : Id → Option Job)
    (same : ∀ other, live jobs other = live s.jobs other) : Queues config { s with jobs } := by
  obtain ⟨active_le, pending_le, placed, pumping, full⟩ := queues
  refine ⟨active_le, pending_le, ?_, pumping, full⟩
  intro other
  rw [placed other]
  exact (same other).symm

/-- Only the loop in `complete` is tracked on the stack. -/
theorem Queues.stack (queues : Queues config s) (stack : List Frame)
    (same : stack.countP Frame.isPumping = s.stack.countP Frame.isPumping) : Queues config { s with stack } := by
  obtain ⟨active_le, pending_le, placed, pumping, full⟩ := queues
  exact ⟨active_le, pending_le, placed, same.trans pumping, full⟩

theorem poll_queues (queues : Queues config s) (unborn : s.jobs s.fresh = none) : Queues config (poll config s) := by
  unfold poll
  split
  · obtain ⟨active_le, pending_le, placed, pumping, full⟩ := queues
    refine ⟨active_le, pending_le, ?_, by simpa [Frame.isPumping] using pumping, full⟩
    intro other
    have before := placed other
    rw [live_update]
    by_cases same : other = s.fresh
    · subst same
      simpa [live,unborn,makeHealth] using before
    · simpa [same] using before
  · exact queues

theorem pump_queues (queues : Queues config s) (top : s.stack = .pumping id request grant outcome :: rest) :
    Queues config (pump config s rest id request grant outcome) := by
  obtain ⟨active_le, pending_le, placed, pumping, full⟩ := queues
  have below : s.pumping = true ∧ rest.countP Frame.isPumping = 0 := by
    rw [top,List.countP_cons_of_pos rfl] at pumping
    cases running : s.pumping with
    | true => simpa [running] using pumping
    | false => simp [running] at pumping
  have ended : (s.pending ≠ [] → s.active.length = config.connections) →
      Queues config (finishJob { s with pumping := false, stack := rest } id request grant outcome) := by
    intro drained
    apply finishJob_queues
    exact ⟨active_le, pending_le, placed, below.2, fun _ => drained⟩
  rcases pump_cases config s rest id request grant outcome with ⟨first, more, queued, spare, dialled⟩ | ⟨drained, stopped⟩
  · rw [dialled]
    rw [queued,List.length_cons] at pending_le
    refine ⟨by simpa [Nat.succ_le_iff] using spare, by simp only; omega, ?_, ?_, ?_⟩
    · intro other
      have before := placed other
      rw [queued] at before
      simp only [List.count_append,List.count_cons,List.count_nil] at before ⊢
      omega
    · rw [List.countP_cons_of_neg (by simp [Frame.isPumping])]
      exact pumping
    · intro quiet
      rw [below.1] at quiet
      cases quiet
  · rw [stopped]
    apply ended
    intro waiting
    have := drained waiting
    omega

end Queues

section Accounts

variable {s : State}

/-- The jobs left after one is freed. -/
theorem freed_jobs (found : Function.update s.jobs id none other = some job) :
    other ≠ id ∧ s.jobs other = some job := by
  by_cases same : other = id
  · simp [same] at found
  · exact ⟨same, by simpa [same] using found⟩

theorem awaits_cons (stack : List Frame) (request : Option Nat) (grant : Option Prepared) (other : Id) :
    (Frame.pumping id request grant outcome :: stack).countP (Frame.awaits other) =
      stack.countP (Frame.awaits other) + owes id request grant other := by
  rw [List.countP_cons]
  congr 1
  unfold owes Frame.awaits
  cases request with
  | none => simp
  | some _ =>
    cases grant with
    | none => simp
    | some _ => simp

theorem finishJob_accounts (accounts : Accounts (owes id request grant) s)
    (known : ∀ r, request = some r → .admitted id r ∈ s.log) :
    Accounts (fun _ => 0) (finishJob s id request grant outcome) := by
  obtain ⟨unborn, once, admitted, finished, owned, anonymous, waiting, answered⟩ := accounts
  cases request with
  | none =>
    exact ⟨unborn, once, admitted, by simpa [finishJob,owes] using finished, owned, anonymous, waiting, answered⟩
  | some r =>
    cases grant with
    | none =>
      exact ⟨unborn, once, admitted, by simpa [finishJob,owes] using finished, owned, anonymous, waiting, answered⟩
    | some g =>
      refine ⟨?_, ?_, ?_, ?_, ?_, anonymous, ?_, ?_⟩
      · simpa [finishJob,Note.admits,List.countP_append] using unborn
      · simpa [finishJob,Note.admits,List.countP_append] using once
      · simpa [finishJob,Note.admits,Note.completes,List.countP_append] using admitted
      · intro other
        have before := finished other
        simp only [finishJob,List.countP_append,List.countP_cons,List.countP_nil,Note.completes,Note.finishes,
          Note.aborts,Frame.awaits,owes] at before ⊢
        simp at before ⊢
        omega
      · intro other job found health
        obtain ⟨⟨r', same, member⟩, rest⟩ := owned other job found health
        exact ⟨⟨r', same, List.mem_append_left _ member⟩, rest⟩
      · intro other r' g' o' member
        simp only [finishJob,List.mem_cons,reduceCtorEq,false_or] at member
        exact List.mem_append_left _ (waiting other r' g' o' member)
      · intro other r' o' g' member
        simp only [finishJob,List.mem_append,List.mem_cons,Note.finished.injEq,Option.some.injEq,List.not_mem_nil,
          or_false] at member
        rcases member with old | ⟨rfl, rfl, _, _⟩
        · exact List.mem_append_left _ (answered other r' o' g' old)
        · exact List.mem_append_left _ (known r' rfl)

theorem release_accounts (accounts : Accounts (fun _ => 0) s) (alive : s.jobs id = some old)
    (kind : job.health = old.health)
    (answer : (job.request.isSome ∧ job.grant.isSome) ↔ job.health = false ∧ cause ≠ .aborted) :
    Accounts (owes id job.request job.grant) (release s id job outcome fenced cause) := by
  obtain ⟨unborn, once, admitted, finished, owned, anonymous, waiting, answered⟩ := accounts
  refine ⟨?_, ?_, ?_, ?_, ?_, ?_, ?_, ?_⟩
  · intro other late
    rw [release_fresh] at late
    obtain ⟨absent, count⟩ := unborn other late
    have apart : other ≠ id := by
      rintro rfl
      rw [absent] at alive
      cases alive
    simp [apart,absent,Note.admits,List.countP_append,count]
  · simpa [Note.admits,List.countP_append] using once
  · intro other
    have before := admitted other
    rw [release_jobs,release_log,live_update]
    by_cases same : other = id
    · subst same
      simp only [live,alive,← kind] at before
      cases health : job.health with
      | true => simpa [live,Note.admits,Note.completes,List.countP_append,health] using before
      | false =>
        simp [live,Note.admits,Note.completes,List.countP_append,health] at before ⊢
        omega
    · simpa [live,Note.admits,Note.completes,List.countP_append,same,Ne.symm same] using before
  · intro other
    have before := finished other
    rw [release_log,release_stack]
    by_cases same : id = other
    · subst same
      by_cases owing : job.health = false ∧ cause ≠ .aborted
      · have due := answer.mpr owing
        simp [Note.completes,Note.finishes,Note.aborts,List.countP_append,owes,due,owing]
        omega
      · have none := mt answer.mp owing
        simp only [not_and,not_not] at owing
        cases health : job.health with
        | true =>
          simp [Note.completes,Note.finishes,Note.aborts,List.countP_append,owes,none]
          omega
        | false =>
          simp [Note.completes,Note.finishes,Note.aborts,List.countP_append,owes,none,owing health]
          omega
    · simp [Note.completes,Note.finishes,Note.aborts,List.countP_append,owes,same]
      omega
  · intro other job' found health
    rw [release_jobs] at found
    by_cases same : other = id
    · simp [same] at found
    · rw [Function.update_of_ne same] at found
      obtain ⟨⟨r, request, member⟩, rest⟩ := owned other job' found health
      rw [release_log]
      exact ⟨⟨r, request, List.mem_append_left _ member⟩, rest⟩
  · intro other job' found
    rw [release_jobs] at found
    exact anonymous other job' (freed_jobs found).2
  · intro other r g o member
    rw [release_stack] at member
    rw [release_log]
    exact List.mem_append_left _ (waiting other r g o member)
  · intro other r o g member
    rw [release_log] at member ⊢
    simp only [List.mem_append,List.mem_cons,reduceCtorEq,List.not_mem_nil,or_false] at member
    exact List.mem_append_left _ (answered other r o g member)

/-- Entering the loop records the answer that is owed on the stack. -/
theorem Accounts.enter (accounts : Accounts (owes id request grant) s)
    (known : ∀ r, request = some r → .admitted id r ∈ s.log) :
    Accounts (fun _ => 0) { s with pumping := true, stack := .pumping id request grant outcome :: s.stack } := by
  obtain ⟨unborn, once, admitted, finished, owned, anonymous, waiting, answered⟩ := accounts
  refine ⟨unborn, once, admitted, ?_, owned, anonymous, ?_, answered⟩
  · intro other
    simp only [awaits_cons]
    have := finished other
    omega
  · intro other r g o member
    rcases List.mem_cons.mp member with same | old
    · simp only [Frame.pumping.injEq] at same
      obtain ⟨rfl, same, _, _⟩ := same
      exact known r same.symm
    · exact waiting other r g o old

/-- Leaving it takes the answer off the stack again. -/
theorem Accounts.exit (accounts : Accounts (fun _ => 0) s)
    (top : s.stack = .pumping id request grant outcome :: rest) :
    Accounts (owes id request grant) { s with pumping := false, stack := rest } := by
  obtain ⟨unborn, once, admitted, finished, owned, anonymous, waiting, answered⟩ := accounts
  refine ⟨unborn, once, admitted, ?_, owned, anonymous, ?_, answered⟩
  · intro other
    have before := finished other
    rw [top,awaits_cons] at before
    simp only at before ⊢
    omega
  · intro other r g o member
    apply waiting other r g o
    rw [top]
    exact List.mem_cons_of_mem _ member

theorem complete_accounts (accounts : Accounts (fun _ => 0) s) (alive : s.jobs id = some old)
    (kind : job.health = old.health)
    (answer : (job.request.isSome ∧ job.grant.isSome) ↔ job.health = false ∧ cause ≠ .aborted)
    (known : ∀ r, job.request = some r → .admitted id r ∈ s.log) :
    Accounts (fun _ => 0) (complete s id job outcome fenced clock cause) := by
  have released : Accounts _ (release s id job outcome fenced cause) :=
    release_accounts accounts alive kind answer
  have kept : ∀ r, job.request = some r → .admitted id r ∈ (release s id job outcome fenced cause).log := by
    intro r same
    rw [release_log]
    exact List.mem_append_left _ (known r same)
  unfold complete
  simp only
  split
  · exact finishJob_accounts released kept
  · exact released.enter kept

theorem refuse_accounts (accounts : Accounts (fun _ => 0) s) : Accounts (fun _ => 0) (refuse s request grant) := by
  obtain ⟨unborn, once, admitted, finished, owned, anonymous, waiting, answered⟩ := accounts
  refine ⟨?_, ?_, ?_, ?_, ?_, anonymous, ?_, ?_⟩
  · simpa [refuse,Note.admits,List.countP_append] using unborn
  · simpa [refuse,Note.admits,List.countP_append] using once
  · simpa [refuse,Note.admits,Note.completes,List.countP_append] using admitted
  · simpa [refuse,Note.completes,Note.finishes,Note.aborts,Frame.awaits,List.countP_append] using finished
  · intro other job found health
    obtain ⟨⟨r, same, member⟩, rest⟩ := owned other job found health
    exact ⟨⟨r, same, List.mem_append_left _ member⟩, rest⟩
  · intro other r g o member
    simp only [refuse,List.mem_cons,reduceCtorEq,false_or] at member
    exact List.mem_append_left _ (waiting other r g o member)
  · intro other r o g member
    simp only [refuse,List.mem_append,List.mem_cons,Note.finished.injEq,reduceCtorEq,false_and,List.not_mem_nil,
      or_false] at member
    exact List.mem_append_left _ (answered other r o g member)

/-- What is noted when a job is made: the admission of its request, or nothing for a health check. -/
inductive Birth (fresh : Id) (job : Job) : List Note → Prop where
  | health (check : job.health = true) (bare : job.request = none) : Birth fresh job []
  | redemption (request : Nat) (check : job.health = false) (asks : job.request = some request)
    (carries : job.grant.isSome) (timed : job.deadline = true) : Birth fresh job [.admitted fresh request]

/-- A birth is invisible to every count but that of its own admission. -/
theorem Birth.quiet (birth : Birth fresh job more) (log : List Note) (p : Note → Bool)
    (blind : ∀ request, p (.admitted fresh request) = false) : (log ++ more).countP p = log.countP p := by
  cases birth with
  | health => simp
  | redemption request => simp [List.countP_append,blind]

theorem Birth.admits (birth : Birth fresh job more) (log : List Note)
    (absent : log.countP (Note.admits fresh) = 0) :
    (log ++ more).countP (Note.admits fresh) = live (fun _ => some job) fresh := by
  cases birth with
  | health check => simp [live,check,absent]
  | redemption request check => simp [live,check,absent,Note.admits,List.countP_append]

/-- A job of an updated table is the new one or an old one elsewhere. -/
theorem updated_jobs (found : Function.update s.jobs id (some job) other = some job') :
    (other = id ∧ job' = job) ∨ (other ≠ id ∧ s.jobs other = some job') := by
  by_cases same : other = id
  · subst same
    simp only [Function.update_self,Option.some.injEq] at found
    exact .inl ⟨rfl, found.symm⟩
  · rw [Function.update_of_ne same] at found
    exact .inr ⟨same, found⟩

/-- A fresh job enters the books when its admission is noted, and a health job without one. -/
theorem Accounts.born (accounts : Accounts (fun _ => 0) s) (birth : Birth s.fresh job more) :
    Accounts (fun _ => 0) { s with
      jobs := Function.update s.jobs s.fresh (some job)
      fresh := s.fresh + 1
      log := s.log ++ more } := by
  obtain ⟨unborn, once, admitted, finished, owned, anonymous, waiting, answered⟩ := accounts
  obtain ⟨absent, new⟩ := unborn s.fresh (Nat.le_refl _)
  have empty := admitted s.fresh
  rw [new] at empty
  simp only [live,absent] at empty
  have mine := birth.admits s.log new
  have admits : ∀ other, other ≠ s.fresh →
      (s.log ++ more).countP (Note.admits other) = s.log.countP (Note.admits other) :=
    fun other apart => birth.quiet s.log _ fun _ => by simp [Note.admits,Ne.symm apart]
  refine ⟨?_, ?_, ?_, ?_, ?_, ?_, ?_, ?_⟩
  · intro other late
    simp only at late
    have apart : other ≠ s.fresh := Ne.symm (Nat.ne_of_lt late)
    obtain ⟨gone, count⟩ := unborn other (Nat.le_of_lt late)
    simp only [Function.update_of_ne apart]
    exact ⟨gone, by rw [admits other apart,count]⟩
  · intro other
    by_cases same : other = s.fresh
    · subst same
      rw [mine]
      simp only [live]
      split <;> omega
    · simp only [admits other same]
      exact once other
  · intro other
    simp only [live_update,birth.quiet s.log (Note.completes other) fun _ => rfl]
    by_cases same : other = s.fresh
    · subst same
      rw [mine,if_pos rfl]
      omega
    · rw [if_neg same,admits other same]
      exact admitted other
  · intro other
    simp only [birth.quiet s.log (Note.completes other) fun _ => rfl,birth.quiet s.log (Note.finishes other) fun _ => rfl,
      birth.quiet s.log (Note.aborts other) fun _ => rfl]
    exact finished other
  · intro other job' found health
    rcases updated_jobs found with ⟨rfl, rfl⟩ | ⟨_, found⟩
    · cases birth with
      | health check =>
        rw [health] at check
        cases check
      | redemption request _ asks carries timed => exact ⟨⟨request, asks, by simp⟩, carries, timed⟩
    · obtain ⟨⟨r, request, member⟩, rest⟩ := owned other job' found health
      exact ⟨⟨r, request, List.mem_append_left _ member⟩, rest⟩
  · intro other job' found health
    rcases updated_jobs found with ⟨rfl, rfl⟩ | ⟨_, found⟩
    · cases birth with
      | health _ bare => exact bare
      | redemption request check =>
        rw [health] at check
        cases check
    · exact anonymous other job' found health
  · intro other r g o member
    exact List.mem_append_left _ (waiting other r g o member)
  · intro other r o g member
    rcases List.mem_append.mp member with old | new
    · exact List.mem_append_left _ (answered other r o g old)
    · cases birth with
      | health => cases new
      | redemption => simp at new

/-- The queues and the flags are not accounted for, and frames that owe nothing come and go. -/
theorem Accounts.frame {t : State} (accounts : Accounts (fun _ => 0) s) (fresh : t.fresh = s.fresh)
    (jobs : t.jobs = s.jobs) (log : t.log = s.log)
    (same : ∀ other, t.stack.countP (Frame.awaits other) = s.stack.countP (Frame.awaits other))
    (old : ∀ id request grant outcome, .pumping id request grant outcome ∈ t.stack →
      .pumping id request grant outcome ∈ s.stack) : Accounts (fun _ => 0) t := by
  obtain ⟨unborn, once, admitted, finished, owned, anonymous, waiting, answered⟩ := accounts
  rw [← jobs,← log,← fresh] at unborn
  rw [← log] at once answered waiting
  rw [← jobs,← log] at admitted owned
  rw [← jobs] at anonymous
  refine ⟨unborn, once, admitted, ?_, owned, anonymous, ?_, answered⟩
  · intro other
    rw [log,same other]
    exact finished other
  · intro other r g o member
    exact waiting other r g o (old other _ _ _ member)

/-- `connect` is called. -/
theorem Accounts.dial {t : State} (accounts : Accounts (fun _ => 0) s) (fresh : t.fresh = s.fresh)
    (jobs : t.jobs = s.jobs) (log : t.log = s.log) (stack : t.stack = .connecting id :: s.stack) :
    Accounts (fun _ => 0) t := by
  apply accounts.frame fresh jobs log
  · intro other
    rw [stack]
    exact List.countP_cons_of_neg (by simp [Frame.awaits])
  · intro id r g o member
    rw [stack] at member
    simpa using member

/-- A job may change in what is not accounted for. -/
theorem Accounts.jobs (accounts : Accounts (fun _ => 0) s) (alive : s.jobs id = some old)
    (same : job.health = old.health ∧ job.request = old.request ∧ job.grant = old.grant)
    (armed : old.deadline = true → job.deadline = true) :
    Accounts (fun _ => 0) { s with jobs := Function.update s.jobs id (some job) } := by
  obtain ⟨unborn, once, admitted, finished, owned, anonymous, waiting, answered⟩ := accounts
  refine ⟨?_, once, ?_, finished, ?_, ?_, waiting, answered⟩
  · intro other late
    obtain ⟨gone, count⟩ := unborn other late
    have apart : other ≠ id := by
      rintro rfl
      rw [gone] at alive
      cases alive
    exact ⟨by simpa [apart] using gone, count⟩
  · intro other
    have before := admitted other
    simp only [live_update]
    by_cases here : other = id
    · subst here
      simpa [live,alive,same.1] using before
    · simpa [here] using before
  · intro other job' found health
    rcases updated_jobs found with ⟨rfl, rfl⟩ | ⟨_, found⟩
    · obtain ⟨⟨r, request, member⟩, grant, deadline⟩ := owned other old alive (by rw [← same.1,health])
      exact ⟨⟨r, same.2.1.trans request, member⟩, by rw [same.2.2]; exact grant, armed deadline⟩
    · exact owned other job' found health
  · intro other job' found health
    rcases updated_jobs found with ⟨rfl, rfl⟩ | ⟨_, found⟩
    · rw [same.2.1]
      exact anonymous other old alive (by rw [← same.1,health])
    · exact anonymous other job' found health

theorem redeem_accounts (accounts : Accounts (fun _ => 0) s) :
    Accounts (fun _ => 0) (redeem crates config s request token expires grant memory clock) := by
  have refused : Accounts (fun _ => 0) (refuse s request grant) := refuse_accounts accounts
  have birth : Birth s.fresh { makeJob crates config request grant token expires clock with
      cleanup := true, deadline := true } [.admitted s.fresh request] := .redemption request rfl rfl rfl rfl
  have admitted : Accounts (fun _ => 0) (enrol crates config s request token expires grant clock) := accounts.born birth
  rcases redeem_cases crates config s request token expires grant memory clock with
    refusal | ⟨_, dialled⟩ | ⟨_, _, queued⟩
  · rw [refusal]
    exact refused
  · rw [dialled]
    exact admitted.dial rfl rfl rfl rfl
  · rw [queued]
    exact admitted.frame rfl rfl rfl (fun _ => rfl) fun _ _ _ _ member => member

theorem poll_accounts (accounts : Accounts (fun _ => 0) s) : Accounts (fun _ => 0) (poll config s) := by
  unfold poll
  split
  · have born := accounts.born (.health rfl rfl : Birth s.fresh (makeHealth config) [])
    exact born.dial rfl rfl (List.append_nil _).symm rfl
  · exact accounts

end Accounts

end PowGate.Cluster
