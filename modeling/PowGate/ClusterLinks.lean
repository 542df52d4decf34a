import PowGate.ClusterAnswers

/-! The connections of a worker's jobs. A job is connected at most once, Redis answers at
most once on each connection, and the answer reaches the job in pieces of any size. Hence
a job that read the reply 1 was sent it, for the redemption its request asked for. -/
namespace PowGate.Cluster

open Text

/-- What Redis puts on a connection: the integer a script returned, or an error to `AUTH` or
to the script, and whatever follows it. -/
inductive Answer where
  | integer (value : Int)
  | error (welcomed : Bool) (rest : Bytes)

def Answer.bytes (auth : Bool) : Answer → Bytes
  | .integer value => Resp.greeting auth ++ (58 :: Text.integer value ++ 13 :: 10 :: [])
  | .error welcomed rest => Resp.greeting (auth && welcomed) ++ 45 :: rest

/-- The connection of a job: the script sent on it, what Redis answered, and how much of the
answer was delivered. -/
structure Wire where
  output : Option Script
  answer : Option Answer
  heard : Nat

namespace Wire

def closed : Wire := ⟨none, none, 0⟩

def bytes (wire : Wire) (auth : Bool) : Bytes :=
  match wire.answer with
  | some answer => answer.bytes auth
  | none => []

/-- The next bytes to be delivered, at most `count`. -/
def chunk (wire : Wire) (auth : Bool) (count : Nat) : Bytes := ((wire.bytes auth).drop wire.heard).take count

def hear (wire : Wire) (count : Nat) : Wire := { wire with heard := wire.heard + count }

end Wire

/-- The job has read what was delivered, up to the greeting it has taken off. -/
def Fed (auth : Bool) (job : Job) (wire : Wire) : Prop :=
  ∃ passed, Resp.greeting auth = passed ++ Resp.greeting job.auth ∧
    (wire.bytes auth).take wire.heard = passed ++ job.input

section Bytes

variable {auth : Bool} {job : Job} {wire : Wire}

theorem error_line (cut : Resp.line (45 :: rest) = some text) : Resp.parse text = .ok .error := by
  have step : Resp.line (45 :: rest) = (Resp.line rest).map (45 :: ·) := by
    rw [Resp.line]
    intro after same
    cases same
  rw [step] at cut
  obtain ⟨tail, _, rfl⟩ := Option.map_eq_some_iff.mp cut
  exact Resp.parse_error tail

/-- Who reads the integer 1 after the greeting was answered by the integer 1. -/
theorem Answer.reads_one {answer : Answer} (whole : answer.bytes auth = Resp.greeting auth ++ (body ++ rest))
    (cut : Resp.line body = some text) (parsed : Resp.parse text = .ok (.integer 1))
    (range : ∀ value, answer = .integer value → value ∈ Redis.replies) : answer = .integer 1 := by
  have first : Resp.line (body ++ rest) = some text := Resp.line_append cut
  have refused : ∀ tail, body ++ rest ≠ 45 :: tail := by
    intro tail same
    rw [same] at first
    rw [error_line first] at parsed
    cases parsed
  cases answer with
  | integer value =>
    have same := List.append_cancel_left whole
    have plain : 13 ∉ 58 :: Text.integer value ∧
        (Resp.parse (58 :: Text.integer value) = .ok (.integer 1) → value = 1) := by
      have listed := range value rfl
      simp only [Redis.replies,List.mem_cons,List.not_mem_nil,or_false] at listed
      rcases listed with rfl | rfl | rfl | rfl | rfl <;> decide
    rw [← same,Resp.line_plain plain.1] at first
    obtain rfl := Option.some.inj first
    rw [plain.2 parsed]
  | error welcomed tail =>
    cases auth with
    | false => exact absurd whole.symm (refused tail)
    | true =>
      cases welcomed with
      | true => exact absurd (List.append_cancel_left whole).symm (refused tail)
      | false =>
        have := congrArg List.head? whole
        cases this

theorem Wire.take_hear (wire : Wire) (auth : Bool) (count : Nat) : ((wire.hear count).bytes auth).take (wire.hear count).heard =
    (wire.bytes auth).take wire.heard ++ wire.chunk auth count :=
  List.take_add

theorem Fed.fresh : Fed auth { job with input := [], auth := auth } .closed :=
  ⟨[], rfl, rfl⟩

/-- Fragments are put together again. -/
theorem Fed.more (fed : Fed auth job wire)
    (read : Resp.receive job.auth job.input (wire.chunk auth count) = .more auth' input') :
    Fed auth { job with auth := auth', input := input' } (wire.hear count) := by
  obtain ⟨passed, greeted, taken⟩ := fed
  unfold Resp.receive at read
  split at read
  · cases read
  obtain ⟨skipped, greeted', split⟩ := Resp.scan_more read
  refine ⟨passed ++ skipped, ?_, ?_⟩
  · rw [greeted,greeted',List.append_assoc]
  · rw [Wire.take_hear,taken,List.append_assoc,split,List.append_assoc]

/-- A reply is the first line Redis sent after the greeting. -/
theorem Fed.replied (fed : Fed auth job wire)
    (read : Resp.receive job.auth job.input (wire.chunk auth count) = .replied found) :
    ∃ body text rest, wire.bytes auth = Resp.greeting auth ++ (body ++ rest) ∧ Resp.line body = some text ∧
      Resp.parse text = .ok found := by
  obtain ⟨passed, greeted, taken⟩ := fed
  unfold Resp.receive at read
  split at read
  · cases read
  obtain ⟨body, text, split, cut, parsed⟩ := Resp.scan_replied read
  refine ⟨body, text, (wire.bytes auth).drop (wire.heard + count), ?_, cut, parsed⟩
  have front : (wire.bytes auth).take (wire.heard + count) = Resp.greeting auth ++ body := by
    have delivered := wire.take_hear auth count
    rw [taken,List.append_assoc,split] at delivered
    rw [greeted,List.append_assoc]
    exact delivered
  rw [← List.append_assoc,← front,List.take_append_drop]

end Bytes

/-- No connection is being opened: waiting jobs are not connected. -/
structure Calm (config : Config) (s : State) : Prop where
  idle : ∀ id, .connecting id ∉ s.stack
  waiting : ∀ id job, id ∈ s.pending → s.jobs id = some job → job.connection = false
  checks : ∀ id job, s.jobs id = some job → job.health = true → job.output = .health config.epoch

/-- The only connection being opened is that of the call on top, for a job without one. -/
structure Dials (config : Config) (s : State) : Prop where
  tail : ∀ id, .connecting id ∉ s.stack.tail
  dialing : ∀ id rest, s.stack = .connecting id :: rest →
    id ∉ s.pending ∧ ∃ job, s.jobs id = some job ∧ job.connection = false
  waiting : ∀ id job, id ∈ s.pending → s.jobs id = some job → job.connection = false
  checks : ∀ id job, s.jobs id = some job → job.health = true → job.output = .health config.epoch

section Dialing

variable {crates : Crates} {config : Config} {s t : State} {id : Id} {job : Job} {outcome : Ledger.Outcome}
  {fenced : Bool} {cause : Cause}

theorem Calm.dials (calm : Calm config s) : Dials config s := by
  refine ⟨fun id member => calm.idle id (List.mem_of_mem_tail member), ?_, calm.waiting, calm.checks⟩
  intro id rest top
  exact absurd (top ▸ List.mem_cons_self) (calm.idle id)

/-- Below the call on top, and in an open state, nothing is being connected. -/
theorem Dials.below (dials : Dials config s) (top : s.stack = head :: rest) :
    Calm config { s with stack := rest } := by
  refine ⟨?_, dials.waiting, dials.checks⟩
  intro id member
  apply dials.tail id
  rw [top]
  exact member

theorem Dials.calm (dials : Dials config s) (opened : s.open = true) : Calm config s := by
  refine ⟨?_, dials.waiting, dials.checks⟩
  intro id member
  unfold State.open at opened
  split at opened
  · next empty =>
    rw [empty] at member
    cases member
  · next rest top =>
    rw [top] at member
    rcases List.mem_cons.mp member with same | deeper
    · cases same
    · exact dials.tail id (by rw [top]; exact deeper)
  · cases opened

theorem Calm.frame (calm : Calm config s) (stack : ∀ id, .connecting id ∈ t.stack → .connecting id ∈ s.stack)
    (pending : ∀ id ∈ t.pending, id ∈ s.pending) (jobs : ∀ id job, t.jobs id = some job → s.jobs id = some job) :
    Calm config t := by
  refine ⟨fun id member => calm.idle id (stack id member), ?_, fun id job found => calm.checks id job (jobs id job found)⟩
  intro id job member found
  exact calm.waiting id job (pending id member) (jobs id job found)

theorem finishJob_calm (calm : Calm config s) : Calm config (finishJob s id request grant outcome) := by
  unfold finishJob
  split
  · refine calm.frame ?_ (fun _ member => member) fun _ _ found => found
    intro id member
    rcases List.mem_cons.mp member with same | deeper
    · cases same
    · exact deeper
  · exact calm

theorem complete_calm (calm : Calm config s) : Calm config (complete s id job outcome fenced clock cause) := by
  have released : Calm config (release s id job outcome fenced cause) := by
    apply calm.frame
    · intro other member
      rwa [release_stack] at member
    · intro other member
      rw [release_pending] at member
      split at member
      · exact member
      · exact List.mem_of_mem_filter member
    · intro other job' found
      rw [release_jobs] at found
      exact (freed_jobs found).2
  unfold complete
  simp only
  split
  · exact finishJob_calm released
  · refine released.frame ?_ (fun _ member => member) fun _ _ found => found
    intro other member
    rcases List.mem_cons.mp member with same | deeper
    · cases same
    · exact deeper

theorem refuse_calm (calm : Calm config s) : Calm config (refuse s n grant) := by
  refine calm.frame ?_ (fun _ member => member) fun _ _ found => found
  intro id member
  rcases List.mem_cons.mp member with same | deeper
  · cases same
  · exact deeper

/-- A job enters or changes; it is not connected if it waits. -/
theorem Calm.update (calm : Calm config s) (id : Id) (job : Job) (waits : id ∈ s.pending → job.connection = false)
    (check : job.health = true → job.output = .health config.epoch) :
    Calm config { s with jobs := Function.update s.jobs id (some job) } := by
  refine ⟨calm.idle, ?_, ?_⟩
  · intro other job' member found
    rcases updated_jobs found with ⟨rfl, rfl⟩ | ⟨_, found⟩
    · exact waits member
    · exact calm.waiting other job' member found
  · intro other job' found
    rcases updated_jobs found with ⟨rfl, rfl⟩ | ⟨_, found⟩
    · exact check
    · exact calm.checks other job' found

theorem Calm.dial (calm : Calm config s) (jobs : t.jobs = s.jobs) (stack : t.stack = .connecting id :: s.stack)
    (pending : ∀ other ∈ t.pending, other ∈ s.pending) (apart : id ∉ t.pending) (alive : s.jobs id = some job)
    (unconnected : job.connection = false) : Dials config t := by
  refine ⟨?_, ?_, ?_, ?_⟩
  · intro other
    rw [stack]
    exact calm.idle other
  · intro other rest top
    rw [stack] at top
    obtain ⟨same, _⟩ := List.cons.inj top
    obtain rfl := Frame.connecting.inj same
    exact ⟨apart, job, by rw [jobs]; exact alive, unconnected⟩
  · intro other job' member found
    rw [jobs] at found
    exact calm.waiting other job' (pending other member) found
  · rw [jobs]
    exact calm.checks

theorem Queues.unqueued (queues : Queues config s) (absent : s.jobs id = none) : id ∉ s.pending := by
  have placed := queues.placed id
  simp only [live,absent] at placed
  rw [← List.count_eq_zero]
  omega

theorem redeem_dials (inv : Inv config s) (calm : Calm config s) :
    Dials config (redeem crates config s n token expires grant memory clock) := by
  have updated := calm.update s.fresh
    { makeJob crates config n grant token expires clock with cleanup := true, deadline := true } (fun _ => rfl) nofun
  have entered : Calm config (enrol crates config s n token expires grant clock) :=
    ⟨updated.idle, updated.waiting, updated.checks⟩
  rcases redeem_cases crates config s n token expires grant memory clock with
    refused | ⟨_, dialled⟩ | ⟨_, _, queued⟩
  · rw [refused]
    exact (refuse_calm calm).dials
  · rw [dialled]
    exact entered.dial rfl rfl (fun _ member => member) (inv.queues.unqueued inv.unborn)
      (Function.update_self _ _ _) rfl
  · rw [queued]
    refine Calm.dials ⟨entered.idle, ?_, entered.checks⟩
    intro id job member found
    rcases List.mem_append.mp member with old | new
    · exact entered.waiting id job old found
    · rw [List.mem_singleton.mp new] at found
      rcases updated_jobs found with ⟨_, rfl⟩ | ⟨apart, _⟩
      · rfl
      · exact absurd rfl apart

theorem poll_dials (inv : Inv config s) (calm : Calm config s) : Dials config (poll config s) := by
  unfold poll
  split
  · have entered := calm.update s.fresh (makeHealth config) (fun _ => rfl) fun _ => rfl
    exact entered.dial rfl rfl (fun _ member => member) (inv.queues.unqueued inv.unborn)
      (Function.update_self _ _ _) rfl
  · exact calm.dials

theorem pump_dials (inv : Inv config s) (dials : Dials config s)
    (top : s.stack = .pumping id request grant outcome :: rest) :
    Dials config (pump config s rest id request grant outcome) := by
  have finished : Calm config (finishJob { s with pumping := false, stack := rest } id request grant outcome) := by
    apply finishJob_calm
    exact (dials.below top).frame (fun _ member => member) (fun _ member => member) fun _ _ found => found
  rcases pump_cases config s rest id request grant outcome with ⟨first, more, queued, _, dialled⟩ | ⟨_, ended⟩
  · rw [dialled]
    -- The job that is taken off the queue is there only once.
    have placed := inv.queues.placed first
    rw [queued,List.count_cons_self] at placed
    have single : live s.jobs first ≤ 1 := by
      unfold live
      split
      · split <;> omega
      · omega
    have apart : first ∉ more := by
      rw [← List.count_eq_zero]
      omega
    have idle : Calm config s := by
      refine ⟨?_, dials.waiting, dials.checks⟩
      intro other member
      rw [top] at member
      rcases List.mem_cons.mp member with same | deeper
      · cases same
      · exact (dials.below top).idle other deeper
    cases alive : s.jobs first with
    | none =>
      simp only [live,alive] at placed
      omega
    | some job =>
      refine idle.dial rfl rfl ?_ apart alive (dials.waiting first job ?_ alive)
      · intro other member
        rw [queued]
        exact List.mem_cons_of_mem _ member
      · rw [queued]
        exact List.mem_cons_self
  · rw [ended]
    exact finished.dials

theorem read_dials (calm : Calm config s) (alive : s.jobs id = some job) : Calm config (read s id job recv clock) := by
  generalize done : read s id job recv clock = t
  cases read_effect done with
  | idle => exact calm
  | failed => exact complete_calm calm
  | more =>
    refine calm.update id _ ?_ (calm.checks id job alive)
    intro waiting
    exact calm.waiting id job waiting alive
  | replied => exact complete_calm calm

theorem connect_calm (calm : Calm config s) (apart : id ∉ s.pending) (alive : s.jobs id = some job) :
    Calm config (connect s id job connected) := by
  unfold connect
  simp only
  split
  · exact calm.update id _ (fun waiting => absurd waiting apart) (calm.checks id job alive)
  · exact complete_calm calm

theorem step_dials (inv : Inv config s) (dials : Dials config s) (taken : Step crates config s action t) :
    Dials config t := by
  cases step_effect taken with
  | redeem opened => exact redeem_dials inv (dials.calm opened)
  | poll opened => exact poll_dials inv (dials.calm opened)
  | sent => exact dials
  | unsent opened => exact (complete_calm (dials.calm opened)).dials
  | read opened alive _ => exact (read_dials (dials.calm opened) alive).dials
  | deadline opened => exact (complete_calm (dials.calm opened)).dials
  | aborted opened => exact (complete_calm (dials.calm opened)).dials
  | tick => exact ⟨dials.tail, dials.dialing, dials.waiting, dials.checks⟩
  | connect top alive => exact (connect_calm (dials.below top) (dials.dialing _ _ top).1 alive).dials
  | pump top => exact pump_dials inv dials top
  | leave top => exact (dials.below top).dials

theorem activate_dials (msec : UInt64) : Dials config (activate msec) := by
  apply Calm.dials
  refine ⟨?_, ?_, ?_⟩
  all_goals simp [activate]

end Dialing

/-- The wire of a job, against the state of its worker. `own` is as for its answers. -/
structure Linked (crates : Crates) (config : Config) (own : Nat → Option Redemption) (wire : Wire) (s : State)
    (id : Id) : Prop where
  unborn : s.fresh ≤ id → wire = .closed
  unopened : ∀ job, s.jobs id = some job → job.connection = false → wire = .closed
  opened : ∀ job, s.jobs id = some job → job.connection = true → wire.output = some job.output
  fed : ∀ job, s.jobs id = some job → Fed config.auth job wire
  silent : wire.answer = none → wire.heard = 0
  valued : ∀ value, wire.answer = some (.integer value) → value ∈ Redis.replies
  /-- A script to consume a token is sent for the redemption of an admitted request. -/
  sent : ∀ args, wire.output = some (.consume args) →
    ∃ n rd clock, .admitted id n ∈ s.log ∧ own n = some rd ∧ args = consumeArgs crates config rd clock
  /-- The reply 1 is read only where Redis answered 1 to such a script. -/
  heard : ∀ clock msec, .completed id false (.reply (.integer 1) clock) msec ∈ s.log →
    wire.answer = some (.integer 1) ∧ ∃ args, wire.output = some (.consume args)

/-- The wires of all jobs of a worker. -/
def Links (crates : Crates) (config : Config) (own : Nat → Option Redemption) (wires : Id → Wire) (s : State) :
    Prop :=
  ∀ id, Linked crates config own (wires id) s id

section Linking

variable {crates : Crates} {config : Config} {own own' : Nat → Option Redemption} {wires : Id → Wire} {wire : Wire}
  {s t : State} {id : Id} {job : Job} {outcome : Ledger.Outcome} {fenced : Bool} {cause : Cause}

theorem activate_links (msec : UInt64) : Links crates config own (fun _ => .closed) (activate msec) := by
  intro id
  refine ⟨fun _ => rfl, ?_, ?_, ?_, fun _ => rfl, ?_, ?_, ?_⟩
  all_goals simp [activate,Wire.closed]

theorem Links.extend (links : Links crates config own wires s) (more : ∀ n rd, own n = some rd → own' n = some rd) :
    Links crates config own' wires s := by
  intro id
  refine { links id with sent := ?_ }
  intro args output
  obtain ⟨n, rd, clock, admitted, owned, same⟩ := (links id).sent args output
  exact ⟨n, rd, clock, admitted, more n rd owned, same⟩

/-- The job of the wire stays or goes, and what is noted about its reply is true. -/
theorem Linked.frame (linked : Linked crates config own wire s id)
    (jobs : ∀ job, t.jobs id = some job → s.jobs id = some job) (fresh : s.fresh ≤ t.fresh)
    (log : t.log = s.log ++ more)
    (honest : ∀ clock msec, .completed id false (.reply (.integer 1) clock) msec ∈ more →
      wire.answer = some (.integer 1) ∧ ∃ args, wire.output = some (.consume args)) :
    Linked crates config own wire t id := by
  refine ⟨fun later => linked.unborn (Nat.le_trans fresh later), fun job found => linked.unopened job (jobs job found),
    fun job found => linked.opened job (jobs job found), fun job found => linked.fed job (jobs job found),
    linked.silent, linked.valued, ?_, ?_⟩
  · intro args output
    obtain ⟨n, rd, clock, admitted, rest⟩ := linked.sent args output
    exact ⟨n, rd, clock, by rw [log]; exact List.mem_append_left _ admitted, rest⟩
  · intro clock msec member
    rw [log] at member
    rcases List.mem_append.mp member with old | new
    · exact linked.heard clock msec old
    · exact honest clock msec new

theorem Links.frame (links : Links crates config own wires s)
    (jobs : ∀ id job, t.jobs id = some job → s.jobs id = some job) (fresh : t.fresh = s.fresh)
    (log : t.log = s.log ++ more)
    (quiet : ∀ id clock msec, .completed id false (.reply (.integer 1) clock) msec ∉ more) :
    Links crates config own wires t :=
  fun id => (links id).frame (jobs id) (Nat.le_of_eq fresh.symm) log
    fun clock msec member => absurd member (quiet id clock msec)

theorem finishJob_links (links : Links crates config own wires s) :
    Links crates config own wires (finishJob s id request grant outcome) := by
  unfold finishJob
  split
  · exact links.frame (fun _ _ found => found) rfl rfl (by simp)
  · exact links

/-- `complete`, when the reply it notes was really sent. -/
theorem complete_links (links : Links crates config own wires s)
    (honest : ∀ clock', cause = .reply (.integer 1) clock' → job.health = false →
      (wires id).answer = some (.integer 1) ∧ ∃ args, (wires id).output = some (.consume args)) :
    Links crates config own wires (complete s id job outcome fenced clock cause) := by
  have released : Links crates config own wires (release s id job outcome fenced cause) := by
    intro other
    refine (links other).frame ?_ (Nat.le_of_eq (release_fresh s).symm) (release_log s) ?_
    · intro job' found
      rw [release_jobs] at found
      exact (freed_jobs found).2
    · intro clock' msec member
      obtain ⟨rfl, kind, reply, _⟩ := Note.completed.inj (List.mem_singleton.mp member)
      exact honest clock' reply.symm kind.symm
  unfold complete
  simp only
  split
  · exact finishJob_links released
  · exact released.frame (fun _ _ found => found) rfl (List.append_nil _).symm nofun

/-- A job that enters has no connection yet. -/
theorem Links.born (links : Links crates config own wires s) (jobs : t.jobs = Function.update s.jobs s.fresh (some job))
    (fresh : t.fresh = s.fresh + 1) (log : t.log = s.log ++ more)
    (quiet : ∀ id clock msec, .completed id false (.reply (.integer 1) clock) msec ∉ more)
    (empty : job.connection = false ∧ job.input = [] ∧ job.auth = config.auth) : Links crates config own wires t := by
  have later : s.fresh ≤ t.fresh := by
    rw [fresh]
    exact Nat.le_succ _
  intro id
  by_cases here : id = s.fresh
  · have closed := (links id).unborn (Nat.le_of_eq here.symm)
    have only : ∀ job', t.jobs id = some job' → job' = job := by
      intro job' found
      rw [jobs,here,Function.update_self] at found
      exact (Option.some.inj found).symm
    rw [closed]
    refine ⟨fun _ => rfl, fun _ _ _ => rfl, ?_, ?_, fun _ => rfl, nofun, nofun, ?_⟩
    · intro job' found connected
      rw [only job' found,empty.1] at connected
      cases connected
    · intro job' found
      rw [only job' found]
      exact ⟨[], by rw [empty.2.2]; rfl, by rw [empty.2.1]; rfl⟩
    · intro clock msec member
      rw [log] at member
      rcases List.mem_append.mp member with old | new
      · have := ((links id).heard clock msec old).1
        rw [closed] at this
        cases this
      · exact absurd new (quiet id clock msec)
  · refine (links id).frame ?_ later log fun clock msec member => absurd member (quiet id clock msec)
    intro job' found
    rwa [jobs,Function.update_of_ne here] at found

theorem redeem_links (links : Links crates config own wires s) :
    Links crates config own wires (redeem crates config s n token expires grant memory clock) := by
  have refused : Links crates config own wires (refuse s n grant) :=
    links.frame (fun _ _ found => found) rfl rfl (by simp)
  rcases redeem_cases crates config s n token expires grant memory clock with
    refusal | ⟨_, dialled⟩ | ⟨_, _, queued⟩
  · rw [refusal]
    exact refused
  · rw [dialled]
    exact links.born rfl rfl rfl (by simp) ⟨rfl, rfl, rfl⟩
  · rw [queued]
    exact links.born rfl rfl rfl (by simp) ⟨rfl, rfl, rfl⟩

theorem poll_links (links : Links crates config own wires s) : Links crates config own wires (poll config s) := by
  unfold poll
  split
  · exact links.born rfl rfl (List.append_nil _).symm nofun ⟨rfl, rfl, rfl⟩
  · exact links

theorem pump_links (links : Links crates config own wires s) :
    Links crates config own wires (pump config s rest id request grant outcome) := by
  have finished : Links crates config own wires
      (finishJob { s with pumping := false, stack := rest } id request grant outcome) :=
    finishJob_links (links.frame (fun _ _ found => found) rfl (List.append_nil _).symm nofun)
  rcases pump_cases config s rest id request grant outcome with ⟨first, more, _, _, dialled⟩ | ⟨_, ended⟩
  · rw [dialled]
    exact links.frame (fun _ _ found => found) rfl (List.append_nil _).symm nofun
  · rw [ended]
    exact finished

/-- Actions that neither send nor deliver anything on a connection. -/
def Action.quiet : Action → Bool
  | .redeem .. => false
  | .read _ (.data (_ :: _)) _ => false
  | .connect true => false
  | _ => true

theorem fail_links (links : Links crates config own wires s) (reason : cause = .failure ∨ cause = .aborted) :
    Links crates config own wires (fail s id job cause) := by
  apply complete_links links
  rintro clock rfl
  rcases reason with same | same <;> cases same

theorem quiet_links (links : Links crates config own wires s) (quiet : action.quiet = true)
    (taken : Step crates config s action t) : Links crates config own wires t := by
  cases step_effect taken with
  | redeem => cases quiet
  | poll => exact poll_links links
  | sent => exact links
  | unsent => exact fail_links links (.inl rfl)
  | @read job recv clock id _ alive =>
    generalize done : read s id job recv clock = t
    cases read_effect done with
    | idle => exact links
    | failed => exact fail_links links (.inl rfl)
    | more nonempty | replied nonempty =>
      obtain ⟨c, chunk, rfl⟩ := List.exists_cons_of_ne_nil nonempty
      cases quiet
  | deadline => exact fail_links links (.inl rfl)
  | aborted => exact fail_links links (.inr rfl)
  | tick => exact links.frame (fun _ _ found => found) rfl (List.append_nil _).symm nofun
  | @connect _ _ connected _ top alive =>
    cases connected with
    | true => cases quiet
    | false =>
      apply fail_links _ (.inl rfl)
      exact links.frame (fun _ _ found => found) rfl (List.append_nil _).symm nofun
  | pump => exact pump_links links
  | leave => exact links.frame (fun _ _ found => found) rfl (List.append_nil _).symm nofun

/-- One wire changes, and with it at most its own job. -/
theorem Links.update (links : Links crates config own wires s)
    (others : ∀ other, other ≠ id → t.jobs other = s.jobs other) (fresh : t.fresh = s.fresh) (log : t.log = s.log)
    (here : Linked crates config own wire t id) : Links crates config own (Function.update wires id wire) t := by
  intro other
  by_cases same : other = id
  · subst same
    rwa [Function.update_self]
  · rw [Function.update_of_ne same]
    have same_log : t.log = s.log ++ [] := by rw [log,List.append_nil]
    refine (links other).frame ?_ (Nat.le_of_eq fresh.symm) same_log ?_
    · intro job found
      rwa [others other same] at found
    · intro clock msec member
      cases member

/-- The connection of a job is opened: its script is on its way. -/
theorem dial_links (inv : Inv config s) (answers : Answers crates config own s) (dials : Dials config s)
    (links : Links crates config own wires s) (top : s.stack = .connecting id :: rest) (alive : s.jobs id = some job)
    (taken : Step crates config s (.connect true) t) :
    Links crates config own (Function.update wires id ⟨some job.output, none, 0⟩) t := by
  obtain ⟨_, old, known, unconnected⟩ := dials.dialing id rest top
  obtain rfl : job = old := Option.some.inj (alive.symm.trans known)
  have closed := (links id).unopened job alive unconnected
  have untouched := links id
  rw [closed] at untouched
  cases step_effect taken with
  | @connect rest' job' _ id' top' alive' =>
    obtain ⟨same, rfl⟩ := List.cons.inj (top'.symm.trans top)
    obtain rfl := Frame.connecting.inj same
    obtain rfl : job' = job := Option.some.inj (alive'.symm.trans alive)
    unfold connect
    simp only [if_true]
    refine links.update (fun _ apart => Function.update_of_ne apart _ _) rfl rfl ?_
    refine ⟨?_, ?_, ?_, ?_, fun _ => rfl, nofun, ?_, ?_⟩
    · intro later
      rw [(inv.accounts.unborn id' later).1] at alive
      cases alive
    · intro job found unconnected'
      simp only [Function.update_self,Option.some.injEq] at found
      rw [← found] at unconnected'
      cases unconnected'
    · intro job found _
      simp only [Function.update_self,Option.some.injEq] at found
      rw [← found]
    · intro job found
      simp only [Function.update_self,Option.some.injEq] at found
      rw [← found]
      exact untouched.fed job' alive
    · intro args output
      cases kind : job'.health with
      | true =>
        rw [dials.checks id' job' alive kind] at output
        cases output
      | false =>
        obtain ⟨⟨n, request, admitted⟩, _⟩ := inv.accounts.owned id' job' alive kind
        obtain ⟨rd, clock, owned, _, _, script⟩ := answers.jobs id' job' n alive request
        simp only [script,Option.some.injEq] at output
        exact ⟨n, rd, clock, admitted, owned, (Script.consume.inj output).symm⟩
    · intro clock msec member
      cases (untouched.heard clock msec member).1

/-- Redis answers on a wire. -/
theorem answer_links (links : Links crates config own wires s) (answer : Answer) (open_ : (wires id).answer = none)
    (sent : (wires id).output ≠ none) (range : ∀ value, answer = .integer value → value ∈ Redis.replies) :
    Links crates config own (Function.update wires id { wires id with answer := some answer }) s := by
  have linked := links id
  refine links.update (fun _ _ => rfl) rfl rfl ?_
  refine ⟨?_, ?_, linked.opened, ?_, nofun, ?_, linked.sent, ?_⟩
  · intro later
    rw [linked.unborn later] at sent
    exact absurd rfl sent
  · intro job found unconnected
    rw [linked.unopened job found unconnected] at sent
    exact absurd rfl sent
  · intro job found
    obtain ⟨passed, greeted, taken⟩ := linked.fed job found
    refine ⟨passed, greeted, ?_⟩
    have silent := linked.silent open_
    simp only [Wire.bytes,open_,silent,List.take_nil] at taken
    simpa [silent] using taken
  · intro value same
    exact range value (Option.some.inj same)
  · intro clock msec member
    rw [(linked.heard clock msec member).1] at open_
    cases open_

/-- Bytes for a job that is gone. -/
theorem Linked.hear (linked : Linked crates config own wire s id) (gone : s.jobs id = none)
    (answered : wire.answer ≠ none) : Linked crates config own (wire.hear count) s id := by
  refine ⟨?_, ?_, ?_, ?_, fun none => absurd none answered, linked.valued, linked.sent, linked.heard⟩
  · intro later
    rw [linked.unborn later] at answered
    exact absurd rfl answered
  all_goals
    intro job found
    rw [gone] at found
    cases found

theorem Wire.chunk_answered (some_ : wire.chunk auth count ≠ []) : ∃ answer, wire.answer = some answer := by
  cases answered : wire.answer with
  | some answer => exact ⟨answer, rfl⟩
  | none =>
    refine absurd ?_ some_
    simp [Wire.chunk,Wire.bytes,answered]

/-- A redemption's job that reads the integer 1 was answered so. -/
theorem Linked.reads_one (linked : Linked crates config own wire s id) (inv : Inv config s)
    (answers : Answers crates config own s) (alive : s.jobs id = some job) (connected : job.connection = true)
    (redemption : job.health = false) (some_ : wire.chunk config.auth count ≠ [])
    (read : Resp.receive job.auth job.input (wire.chunk config.auth count) = .replied (.integer 1)) :
    wire.answer = some (.integer 1) ∧ ∃ args, wire.output = some (.consume args) := by
  obtain ⟨answer, answered⟩ := Wire.chunk_answered some_
  obtain ⟨body, text, rest, whole, cut, parsed⟩ := (linked.fed job alive).replied read
  have bytes : wire.bytes config.auth = answer.bytes config.auth := by simp [Wire.bytes,answered]
  rw [bytes] at whole
  have one := Answer.reads_one whole cut parsed fun value same => linked.valued value (by rw [answered,same])
  obtain ⟨⟨n, request, _⟩, _⟩ := inv.accounts.owned id job alive redemption
  obtain ⟨rd, clock, _, _, _, script⟩ := answers.jobs id job n alive request
  exact ⟨by rw [answered,one], _, by rw [linked.opened job alive connected,script]⟩

/-- The next bytes of an answer are delivered. -/
theorem hear_links (inv : Inv config s) (answers : Answers crates config own s)
    (links : Links crates config own wires s) (some_ : (wires id).chunk config.auth count ≠ [])
    (taken : Step crates config s (.read id (.data ((wires id).chunk config.auth count)) clock) t) :
    Links crates config own (Function.update wires id ((wires id).hear count)) t := by
  have linked := links id
  obtain ⟨answer, answered⟩ := Wire.chunk_answered some_
  -- The job is done with: only the other jobs still read.
  have settled : ∀ {job outcome fenced clock' cause}, Links crates config own wires (complete s id job outcome fenced clock' cause) →
      Links crates config own (Function.update wires id ((wires id).hear count))
        (complete s id job outcome fenced clock' cause) := by
    intro job outcome fenced clock' cause kept
    apply kept.update (fun _ _ => rfl) rfl rfl
    exact (kept id).hear complete_jobs (by simp [answered])
  cases step_effect taken with
  | @read job _ _ _ _ alive connected =>
    have fed := linked.fed job alive
    generalize done : read s id job (.data ((wires id).chunk config.auth count)) clock = t
    cases read_effect done with
    | failed => exact settled (fail_links links (.inl rfl))
    | more _ received =>
      refine links.update (fun _ apart => Function.update_of_ne apart _ _) rfl rfl ?_
      refine ⟨?_, ?_, ?_, ?_, ?_, linked.valued, linked.sent, linked.heard⟩
      · intro later
        rw [(inv.accounts.unborn id later).1] at alive
        cases alive
      · intro job' found unconnected
        simp only [Function.update_self,Option.some.injEq] at found
        rw [← found,connected] at unconnected
        cases unconnected
      · intro job' found _
        simp only [Function.update_self,Option.some.injEq] at found
        rw [← found]
        exact linked.opened job alive connected
      · intro job' found
        simp only [Function.update_self,Option.some.injEq] at found
        rw [← found]
        exact fed.more received
      · intro none
        rw [Wire.hear,answered] at none
        cases none
    | replied _ received =>
      apply settled
      apply complete_links links
      intro clock' one redemption
      obtain ⟨rfl, _⟩ := Cause.reply.inj one
      exact linked.reads_one inv answers alive connected redemption some_ received

end Linking

def Note.answers : Note → Bool
  | .finished .. => true
  | _ => false

section Logs

variable {crates : Crates} {config : Config} {s t : State} {id : Id} {job : Job} {outcome : Ledger.Outcome}

/-- Notes were added, at most one of them an answer. -/
def Grown (s t : State) : Prop := ∃ more, t.log = s.log ++ more ∧ more.countP Note.answers ≤ 1

theorem Grown.same (log : t.log = s.log) : Grown s t := ⟨[], by rw [log,List.append_nil], Nat.zero_le _⟩

theorem finishJob_log (s : State) (id : Id) (request : Option Nat) (grant : Option Prepared)
    (outcome : Ledger.Outcome) : (finishJob s id request grant outcome).log = s.log ∨
    ∃ n g, (finishJob s id request grant outcome).log = s.log ++ [.finished (some id) n outcome g] := by
  unfold finishJob
  split
  · exact .inr ⟨_, _, rfl⟩
  · exact .inl rfl

theorem finishJob_grown (log : t.log = s.log) : Grown s (finishJob t id request grant outcome) := by
  rcases finishJob_log t id request grant outcome with quiet | ⟨n, g, answered⟩
  · exact .same (quiet.trans log)
  · exact ⟨_, by rw [answered,log], by simp [Note.answers]⟩

theorem complete_grown : Grown s (complete s id job outcome fenced clock cause) := by
  unfold complete
  simp only
  split
  · rcases finishJob_log (release s id job outcome fenced cause) id job.request job.grant
      (late job outcome clock) with quiet | ⟨n, g, answered⟩
    · exact ⟨[.completed id job.health cause s.msec], by rw [quiet,release_log], by simp [Note.answers]⟩
    · exact ⟨[.completed id job.health cause s.msec,.finished (some id) n (late job outcome clock) g],
        by rw [answered,release_log]; simp, by simp [Note.answers]⟩
  · exact ⟨_, release_log s, by simp [Note.answers]⟩

theorem step_grown (taken : Step crates config s action t) : Grown s t := by
  cases step_effect taken with
  | @redeem request token expires grant memory clock _ =>
    rcases redeem_cases crates config s request token expires grant memory clock with
      refused | ⟨_, dialled⟩ | ⟨_, _, queued⟩
    · rw [refused]
      exact ⟨_, rfl, by simp [Note.answers]⟩
    · rw [dialled]
      exact ⟨_, rfl, by simp [Note.answers]⟩
    · rw [queued]
      exact ⟨_, rfl, by simp [Note.answers]⟩
  | poll =>
    unfold poll
    split
    · exact .same rfl
    · exact .same rfl
  | sent => exact .same rfl
  | unsent => exact complete_grown
  | @read job recv clock id =>
    generalize done : read s id job recv clock = t
    cases read_effect done with
    | idle | more => exact .same rfl
    | failed | replied => exact complete_grown
  | deadline => exact complete_grown
  | aborted => exact complete_grown
  | tick => exact .same rfl
  | connect =>
    unfold connect
    simp only
    split
    · exact .same rfl
    · exact complete_grown
  | @pump rest request grant outcome id =>
    rcases pump_cases config s rest id request grant outcome with ⟨_, _, _, _, dialled⟩ | ⟨_, ended⟩
    · rw [dialled]
      exact .same rfl
    · rw [ended]
      exact finishJob_grown rfl
  | leave => exact .same rfl

end Logs

end PowGate.Cluster
