import PowGate.FleetOneUse

/-! What `redis-epoch.py --rotate` does to a running fleet. Workers learn of it only from the
replies they read: a script that Redis had not answered by then can tell them nothing else, in
whatever order requests, scripts, deliveries and timers follow. -/
namespace PowGate.Cluster

/-- What a worker reads in an answer. -/
def Answer.found : Answer → Resp.Reply
  | .integer value => .integer (Int64.ofInt value)
  | .error _ _ => .error

section Reading

variable {crates : Crates} {config : Config} {s t : State} {id : Id} {job : Job} {outcome : Ledger.Outcome} {fenced : Bool}
  {cause : Cause} {wire : Wire} {auth : Bool} {reply : Resp.Reply}

theorem Answer.reads {answer : Answer} (whole : answer.bytes auth = Resp.greeting auth ++ (body ++ rest))
    (cut : Resp.line body = some text) (parsed : Resp.parse text = .ok reply)
    (range : ∀ value, answer = .integer value → value ∈ Redis.replies) : reply = answer.found := by
  have first : Resp.line (body ++ rest) = some text := Resp.line_append cut
  cases answer with
  | integer value =>
    have same := List.append_cancel_left whole
    have plain : 13 ∉ 58 :: Text.integer value ∧ Resp.parse (58 :: Text.integer value) =
        .ok (.integer (Int64.ofInt value)) := by
      have listed := range value rfl
      simp only [Redis.replies, List.mem_cons, List.not_mem_nil, or_false] at listed
      rcases listed with rfl | rfl | rfl | rfl | rfl <;> decide
    rw [← same, Resp.line_plain plain.1] at first
    obtain rfl := Option.some.inj first
    rw [plain.2] at parsed
    exact (Except.ok.inj parsed).symm
  | error welcomed tail =>
    have refused (same : body ++ rest = 45 :: tail) : reply = .error := by
      rw [same] at first
      rw [error_line first] at parsed
      exact (Except.ok.inj parsed).symm
    cases auth with
    | false => exact refused whole.symm
    | true =>
      cases welcomed with
      | true => exact refused (List.append_cancel_left whole).symm
      | false => cases congrArg List.head? whole

/-- A reply is read only off a wire that was answered so. -/
theorem Linked.found (linked : Linked crates config own wire s id) (alive : s.jobs id = some job)
    (read : Resp.receive job.auth job.input (wire.chunk config.auth count) = .replied reply) :
    ∃ answer, wire.answer = some answer ∧ reply = answer.found := by
  obtain ⟨body, text, rest, whole, cut, parsed⟩ := (linked.fed job alive).replied read
  cases answered : wire.answer with
  | none =>
    rw [Wire.bytes, answered] at whole
    have empty : body = [] := (List.append_eq_nil_iff.mp (List.append_eq_nil_iff.mp whole.symm).2).1
    rw [empty] at cut
    cases cut
  | some answer =>
    rw [Wire.bytes, answered] at whole
    exact ⟨answer, rfl, Answer.reads whole cut parsed fun value same => linked.valued value (same ▸ answered)⟩

/-- `finish` adds no note about a reply. -/
theorem finishJob_completed (noted : .completed id' health cause msec ∈ (finishJob s id request grant outcome).log) :
    .completed id' health cause msec ∈ s.log := by
  unfold finishJob at noted
  split at noted
  · rcases List.mem_append.mp noted with old | new
    · exact old
    · cases List.mem_singleton.mp new
  · exact noted

theorem complete_replied (noted : .completed id' health (.reply reply clock') msec ∈
      (complete s id job outcome fenced clock cause).log) :
    .completed id' health (.reply reply clock') msec ∈ s.log ∨ id' = id ∧ cause = .reply reply clock' := by
  have released : .completed id' health (.reply reply clock') msec ∈ (release s id job outcome fenced cause).log := by
    unfold complete at noted
    simp only at noted
    split at noted
    · exact finishJob_completed noted
    · exact noted
  rw [release_log] at released
  rcases List.mem_append.mp released with old | new
  · exact .inl old
  · obtain ⟨same, _, cause, _⟩ := Note.completed.inj (List.mem_singleton.mp new)
    exact .inr ⟨same, cause.symm⟩

/-- `fail` notes no reply and fences nothing. -/
theorem fail_replied (reason : cause = .failure ∨ cause = .aborted)
    (noted : .completed id' health (.reply reply clock) msec ∈ (fail s id job cause).log) :
    .completed id' health (.reply reply clock) msec ∈ s.log := by
  rcases complete_replied noted with old | ⟨_, rfl⟩
  · exact old
  · rcases reason with same | same <;> cases same

/-- A reply that a step notes was just read, and fences the worker if it says so. -/
theorem step_replied (taken : Step crates config s action t)
    (noted : .completed id health (.reply reply clock) msec ∈ t.log) :
    .completed id health (.reply reply clock) msec ∈ s.log ∨
      ∃ chunk job, chunk ≠ [] ∧ action = .read id (.data chunk) clock ∧ s.jobs id = some job ∧
        Resp.receive job.auth job.input chunk = .replied reply ∧ t.fenced = (s.fenced || (Resp.judge reply).2) := by
  cases step_effect taken with
  | @redeem n token expires grant memory caller =>
    left
    rcases redeem_cases crates config s n token expires grant memory caller with refused | ⟨_, dialled⟩ | ⟨_, _, queued⟩
    · rw [refused] at noted
      simpa [refuse] using noted
    · rw [dialled] at noted
      simpa [enrol] using noted
    · rw [queued] at noted
      simpa [enrol] using noted
  | poll =>
    left
    unfold poll at noted
    split at noted <;> exact noted
  | sent => exact .inl noted
  | unsent => exact .inl (fail_replied (.inl rfl) noted)
  | @read job recv clock' id' opened alive connected =>
    generalize done : read s id' job recv clock' = t at noted
    cases read_effect done with
    | idle => exact .inl noted
    | failed => exact .inl (fail_replied (.inl rfl) noted)
    | more => exact .inl noted
    | @replied chunk reply' nonempty received =>
      rcases complete_replied noted with old | ⟨rfl, same⟩
      · exact .inl old
      · obtain ⟨rfl, rfl⟩ := Cause.reply.inj same
        exact .inr ⟨chunk, job, nonempty, rfl, alive, received, complete_fenced⟩
  | deadline => exact .inl (fail_replied (.inl rfl) noted)
  | aborted => exact .inl (fail_replied (.inr rfl) noted)
  | tick => exact .inl noted
  | @connect _ _ connected _ top alive =>
    left
    unfold connect at noted
    simp only at noted
    split at noted
    · exact noted
    · have kept := fail_replied (.inl rfl) noted
      exact kept
  | @pump rest request grant outcome id' =>
    left
    rcases pump_cases config s rest id' request grant outcome with ⟨first, more, _, _, dialled⟩ | ⟨_, ended⟩
    · rw [dialled] at noted
      exact noted
    · rw [ended] at noted
      have kept := finishJob_completed noted
      exact kept
  | leave => exact .inl noted

end Reading

end PowGate.Cluster

namespace PowGate.Redis

theorem consume_away (stored : Int → Int) (time : Int) (away : primary.epoch ≠ some args.epoch) : consume stored primary args time = (-2, primary) :=
  if_pos away

theorem consume_epoch (stored : Int → Int) (primary : Primary) (args : Args) (time : Int) :
    (consume stored primary args time).2.epoch = primary.epoch := by
  rcases consume_cases stored primary args time with ⟨_, _, same⟩ | ⟨_, _, _, _, _, ⟨_, same⟩ | ⟨_, same⟩⟩
  all_goals simp [same,Primary.setMarker]

end PowGate.Redis

namespace PowGate.Fleet

open Cluster (Id Config Wire)

/-- What the workers have noted against what Redis has answered. -/
structure Heard (configs : Nat → Config) (s : State) : Prop where
  checks : ∀ w id epoch, (s.wires w id).output = some (.health epoch) → epoch = (configs w).epoch
  replied : ∀ w id health found clock msec, .completed id health (.reply found clock) msec ∈ (s.workers w).log →
    ∃ answer, (s.wires w id).answer = some answer ∧ found = answer.found
  fenced : ∀ w id health clock msec, .completed id health (.reply (.integer (-2)) clock) msec ∈ (s.workers w).log →
    (s.workers w).fenced = true

/-- Since `mid`, the epoch has not been in force in the namespace. -/
structure Retired (configs : Nat → Config) (space epoch : Bytes) (mid s : State) : Prop where
  away : (s.primary space).epoch ≠ some epoch
  ran : ∃ later, s.ran = mid.ran ++ later ∧
    ∀ r ∈ later, (configs r.worker).space = space → (configs r.worker).epoch = epoch → r.reply = -2
  answered : ∀ w id answer, (configs w).space = space → (configs w).epoch = epoch → (mid.wires w id).answer = none →
    (s.wires w id).answer = some answer → answer = .integer (-2) ∨ answer.found = .error

section Steps

variable {crates : Crates} {configs : Nat → Config} {s t mid : State} {w : Nat} {id : Id} {next : Cluster.State}
  {space epoch : Bytes}

theorem start_heard (msec : Nat → UInt64) (time : Int) : Heard configs (start msec time) := by
  refine ⟨?_, ?_, ?_⟩
  all_goals simp [start, Wire.closed, Cluster.activate]

theorem advance_self (s : State) (w : Nat) (next : Cluster.State) : (s.advance configs w next).workers w = next :=
  Function.update_self _ _ _

theorem advance_other (s : State) (next : Cluster.State) (apart : w' ≠ w) :
    (s.advance configs w next).workers w' = s.workers w' :=
  Function.update_of_ne apart _ _

theorem setPrimary_other (s : State) (primary : Redis.Primary) (apart : space' ≠ space) :
    (s.setPrimary space' primary).primary space = s.primary space :=
  Function.update_of_ne apart.symm _ _

/-- One more run of a script, for what is said of the runs since a state. -/
theorem ran_snoc {past ran : List Ran} {holds : Ran → Prop} (since : ∃ later, ran = past ++ later ∧ ∀ r ∈ later, holds r)
    (here : holds r) : ∃ later, ran ++ [r] = past ++ later ∧ ∀ r ∈ later, holds r := by
  obtain ⟨later, rfl, all⟩ := since
  refine ⟨later ++ [r], List.append_assoc _ _ _, ?_⟩
  intro r' member
  rcases List.mem_append.mp member with old | new
  · exact all r' old
  · rw [List.mem_singleton.mp new]
    exact here

/-- A worker takes a step that reads nothing but what is on its wires. -/
theorem Heard.advance (heard : Heard configs s)
    (taken : Cluster.Step crates (configs w) (s.workers w) action next)
    (honest : ∀ id chunk clock job found, chunk ≠ [] → action = .read id (.data chunk) clock →
      (s.workers w).jobs id = some job → Resp.receive job.auth job.input chunk = .replied found →
      ∃ answer, (s.wires w id).answer = some answer ∧ found = answer.found) :
    Heard configs (s.advance configs w next) := by
  refine ⟨heard.checks, ?_, ?_⟩
  · intro w' id health found clock msec noted
    by_cases here : w' = w
    · subst here
      rw [advance_self] at noted
      rcases Cluster.step_replied taken noted with old | ⟨chunk, job, nonempty, read, alive, received, _⟩
      · exact heard.replied w' id health found clock msec old
      · exact honest id chunk clock job found nonempty read alive received
    · rw [advance_other s next here] at noted
      exact heard.replied w' id health found clock msec noted
  · intro w' id health clock msec noted
    by_cases here : w' = w
    · subst here
      rw [advance_self] at noted ⊢
      rcases Cluster.step_replied taken noted with old | ⟨chunk, job, _, _, _, _, fenced⟩
      · exact Cluster.step_fenced (heard.fenced w' id health clock msec old) taken
      · have judged : (Resp.judge (.integer (-2))).2 = true := by decide
        rw [fenced, judged, Bool.or_true]
    · rw [advance_other s next here] at noted ⊢
      exact heard.fenced w' id health clock msec noted

/-- One wire changes, and an answer on it stays. -/
theorem Heard.rewire (heard : Heard configs s) (w : Nat) (id : Id) (wire : Wire)
    (check : ∀ epoch, wire.output = some (.health epoch) → epoch = (configs w).epoch)
    (kept : ∀ answer, (s.wires w id).answer = some answer → wire.answer = some answer) :
    Heard configs (s.setWire w id wire) := by
  refine ⟨?_, ?_, heard.fenced⟩
  · intro w' id' epoch output
    by_cases here : w' = w ∧ id' = id
    · obtain ⟨rfl, rfl⟩ := here
      rw [setWire_self] at output
      exact check epoch output
    · rw [setWire_other s _ here] at output
      exact heard.checks w' id' epoch output
  · intro w' id' health found clock msec noted
    obtain ⟨answer, answered, same⟩ := heard.replied w' id' health found clock msec noted
    refine ⟨answer, ?_, same⟩
    by_cases here : w' = w ∧ id' = id
    · obtain ⟨rfl, rfl⟩ := here
      rw [setWire_self]
      exact kept answer answered
    · rw [setWire_other s _ here]
      exact answered

theorem quiet_unread {action : Cluster.Action} (quiet : action.quiet = true) (nonempty : chunk ≠ []) :
    action ≠ .read id (.data chunk) clock := by
  obtain ⟨c, rest, rfl⟩ := List.exists_cons_of_ne_nil nonempty
  rintro rfl
  cases quiet

theorem step_heard (books : Books crates configs s) (heard : Heard configs s) (taken : Step crates configs s act t) :
    Heard configs t := by
  cases taken with
  | visit => exact ⟨heard.checks, heard.replied, heard.fenced⟩
  | @redeem w e v rd memory clock next enters begins taken =>
    have moved := heard.advance taken fun id chunk clock job found _ read => by cases read
    exact ⟨moved.checks, moved.replied, moved.fenced⟩
  | act quiet taken =>
    exact heard.advance taken fun id chunk clock job found nonempty read => absurd read (quiet_unread quiet nonempty)
  | @dial w rest job next id top alive taken =>
    have moved := heard.advance taken fun id chunk clock job found _ read => by cases read
    obtain ⟨_, old, known, unconnected⟩ := (books.dials w).dialing id rest top
    have closed := (books.links w id).unopened old known unconnected
    refine moved.rewire w id ⟨some job.output, none, 0⟩ ?_ ?_
    · intro epoch output
      cases kind : job.health with
      | true =>
        rw [(books.dials w).checks id job alive kind] at output
        cases output
        rfl
      | false =>
        obtain ⟨⟨n, request, _⟩, _⟩ := (books.workers w).accounts.owned id job alive kind
        obtain ⟨rd, clock, _, _, _, script⟩ := (books.answers w).jobs id job n alive request
        rw [script] at output
        cases output
    · intro answer answered
      have none_ : (s.wires w id).answer = some answer := answered
      rw [closed] at none_
      cases none_
  | @hear w count clock next id some_ taken =>
    have moved := heard.advance taken fun id' chunk clock' job found _ read alive received => by
      obtain ⟨rfl, same, rfl⟩ := Cluster.Action.read.inj read
      obtain rfl := Cluster.Recv.data.inj same
      exact (books.links w _).found alive received
    exact moved.rewire w id _ (heard.checks w id) fun answer answered => answered
  | @run w args reply primary id sent waiting evaluated =>
    have rewired := heard.rewire w id { s.wires w id with answer := some (.integer reply) } (heard.checks w id) (by simp [waiting])
    exact ⟨rewired.checks, rewired.replied, rewired.fenced⟩
  | check sent waiting => exact heard.rewire _ _ _ (heard.checks _ _) (by simp [waiting])
  | reject sent waiting => exact heard.rewire _ _ _ (heard.checks _ _) (by simp [waiting])
  | provision => exact ⟨heard.checks, heard.replied, heard.fenced⟩
  | tick => exact ⟨heard.checks, heard.replied, heard.fenced⟩
  | linger => exact ⟨heard.checks, heard.replied, heard.fenced⟩

/-- Nothing changes but other wires, or answers that were there before. -/
theorem Retired.rewire (retired : Retired configs space epoch mid s) (w : Nat) (id : Id) (wire : Wire)
    (answered : ∀ answer, (configs w).space = space → (configs w).epoch = epoch → wire.answer = some answer →
      (s.wires w id).answer = some answer ∨ answer = .integer (-2) ∨ answer.found = .error) :
    Retired configs space epoch mid (s.setWire w id wire) := by
  refine ⟨retired.away, retired.ran, ?_⟩
  intro w' id' answer same_space same_epoch open_ found
  by_cases here : w' = w ∧ id' = id
  · obtain ⟨rfl, rfl⟩ := here
    rw [setWire_self] at found
    rcases answered answer same_space same_epoch found with old | new
    · exact retired.answered w' id' answer same_space same_epoch open_ old
    · exact new
  · rw [setWire_other s _ here] at found
    exact retired.answered w' id' answer same_space same_epoch open_ found

/-- A namespace changes, and gets no old epoch back. -/
theorem Retired.store (retired : Retired configs space epoch mid s) (space' : Bytes) (primary : Redis.Primary)
    (away : space' = space → primary.epoch ≠ some epoch) :
    Retired configs space epoch mid (s.setPrimary space' primary) := by
  refine ⟨?_, retired.ran, retired.answered⟩
  by_cases here : space' = space
  · subst here
    rw [setPrimary_self]
    exact away rfl
  · rw [setPrimary_other s primary here]
    exact retired.away

theorem run_retired (books : Books crates configs s) (retired : Retired configs space epoch mid s)
    (sent : (s.wires w id).output = some (.consume args))
    (evaluated : Redis.consume Redis.unrounded (s.primary (configs w).space) args s.time = (reply, primary)) :
    Retired configs space epoch mid { ((s.setPrimary (configs w).space primary).setWire w id
        { s.wires w id with answer := some (.integer reply) }) with
      ran := s.ran ++ [⟨w, id, (configs w).space, args, (s.primary (configs w).space).epoch, reply⟩] } := by
  have fenced (same_space : (configs w).space = space) (same_epoch : (configs w).epoch = epoch) : reply = -2 := by
    obtain ⟨n, rd, clock, _, _, rfl⟩ := (books.links w id).sent args sent
    have elsewhere : (s.primary (configs w).space).epoch ≠ some (configs w).epoch := by
      rw [same_space, same_epoch]
      exact retired.away
    have refused : Redis.consume Redis.unrounded (s.primary (configs w).space) (Cluster.consumeArgs crates (configs w) rd clock) s.time =
        (-2, s.primary (configs w).space) := Redis.consume_away Redis.unrounded s.time elsewhere
    rw [evaluated] at refused
    exact (Prod.mk.inj refused).1
  have stored := retired.store (configs w).space primary (by
    rintro rfl
    have kept := Redis.consume_epoch Redis.unrounded (s.primary (configs w).space) args s.time
    rw [evaluated] at kept
    rw [kept]
    exact retired.away)
  have wired := stored.rewire w id { s.wires w id with answer := some (.integer reply) } (by
    intro answer same_space same_epoch found
    obtain rfl := Option.some.inj found
    rw [fenced same_space same_epoch]
    exact .inr (.inl rfl))
  exact ⟨wired.away, ran_snoc retired.ran fenced, wired.answered⟩

theorem step_retired (books : Books crates configs s) (heard : Heard configs s)
    (retired : Retired configs space epoch mid s) (fresh : ∀ expected, act ≠ .provision space expected epoch)
    (taken : Step crates configs s act t) : Retired configs space epoch mid t := by
  cases taken with
  | visit => exact ⟨retired.away, retired.ran, retired.answered⟩
  | redeem => exact ⟨retired.away, retired.ran, retired.answered⟩
  | act => exact ⟨retired.away, retired.ran, retired.answered⟩
  | @dial w rest job next id =>
    have rewired := retired.rewire w id ⟨some job.output, none, 0⟩ (by rintro answer _ _ ⟨⟩)
    exact ⟨rewired.away, rewired.ran, rewired.answered⟩
  | @hear w count clock next id =>
    have rewired := retired.rewire w id ((s.wires w id).hear count) fun answer _ _ found => .inl found
    exact ⟨rewired.away, rewired.ran, rewired.answered⟩
  | run sent _ evaluated => exact run_retired books retired sent evaluated
  | @check w checked id sent =>
    refine retired.rewire w id _ ?_
    intro answer same_space same_epoch found
    obtain rfl := Option.some.inj found
    have elsewhere : (s.primary (configs w).space).epoch ≠ some checked := by
      rw [heard.checks w id checked sent, same_space, same_epoch]
      exact retired.away
    rw [Redis.health, if_pos (.inl elsewhere)]
    exact .inr (.inl rfl)
  | reject =>
    refine retired.rewire _ _ _ ?_
    rintro answer _ _ ⟨⟩
    exact .inr (.inr rfl)
  | @provision space' expected fresh' =>
    apply retired.store
    rintro rfl
    rcases Redis.provision_cases (s.primary space') expected fresh' s.time with same | renewed
    · rw [same]
      exact retired.away
    · rw [renewed]
      intro back
      exact fresh expected (by rw [Option.some.inj back])
  | tick => exact ⟨retired.away, retired.ran, retired.answered⟩
  | linger => exact retired.store _ _ fun here => by subst here; exact retired.away

end Steps

/-- From a state on in which an epoch is not in force in a namespace, and as long as it is not drawn
again, no rotation from it succeeds, every `CONSUME` of its workers gets the reply -2, and no job of
theirs that Redis had not answered by then ends in a clearance. All such a job can read is an error or
-2, and a worker that has read -2 neither issues nor redeems any more; an error does not fence it. -/
theorem rotation_retires (crates : Crates) (configs : Nat → Config) (msec : Nat → UInt64) (time : Int)
    (before after : List Act) (mid final : State)
    (reached : Runs.Run (Step crates configs) (start msec time) before mid)
    (run : Runs.Run (Step crates configs) mid after final) (space epoch : Bytes)
    (away : (mid.primary space).epoch ≠ some epoch) (fresh : ∀ expected, .provision space expected epoch ∉ after) :
    (∀ successor, Redis.provision (final.primary space) (some epoch) successor final.time =
      (none, final.primary space)) ∧
    ∀ w, (configs w).space = space → (configs w).epoch = epoch →
      (∀ r ∈ final.ran.drop mid.ran.length, r.worker = w → r.reply = -2) ∧
      ∀ id, (mid.wires w id).answer = none →
        (∀ n grant, .finished (some id) n .accepted grant ∉ (final.workers w).log) ∧
        ∀ health found clock msec, .completed id health (.reply found clock) msec ∈ (final.workers w).log →
          found = .error ∨ found = .integer (-2) ∧ Cluster.issuer (configs w) (final.workers w) = none ∧
            Cluster.available (final.workers w) = false := by
  obtain ⟨inv, heard⟩ : Inv crates configs mid ∧ Heard configs mid :=
    reached.invariant (fun s => Inv crates configs s ∧ Heard configs s)
      (fun s _ t known taken => ⟨step_inv known.1 taken, step_heard known.1.books known.2 taken⟩)
      ⟨start_inv msec time, start_heard msec time⟩
  have initial : Retired configs space epoch mid mid := by
    refine ⟨away, ⟨[], (List.append_nil _).symm, nofun⟩, ?_⟩
    intro w id answer _ _ open_ found
    rw [open_] at found
    cases found
  obtain ⟨inv, heard, retired⟩ : Inv crates configs final ∧ Heard configs final ∧ Retired configs space epoch mid final := by
    refine run.invariant_of (fun s => Inv crates configs s ∧ Heard configs s ∧ Retired configs space epoch mid s)
      (fun act => ∀ expected, act ≠ .provision space expected epoch) ?_ ?_ ⟨inv, heard, initial⟩
    · rintro s act t ⟨inv, heard, retired⟩ other taken
      exact ⟨step_inv inv taken, step_heard inv.books heard taken, step_retired inv.books heard retired other taken⟩
    · rintro act member expected rfl
      exact fresh expected member
  have read (w : Nat) (same_space : (configs w).space = space) (same_epoch : (configs w).epoch = epoch) (id : Id)
      (open_ : (mid.wires w id).answer = none) {health : Bool} {found : Resp.Reply} {clock : Int64} {msec : UInt64}
      (noted : .completed id health (.reply found clock) msec ∈ (final.workers w).log) :
      found = .error ∨ found = .integer (-2) := by
    obtain ⟨answer, answered, rfl⟩ := heard.replied w id health found clock msec noted
    rcases retired.answered w id answer same_space same_epoch open_ answered with rfl | error
    · exact .inr rfl
    · exact .inl error
  refine ⟨fun successor => if_pos retired.away, fun w same_space same_epoch => ⟨?_, fun id open_ => ⟨?_, ?_⟩⟩⟩
  · obtain ⟨later, split, all⟩ := retired.ran
    intro r member here
    rw [split, List.drop_left] at member
    exact all r member (here ▸ same_space) (here ▸ same_epoch)
  · intro n grant noted
    obtain ⟨rd, _, _, paid⟩ := (inv.books.answers w).notes id n grant .accepted noted
    obtain ⟨clock, msec, completed, _⟩ := paid rfl
    rcases read w same_space same_epoch id open_ completed with same | same
    · cases same
    · exact absurd same (by decide)
  · intro health found clock msec noted
    rcases read w same_space same_epoch id open_ noted with rfl | rfl
    · exact .inl rfl
    · have fenced := heard.fenced w id health clock msec noted
      exact .inr ⟨rfl, if_pos fenced, by simp [Cluster.available, fenced]⟩

/-- The reference epoch is provisioned and rotated away, and the first health check finds out. -/
theorem rotation_retires_checked : ∃ final,
    Runs.Run (Step Reference.crates fun _ => Reference.site) (start (fun _ => 5000) 1010)
      [.provision Reference.site.space none Reference.site.epoch,
        .provision Reference.site.space (some Reference.site.epoch) (List.replicate 64 97), .act 0 .poll, .dial 0, .run 0 0,
        .hear 0 0 5 0] final ∧
      Cluster.issuer Reference.site (final.workers 0) = none := by
  let config := Reference.site
  let successor : Bytes := List.replicate 64 97
  let initial := start (fun _ => 5000) 1010
  let first := initial.setPrimary config.space
    (Redis.provision (initial.primary config.space) none config.epoch initial.time).2
  let mid := first.setPrimary config.space
    (Redis.provision (first.primary config.space) (some config.epoch) successor first.time).2
  have reached : Runs.Run (Step Reference.crates fun _ => Reference.site) initial
      [.provision config.space none config.epoch, .provision config.space (some config.epoch) successor] mid :=
    .cons .provision (.cons .provision .nil)
  have stored : (mid.primary config.space).epoch = some successor := by rfl
  let polled := Cluster.poll config (mid.workers 0)
  let s₁ := mid.advance (fun _ => config) 0 polled
  have one : Step Reference.crates (fun _ => Reference.site) mid (.act 0 .poll) s₁ := .act rfl rfl
  let dialed := Cluster.connect { polled with stack := [] } 0 (Cluster.makeHealth config) true
  let s₂ := (s₁.advance (fun _ => config) 0 dialed).setWire 0 0 ⟨some (.health config.epoch), none, 0⟩
  have two : Step Reference.crates (fun _ => Reference.site) s₁ (.dial 0) s₂ := by
    have taken : Cluster.Step Reference.crates config (s₁.workers 0) (.connect true) dialed := rfl
    have top : (s₁.workers 0).stack = [.connecting 0] := rfl
    have known : (s₁.workers 0).jobs 0 = some (Cluster.makeHealth config) := rfl
    exact .dial top known taken
  let s₃ := s₂.setWire 0 0 ⟨some (.health config.epoch), some (.integer (-2)), 0⟩
  have three : Step Reference.crates (fun _ => Reference.site) s₂ (.run 0 0) s₃ := by
    have sent : (s₂.wires 0 0).output = some (.health config.epoch) := rfl
    exact .check sent rfl
  let alive : Cluster.Job := { Cluster.makeHealth config with deadline := true, connection := true }
  let done := Cluster.complete dialed 0 alive .full true 0 (.reply (.integer (-2)) 0)
  let s₄ := (s₃.advance (fun _ => config) 0 done).setWire 0 0 ((s₃.wires 0 0).hear 5)
  have four : Step Reference.crates (fun _ => Reference.site) s₃ (.hear 0 0 5 0) s₄ := by
    have taken : Cluster.Step Reference.crates config (s₃.workers 0)
        (.read 0 (.data ((s₃.wires 0 0).chunk config.auth 5)) 0) done := rfl
    exact .hear (by decide) taken
  have run := Runs.Run.cons one (.cons two (.cons three (.cons four .nil)))
  have retired := rotation_retires Reference.crates (fun _ => Reference.site) (fun _ => 5000) 1010 _ _ mid s₄ reached run
    config.space config.epoch (by rw [stored]; decide) (by simp)
  have noted : .completed 0 true (.reply (.integer (-2)) 0) 5000 ∈ (s₄.workers 0).log := List.mem_singleton_self _
  rcases ((retired.2 0 rfl rfl).2 0 rfl).2 true (.integer (-2)) 0 5000 noted with impossible | ⟨-, closed, -⟩
  · cases impossible
  · exact ⟨s₄, reached.append run, closed⟩

end PowGate.Fleet
