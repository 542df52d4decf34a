import PowGate.FleetProgress

/-! One use across a fleet. Every clearance rests on a run of the script that replied 1, two such
runs never redeem the same token, and each job answers its request at most once. -/
namespace PowGate.Fleet

open Text
open Cluster (Id Config Wire)

/-- The issuer of each worker is the digest of its namespace and epoch, without collisions. -/
structure Identified (crates : Crates) (configs : Nat → Config) : Prop where
  issuer : ∀ w, (configs w).issuer = crates.sha256 (configs w).identity
  apart : ∀ w w', crates.sha256 (configs w).identity = crates.sha256 (configs w').identity →
    (configs w).identity = (configs w').identity

/-- The invariant of a run. -/
structure Inv (crates : Crates) (configs : Nat → Config) (s : State) : Prop where
  books : Books crates configs s
  history : History crates configs s
  markers : Markers configs s

/-- Job `id` of worker `w` read the reply 1 while the worker's clock was before the expiry, and the
script had run for this redemption while the worker's epoch was the stored one. -/
structure Paid (crates : Crates) (configs : Nat → Config) (s : State) (rd : Redemption) (w : Nat) (id : Id) :
    Prop where
  read : ∃ clock msec, .completed id false (.reply (.integer 1) clock) msec ∈ (s.workers w).log ∧
    clock < rd.expires
  ran : ∃ r ∈ s.ran, r.worker = w ∧ r.job = id ∧ r.reply = 1 ∧ r.stored = some (configs w).epoch ∧
    r.space = (configs w).space ∧ ∃ clock, r.args = Cluster.consumeArgs crates (configs w) rd clock

/-- The event sends a clearance for this token. -/
def clears (token : Bytes) : Event → Bool
  | .settle rd .accepted => rd.token = token
  | _ => false

section Runs

variable {crates : Crates} {configs : Nat → Config} {s t : State} {w : Nat} {id : Id} {rd : Redemption}

theorem start_inv (msec : Nat → UInt64) (time : Int) : Inv crates configs (start msec time) := by
  refine ⟨⟨fun w => Cluster.activate_inv _, fun w => Cluster.activate_dials _, fun w => Cluster.activate_answers _,
    fun w => Cluster.activate_links _⟩, ⟨?_, ?_⟩, ⟨?_, ?_, ?_, ?_, List.Pairwise.nil⟩⟩
  all_goals simp [start,Wire.closed]

theorem step_inv (inv : Inv crates configs s) (taken : Step crates configs s act t) : Inv crates configs t :=
  ⟨step_books inv.books taken, step_history inv.history taken, step_markers inv.books inv.markers taken⟩

/-- A clearance that a worker sends is paid for. -/
theorem Inv.paid (inv : Inv crates configs s) (noted : .finished job n .accepted grant ∈ (s.workers w).log)
    (owned : owner s.past (configs w).issuer n = some rd) :
    ∃ id, job = some id ∧ grant = rd.prepared ∧ Paid crates configs s rd w id := by
  cases job with
  | none =>
    have refused := ((inv.books.answers w).refused n grant .accepted noted).1
    cases refused
  | some id =>
    obtain ⟨rd', owned', same, read⟩ := (inv.books.answers w).notes id n grant .accepted noted
    obtain rfl := Option.some.inj (owned.symm.trans owned')
    obtain ⟨clock, msec, completed, early⟩ := read rfl
    obtain ⟨answer, args, output⟩ := (inv.books.links w id).heard clock msec completed
    obtain ⟨r, ran, worker, job, sent, one⟩ := inv.markers.replied w id args 1 output answer
    -- The script was sent for the request that is answered.
    obtain ⟨n', rd', caller, admitted, asked, shape⟩ := (inv.books.links w id).sent args output
    have accounts := (inv.books.workers w).accounts
    obtain rfl := Cluster.admits_unique (accounts.once id) admitted (accounts.answered id n .accepted grant noted)
    obtain rfl := Option.some.inj (owned.symm.trans asked)
    have stored := (inv.markers.paid r ran one).1
    have space := (inv.markers.sent r ran).1
    rw [sent,shape] at stored
    rw [worker] at space
    exact ⟨id, rfl, same, ⟨clock, msec, completed, early⟩,
      r, ran, worker, job, one, stored, space, caller, by rw [sent,shape]⟩

/-- The parts of an identity can be told apart. -/
theorem identity_inj {config config' : Config} (same : config.identity = config'.identity) :
    config.space = config'.space ∧ config.epoch = config'.epoch := by
  have plain : ∀ config : Config, 58 ∉ config.space := by
    intro config member
    have := config.space_plain 58 member
    revert this
    decide
  unfold Config.identity at same
  rw [List.append_assoc,List.append_assoc] at same
  have cut := congrArg (splitOnce 58) (List.append_cancel_left same)
  rw [splitOnce_append _ _ (plain config),splitOnce_append _ _ (plain config')] at cut
  exact Prod.mk.inj (Option.some.inj cut)

/-- One token is redeemed under one expiry, namespace and epoch. -/
theorem Inv.same_target (inv : Inv crates configs s) (identified : Identified crates configs)
    (owned : owner s.past (configs w).issuer n = some rd) (owned' : owner s.past (configs w').issuer n' = some rd')
    (same : rd.token = rd'.token) :
    rd.expires = rd'.expires ∧ (configs w).space = (configs w').space ∧ (configs w).epoch = (configs w').epoch := by
  obtain ⟨before, e, after, split, position, handled, begins⟩ := owner_some.mp owned
  obtain ⟨before', e', after', split', position', handled', begins'⟩ := owner_some.mp owned'
  have facts : rd.expires = rd'.expires ∧ (configs w).issuer = (configs w').issuer := by
    have entered := inv.history.entered
    rcases List.append_eq_append_iff.mp (split.symm.trans split') with ⟨middle, rfl, tail⟩ | ⟨middle, rfl, tail⟩
    · cases middle with
      | nil =>
        obtain ⟨rfl, _⟩ := List.cons.inj tail
        obtain rfl := Option.some.inj (begins.symm.trans begins')
        exact ⟨rfl, Option.some.inj (handled.symm.trans handled')⟩
      | cons x middle =>
        obtain ⟨rfl, rfl⟩ := List.cons.inj tail
        have stores := same_store entered split begins begins' same
        rw [handled,handled'] at stores
        exact ⟨(same_token entered split begins begins' same).1, Option.some.inj stores⟩
    · cases middle with
      | nil =>
        obtain ⟨rfl, _⟩ := List.cons.inj tail
        obtain rfl := Option.some.inj (begins.symm.trans begins')
        exact ⟨rfl, Option.some.inj (handled.symm.trans handled')⟩
      | cons x middle =>
        obtain ⟨rfl, rfl⟩ := List.cons.inj tail
        have stores := same_store entered split' begins' begins same.symm
        rw [handled,handled'] at stores
        exact ⟨(same_token entered split' begins' begins same.symm).1.symm, (Option.some.inj stores).symm⟩
  rw [identified.issuer,identified.issuer] at facts
  exact ⟨facts.1, identity_inj (identified.apart w w' facts.2)⟩

/-- Two clearances for one token come from the same job. -/
theorem Inv.same_job (inv : Inv crates configs s) (identified : Identified crates configs)
    (owned : owner s.past (configs w).issuer n = some rd) (owned' : owner s.past (configs w').issuer n' = some rd')
    (paid : Paid crates configs s rd w id) (paid' : Paid crates configs s rd' w' id') (same : rd.token = rd'.token) :
    w = w' ∧ id = id' := by
  obtain ⟨expires, space, epoch⟩ := inv.same_target identified owned owned' same
  obtain ⟨r, ran, worker, job, one, _, inside, caller, args⟩ := paid.ran
  obtain ⟨r', ran', worker', job', one', _, inside', caller', args'⟩ := paid'.ran
  have clash : ¬ Different r r' := by
    intro different
    apply different
    refine ⟨one, one', by rw [inside,inside',space], ?_, ?_⟩
    · simp only [args,args',Cluster.consumeArgs,space,epoch,same]
    · simp only [args,args',Cluster.consumeArgs,expires]
  have one_run : r = r' := by
    by_contra apart
    exact clash (inv.markers.once.forall ran ran' apart)
  subst one_run
  exact ⟨worker.symm.trans worker', job.symm.trans job'⟩

theorem clears_settle (cleared : clears token e = true) : ∃ rd, e = .settle rd .accepted ∧ rd.token = token := by
  unfold clears at cleared
  split at cleared
  · exact ⟨_, rfl, by simpa using cleared⟩
  · cases cleared

/-- A step adds no second clearance for a token. -/
theorem advance_clears (identified : Identified crates configs) (inv : Inv crates configs s)
    (reached : Inv crates configs t) (taken : Cluster.Step crates (configs w) (s.workers w) action next)
    (workers : t.workers = Function.update s.workers w next)
    (past : t.past = s.past ++ settlements s.past (configs w).issuer (next.log.drop (s.workers w).log.length))
    (once : s.past.countP (clears token) ≤ 1) : t.past.countP (clears token) ≤ 1 := by
  obtain ⟨more, log, single⟩ := Cluster.step_grown taken
  have tail : next.log.drop (s.workers w).log.length = more := by rw [log,List.drop_left]
  rw [tail] at past
  have few : (settlements s.past (configs w).issuer more).countP (clears token) ≤ 1 :=
    Nat.le_trans List.countP_le_length (Nat.le_trans (settlements_length more) single)
  rw [past,List.countP_append]
  by_contra two
  -- An old clearance and a new one would come from one job, which answers only once.
  obtain ⟨e, member, cleared⟩ := List.countP_pos_iff.mp (show 0 < s.past.countP (clears token) by omega)
  obtain ⟨e', member', cleared'⟩ :=
    List.countP_pos_iff.mp (show 0 < (settlements s.past (configs w).issuer more).countP (clears token) by omega)
  obtain ⟨rd, rfl, rfl⟩ := clears_settle cleared
  obtain ⟨rd', rfl, same⟩ := clears_settle cleared'
  obtain ⟨w₀, job, n, grant, noted, owned⟩ := inv.history.settled rd .accepted member
  obtain ⟨job', n', outcome, grant', rd'', noted', owned', settled⟩ := mem_settlements.mp member'
  cases settled
  have kept : .finished job n .accepted grant ∈ (t.workers w₀).log := by
    rw [workers]
    exact log_mono taken w₀ noted
  have here : t.workers w = next := by rw [workers,Function.update_self]
  have new : .finished job' n' .accepted grant' ∈ (t.workers w).log := by
    rw [here,log]
    exact List.mem_append_right _ noted'
  have grown : ∀ {issuer n rd}, owner s.past issuer n = some rd → owner t.past issuer n = some rd := by
    intro issuer n rd owned
    rw [past]
    exact owner_append owned
  obtain ⟨id, rfl, _, paid⟩ := reached.paid kept (grown owned)
  obtain ⟨id', rfl, _, paid'⟩ := reached.paid new (grown owned')
  obtain ⟨rfl, rfl⟩ := reached.same_job identified (grown owned) (grown owned') paid paid' same.symm
  have admitted := (reached.books.workers w₀).accounts.answered id n .accepted grant kept
  have answered := ((reached.books.workers w₀).safe.answered id n admitted).1
  rw [here,log,List.countP_append] at answered
  have first : 0 < (s.workers w₀).log.countP (Cluster.Note.finishes id) :=
    List.countP_pos_iff.mpr ⟨_, noted, by simp [Cluster.Note.finishes]⟩
  have second : 0 < more.countP (Cluster.Note.finishes id) :=
    List.countP_pos_iff.mpr ⟨_, noted', by simp [Cluster.Note.finishes]⟩
  omega

theorem Inv.enter (inv : Inv crates configs s) (enters : Enters crates configs s w e v) :
    Inv crates configs { s with past := s.past ++ [e] } :=
  ⟨inv.books.later [e], inv.history.visit enters,
    ⟨inv.markers.clock, inv.markers.sent, inv.markers.replied, inv.markers.paid, inv.markers.once⟩⟩

theorem Enters.clears (enters : Enters crates configs s w e v) : clears token e = false := by
  cases e with
  | access _ => rfl
  | submit _ _ _ => rfl
  | settle _ _ => cases enters.visit

theorem step_clears (identified : Identified crates configs) (inv : Inv crates configs s)
    (taken : Step crates configs s act t) (once : s.past.countP (clears token) ≤ 1) :
    t.past.countP (clears token) ≤ 1 := by
  have reached := step_inv inv taken
  cases taken with
  | visit enters => simpa [enters.clears] using once
  | redeem enters _ taken =>
    refine advance_clears identified (inv.enter enters) reached taken rfl rfl ?_
    simpa [enters.clears] using once
  | act _ taken => exact advance_clears identified inv reached taken rfl rfl once
  | dial _ _ taken => exact advance_clears identified inv reached taken rfl rfl once
  | hear _ taken => exact advance_clears identified inv reached taken rfl rfl once
  | run => exact once
  | check => exact once
  | reject => exact once
  | provision => exact once
  | tick => exact once
  | linger => exact once

end Runs

/-- In every run of a fleet at most one clearance is sent for each token, and every clearance that
is sent was read off the reply 1 to a script that ran under the worker's own epoch, before the
token expired by the worker's clock. -/
theorem fleet_one_use (crates : Crates) (configs : Nat → Config) (identified : Identified crates configs)
    (msec : Nat → UInt64) (time : Int) (acts : List Act) (final : State)
    (run : Runs.Run (Step crates configs) (start msec time) acts final) :
    (∀ token, final.past.countP (clears token) ≤ 1) ∧
    ∀ rd, .settle rd .accepted ∈ final.past → ∃ w id n,
      .finished (some id) n .accepted rd.prepared ∈ (final.workers w).log ∧
      owner final.past (configs w).issuer n = some rd ∧ Paid crates configs final rd w id := by
  have inv : Inv crates configs final :=
    run.invariant (Inv crates configs) (fun _ _ _ inv taken => step_inv inv taken) (start_inv msec time)
  refine ⟨?_, ?_⟩
  · intro token
    refine (run.invariant (fun s => Inv crates configs s ∧ s.past.countP (clears token) ≤ 1) ?_
      ⟨start_inv msec time, Nat.zero_le _⟩).2
    rintro s act t ⟨inv, once⟩ taken
    exact ⟨step_inv inv taken, step_clears identified inv taken once⟩
  · intro rd sent
    obtain ⟨w, job, n, grant, noted, owned⟩ := inv.history.settled rd .accepted sent
    obtain ⟨id, rfl, rfl, paid⟩ := inv.paid noted owned
    exact ⟨w, id, n, noted, owned, paid⟩

end PowGate.Fleet

namespace PowGate.Reference

open Text
open Cluster (Config)

def unnamed : Config := { Cluster.narrow with epoch := List.replicate 64 102 }

/-- The same client, identified by the digest of its namespace and epoch. -/
def named (config : Config) : Config := { config with issuer := crates.sha256 config.identity }

theorem named_issuer (config : Config) : (named config).issuer = crates.sha256 (named config).identity := rfl

/-- The Redis client of every worker of the deployment. -/
def site : Config := named unnamed

/-- A visit to a worker of the fleet. -/
def abroad : Stay where
  w := { worker with issuer := some site.issuer, clusterEnabled := true, clusterAvailable := true }
  client := ascii "PYmBOnTKNRXw5Rzv2p7NDIykos4sAKd5oH5zsZzGnl0"
  grantTag := ascii "4YoZYuO5OW3hyM50NUTgAmRGME6QafGjIfcQhipvgME"

theorem abroad_genuine : abroad.Genuine where
  uses := rfl
  known := rfl
  up := by decide
  client := by decide +kernel
  grant := by decide +kernel
  short := by decide +kernel
  apart := by decide

end PowGate.Reference

namespace PowGate.Fleet

/-- A provisioned worker passes its health check, and the client that waited gets its clearance. -/
theorem site_cleared : ∃ acts final, Runs.Run (Step Reference.crates fun _ => Reference.site)
      ((start (fun _ => 5000) 1010).setPrimary Reference.site.space ⟨some Reference.site.epoch, some 1010, fun _ => none⟩) acts final ∧
    .settle Reference.abroad.redemption .accepted ∈ final.past ∧ Undrawn acts := by
  let stay := Reference.abroad
  let asked : Event := .access (stay.visit Reference.asking 1000)
  let passed : Event := .access (stay.visit stay.passing 1010)
  let renewed : Redis.Primary := ⟨some Reference.site.epoch, some 1010, fun _ => none⟩
  let opened := (start (fun _ => 5000) 1010).setPrimary Reference.site.space renewed
  have genuine : stay.Genuine := Reference.abroad_genuine
  have stored : opened.primary Reference.site.space = renewed := setPrimary_self _ _ _
  have provisioned : Provisioned Reference.site (opened.primary Reference.site.space) opened.time := by
    rw [stored]
    exact ⟨rfl, 1010, rfl, Int.le_refl _⟩
  obtain ⟨checks, r, checked, resting, ready, time, primary, past, undrawn⟩ :=
    worker_ready Reference.crates (fun _ => Reference.site) opened 0 ⟨rfl, rfl, rfl, rfl⟩ rfl rfl provisioned
  have issuer := Cluster.available_issuer Reference.site ready
  have none : r.past = [] := past
  have entered : Enters Reference.crates (fun _ => Reference.site) r 0 asked (stay.visit Reference.asking 1000) := by
    refine ⟨rfl, rfl, issuer.symm, ready.symm, ?_, ?_⟩
    · rw [none]
      exact genuine.asking_sound
    · rw [none]
      intro e member
      cases member
  have second : Step Reference.crates (fun _ => Reference.site) r (.visit 0 asked) { r with past := r.past ++ [asked] } :=
    .visit entered genuine.asking_begins
  have returned : Enters Reference.crates (fun _ => Reference.site) { r with past := r.past ++ [asked] } 0 passed
      (stay.visit stay.passing 1010) := by
    refine ⟨rfl, rfl, issuer.symm, ready.symm, ?_, ?_⟩
    · rw [none]
      exact genuine.passing_sound
    · rw [none]
      intro e member v visited message found message' found' _
      rw [List.mem_singleton.mp member] at visited
      cases visited
      have left := Option.some.inj (found.symm.trans (genuine.found stay.passing rfl))
      have right := Option.some.inj (found'.symm.trans (genuine.found Reference.asking rfl))
      rw [left,right]
  have unspent : (r.primary Reference.site.space).spent (Redis.keys Reference.crates Reference.site.space
      Reference.site.epoch stay.redemption.token).2.1 = .none := by
    rw [primary,stored]
  have kept : Provisioned Reference.site (r.primary Reference.site.space) r.time := by
    rw [primary,time]
    exact provisioned
  have now : r.time = 1010 := time
  obtain ⟨acts, final, redeemed, settled, undrawn'⟩ := redemption_cleared Reference.crates (fun _ => Reference.site)
    { r with past := r.past ++ [asked] } 0 1010 1010 returned genuine.passing_begins resting ready kept unspent
    (by rw [now]; decide) (by rw [now]; decide) (by decide)
  refine ⟨_, final, checked.append (.cons second redeemed), ?_, fun space expected fresh member => ?_⟩
  · rw [settled]
    exact List.mem_append_right _ (List.mem_cons_of_mem _ (List.mem_singleton_self _))
  · rcases List.mem_append.mp member with before | after
    · exact undrawn space expected fresh before
    · exact (List.mem_cons.mp after).elim nofun (undrawn' space expected fresh)

/-- The epoch is provisioned, a worker passes its health check, and the client that waited gets its
clearance. -/
theorem fleet_one_use_wait : ∃ acts final,
    Runs.Run (Step Reference.crates fun _ => Reference.site) (start (fun _ => 5000) 1010) acts final ∧
      .settle Reference.abroad.redemption .accepted ∈ final.past ∧
      ∀ token, final.past.countP (clears token) ≤ 1 := by
  obtain ⟨acts, final, cleared, settled, -⟩ := site_cleared
  have first : Step Reference.crates (fun _ => Reference.site) (start (fun _ => 5000) 1010)
      (.provision Reference.site.space none Reference.site.epoch) _ := .provision
  have run := Runs.Run.cons first cleared
  exact ⟨_, final, run, settled,
    (fleet_one_use Reference.crates (fun _ => Reference.site) ⟨fun _ => Reference.named_issuer _, fun _ _ _ => rfl⟩ _ _ _ _ run).1⟩

end PowGate.Fleet
