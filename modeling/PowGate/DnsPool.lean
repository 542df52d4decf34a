import PowGate.Crawlers

/-! The lookups behind the DNS verdicts of one worker process. The event loop opens an entry in a
verifier's cache and hands a job to a bounded queue; a few threads take jobs, ask the resolver and
write the verdicts back. The event loop and the threads take turns in any order, and every cache is
locked only for a single call. -/
namespace PowGate.DnsPool

open Text Verdicts Feeds

def dnsCacheEntries : Nat := 2048

def dnsQueueCapacity : Nat := 64

def dnsThreads : Nat := 2

variable {V : Type} [DecidableEq V]

structure DnsJob (V : Type) where
  verifier : V
  ip : IpAddr
  generation : Nat
  deriving DecidableEq

/-- Where a thread of the pool stands in its loop. -/
inductive Thread (V : Type) where
  | idle
  | resolving (job : DnsJob V)
  | found (job : DnsJob V) (ok : Bool)

/-- Where the event loop stands in `fcrdns_cached`. -/
inductive Hand (V : Type) where
  | free
  | sending (job : DnsJob V)
  | cancelling (job : DnsJob V)

/-- The pool is started by the first job, with as many threads as can be had. -/
structure State (V : Type) where
  verdicts : V → VerdictCache IpAddr
  pool : Option (List (Thread V))
  queue : List (DnsJob V)
  hand : Hand V

def Thread.jobs : Thread V → List (DnsJob V)
  | .idle => []
  | .resolving job => [job]
  | .found job _ => [job]

def Hand.jobs : Hand V → List (DnsJob V)
  | .free => []
  | .sending job => [job]
  | .cancelling job => [job]

def State.threads (s : State V) : List (Thread V) := s.pool.getD []

/-- The jobs that are on their way. -/
def State.outstanding (s : State V) : List (DnsJob V) :=
  s.hand.jobs ++ (s.queue ++ s.threads.flatMap Thread.jobs)

/-- A worker after `init_process`; caches were made when the configuration was read. -/
def fresh (ttl created : V → Nat) : State V where
  verdicts v := new dnsCacheEntries (ttl v) (created v)
  pool := none
  queue := []
  hand := .free

inductive Act (V : Type) where
  /-- `begin` of a request for a verifier with suffixes. -/
  | ask (verifier : V) (ip : IpAddr) (now : Nat) (result : Lookup)
  /-- `dns_pool` for the first time. -/
  | start (spawned : Nat)
  | send (job : DnsJob V)
  | cancel (job : DnsJob V)
  | take (job : DnsJob V)
  /-- The answers of the resolver to this job. -/
  | resolve (job : DnsJob V) (reverse : IpAddr → Option Bytes) (forward : Bytes → List IpAddr)
  | store (job : DnsJob V) (verdict : Bool) (now : Nat)

def Hand.begun (verifier : V) (ip : IpAddr) : Lookup → Hand V
  | .start generation => .sending ⟨verifier, ip, generation⟩
  | _ => .free

/-- `try_send`. -/
def State.trySend (s : State V) (job : DnsJob V) : State V :=
  if s.threads ≠ [] ∧ s.queue.length < dnsQueueCapacity then
    { s with queue := s.queue ++ [job], hand := .free }
  else { s with hand := .cancelling job }

inductive Step (verifiers : V → Verifier) (s : State V) : Act V → State V → Prop where
  | ask (free : s.hand = .free) (begun : begin (s.verdicts verifier) ip now = (result, cache)) :
      Step verifiers s (.ask verifier ip now result)
        { s with verdicts := Function.update s.verdicts verifier cache, hand := .begun verifier ip result }
  | start (sending : s.hand = .sending job) (unset : s.pool = none) (few : spawned ≤ dnsThreads) :
      Step verifiers s (.start spawned) { s with pool := some (List.replicate spawned .idle) }
  | send (sending : s.hand = .sending job) (started : s.pool.isSome) :
      Step verifiers s (.send job) (s.trySend job)
  | cancel (cancelling : s.hand = .cancelling job) :
      Step verifiers s (.cancel job) { s with
        verdicts := Function.update s.verdicts job.verifier
          (Verdicts.cancel (s.verdicts job.verifier) job.ip job.generation)
        hand := .free }
  | take {before after : List (Thread V)} {job : DnsJob V} {rest : List (DnsJob V)} (queued : s.queue = job :: rest) (idle : s.pool = some (before ++ .idle :: after)) :
      Step verifiers s (.take job) { s with queue := rest, pool := some (before ++ .resolving job :: after) }
  | resolve {before after : List (Thread V)} {job : DnsJob V} {reverse : IpAddr → Option Bytes}
      {forward : Bytes → List IpAddr} (busy : s.pool = some (before ++ .resolving job :: after)) :
      Step verifiers s (.resolve job reverse forward) { s with
        pool := some (before ++
          .found job (fcrdnsConfirm reverse forward job.ip (verifiers job.verifier).fcrdnsSuffixes) :: after) }
  | store {before after : List (Thread V)} {job : DnsJob V} {ok : Bool} {now : Nat}
      (busy : s.pool = some (before ++ .found job ok :: after)) :
      Step verifiers s (.store job ok now) { s with
        verdicts := Function.update s.verdicts job.verifier
          (complete (s.verdicts job.verifier) job.ip job.generation ok now)
        pool := some (before ++ .idle :: after) }

/-- The job a lookup makes. -/
def Act.started : Act V → List (DnsJob V)
  | .ask verifier ip _ (.start generation) => [⟨verifier, ip, generation⟩]
  | _ => []

/-- The job that was answered, or given up because it could not be queued. -/
def Act.settled : Act V → List (DnsJob V)
  | .cancel job => [job]
  | .store job _ _ => [job]
  | _ => []

/-- A step of one of the threads. -/
def Act.threads : Act V → Prop
  | .take _ => True
  | .resolve _ _ _ => True
  | .store _ _ _ => True
  | _ => False

section Jobs

variable {verifiers : V → Verifier} {s t : State V} {act : Act V}

/-- A step makes at most the job of its lookup and loses at most the one it settles. -/
theorem step_jobs (taken : Step verifiers s act t) : (act.started ++ s.outstanding).Perm (act.settled ++ t.outstanding) := by
  rw [List.perm_iff_count]
  intro job
  cases taken with
  | @ask verifier ip now result cache free begun =>
    cases result <;> simp [Act.started,Act.settled,State.outstanding,State.threads,Hand.begun,Hand.jobs,free]
  | @start job' spawned sending unset few =>
    have bare : (List.replicate spawned (.idle : Thread V)).flatMap Thread.jobs = [] := by
      simp [List.flatMap_replicate,Thread.jobs]
    simp [Act.started,Act.settled,State.outstanding,State.threads,unset,bare]
  | @send job' sending started =>
    unfold State.trySend
    split
    · simp only [Act.started,Act.settled,State.outstanding,State.threads,sending,Hand.jobs,List.count_append,List.nil_append]
      omega
    · simp [Act.started,Act.settled,State.outstanding,State.threads,sending,Hand.jobs]
  | cancel cancelling => simp [Act.started,Act.settled,State.outstanding,State.threads,cancelling,Hand.jobs]
  | take queued idle =>
    simp only [Act.started,Act.settled,State.outstanding,State.threads,queued,idle,Thread.jobs,List.count_append,
      List.nil_append,Option.getD_some,List.flatMap_append,List.flatMap_cons,List.count_cons,List.count_nil]
    omega
  | resolve busy => simp [Act.started,Act.settled,State.outstanding,State.threads,busy,Thread.jobs]
  | store busy =>
    simp only [Act.started,Act.settled,State.outstanding,State.threads,busy,Thread.jobs,List.count_append,
      List.nil_append,Option.getD_some,List.flatMap_append,List.flatMap_cons,List.count_cons,List.count_nil]
    omega

/-- Every lookup that was started is answered, given up or still on its way, once. -/
theorem run_jobs {ttl created : V → Nat} (run : Runs.Run (Step verifiers) (fresh ttl created) acts s) :
    (acts.flatMap Act.started).Perm (acts.flatMap Act.settled ++ s.outstanding) := by
  refine run.history (fun past s => (past.flatMap Act.started).Perm (past.flatMap Act.settled ++ s.outstanding))
    (List.Perm.refl _) ?_
  intro past s act t known taken
  rw [List.flatMap_append,List.flatMap_append,List.flatMap_singleton,List.flatMap_singleton,List.perm_iff_count]
  intro job
  have before := known.count_eq job
  have after := (step_jobs taken).count_eq job
  simp only [List.count_append] at before after ⊢
  omega

end Jobs

section Entries

variable {K : Type} [DecidableEq K] {cache next : VerdictCache K} {entry : Entry}

/-- After `begin` a cache has the entries it had, and perhaps the one of the new lookup. -/
theorem lookup_begin (begun : begin cache key now = (result, next)) (found : next.entries.lookup other = some entry) :
    cache.entries.lookup other = some entry ∨
      other = key ∧ result = .start entry.generation ∧ entry.verdict = false := by
  rcases begin_cases begun with ⟨_, _, _, _, rfl⟩ | ⟨_, others, _, opened⟩
  · exact .inl found
  · by_cases same : other = key
    · subst same
      rcases opened with ⟨_, absent, _⟩ | ⟨rfl, new, _⟩
      · rw [absent] at found
        cases found
      · obtain rfl := Option.some.inj (new.symm.trans found)
        exact .inr ⟨rfl, rfl, rfl⟩
    · rcases others other same with kept | ⟨absent, _⟩
      · exact .inl (kept ▸ found)
      · rw [absent] at found
        cases found

/-- After `complete` the entry of this generation holds the reply. -/
theorem lookup_complete (found : (complete cache key generation verdict now).entries.lookup other = some entry) :
    (other = key ∧ entry = ⟨verdict, now, generation⟩) ∨
      (cache.entries.lookup other = some entry ∧ (other = key → entry.generation ≠ generation)) := by
  unfold complete at found
  split at found
  · next old known =>
    split at found
    · next current =>
      by_cases same : other = key
      · subst same
        rw [AList.lookup_insert,current] at found
        exact .inl ⟨rfl, (Option.some.inj found).symm⟩
      · rw [AList.lookup_insert_ne same] at found
        exact .inr ⟨found, fun here => absurd here same⟩
    · next stale =>
      refine .inr ⟨found, ?_⟩
      rintro rfl
      rwa [← Option.some.inj (known.symm.trans found)]
  · next absent =>
    refine .inr ⟨found, ?_⟩
    rintro rfl
    rw [absent] at found
    cases found

/-- After `cancel` there is no entry of this generation. -/
theorem lookup_cancel (found : (Verdicts.cancel cache key generation).entries.lookup other = some entry) :
    cache.entries.lookup other = some entry ∧ (other = key → entry.generation ≠ generation) := by
  unfold Verdicts.cancel at found
  split at found
  · by_cases same : other = key
    · subst same
      rw [AList.lookup_erase] at found
      cases found
    · rw [AList.lookup_erase_ne same] at found
      exact ⟨found, fun here => absurd here same⟩
  · next kept =>
    refine ⟨found, ?_⟩
    rintro rfl same
    rw [found] at kept
    exact kept (by simpa using same)

end Entries

/-- The caches, the queue and the pool stay within their limits, and a queue has threads to serve it. -/
structure Bounded (ttl : V → Nat) (s : State V) : Prop where
  cached : ∀ v, len (s.verdicts v) ≤ dnsCacheEntries ∧ (s.verdicts v).capacity = dnsCacheEntries ∧ (s.verdicts v).ttl = ttl v
  queued : s.queue.length ≤ dnsQueueCapacity
  few : s.threads.length ≤ dnsThreads
  served : s.queue ≠ [] → s.threads ≠ []

/-- What is known of an entry: its lookup is on its way and it refuses, or a thread has stored in it
what the resolver's answers made of the address. -/
inductive Standing (verifiers : V → Verifier) (past : List (Act V)) (s : State V) (v : V) (ip : IpAddr) (entry : Entry) :
    Prop where
  | pending (refusing : entry.verdict = false) (job : ⟨v, ip, entry.generation⟩ ∈ s.outstanding)
  | answered (resolved : past = front ++ .resolve ⟨v, ip, entry.generation⟩ reverse forward :: middle ++
        .store ⟨v, ip, entry.generation⟩ entry.verdict entry.at_ :: back)
      (verdict : entry.verdict = fcrdnsConfirm reverse forward ip (verifiers v).fcrdnsSuffixes)

structure Grounded (verifiers : V → Verifier) (past : List (Act V)) (s : State V) : Prop where
  found : ∀ job ok, .found job ok ∈ s.threads → ∃ front reverse forward middle,
    past = front ++ .resolve job reverse forward :: middle ∧
      ok = fcrdnsConfirm reverse forward job.ip (verifiers job.verifier).fcrdnsSuffixes
  entries : ∀ v ip entry, (s.verdicts v).entries.lookup ip = some entry → Standing verifiers past s v ip entry

section Steps

variable {verifiers : V → Verifier} {ttl : V → Nat} {s t : State V} {act : Act V} {past : List (Act V)}

/-- A call on one cache leaves the limits of all as they are. -/
theorem cached_update {cache : VerdictCache IpAddr} (v : V)
    (cached : ∀ v, len (s.verdicts v) ≤ dnsCacheEntries ∧ (s.verdicts v).capacity = dnsCacheEntries ∧ (s.verdicts v).ttl = ttl v)
    (frame : Frame (s.verdicts v) cache) (w : V) : len (Function.update s.verdicts v cache w) ≤ dnsCacheEntries ∧
      (Function.update s.verdicts v cache w).capacity = dnsCacheEntries ∧
      (Function.update s.verdicts v cache w).ttl = ttl w := by
  by_cases same : w = v
  · subst same
    rw [Function.update_self]
    obtain ⟨short, capacity, lifetime⟩ := cached w
    refine ⟨?_, frame.capacity.trans capacity, frame.ttl.trans lifetime⟩
    rw [← capacity]
    exact frame.bounded (capacity ▸ short)
  · rw [Function.update_of_ne same]
    exact cached w

theorem step_bounded (bounded : Bounded ttl s) (taken : Step verifiers s act t) : Bounded ttl t := by
  obtain ⟨cached, queued, few, served⟩ := bounded
  cases taken with
  | @ask verifier ip now result cache free begun =>
    exact ⟨cached_update verifier cached (step_frame (show Verdicts.Step _ (.begin ip now result) _ from begun)), queued, few, served⟩
  | start sending unset few' =>
    have idle : s.queue = [] := by
      by_contra waiting
      exact served waiting (by simp [State.threads,unset])
    exact ⟨cached, queued, by simpa [State.threads] using few', fun waiting => absurd idle waiting⟩
  | @send job sending started =>
    unfold State.trySend
    split
    · next room =>
      exact ⟨cached, by simpa using Nat.succ_le_of_lt room.2, few, fun _ => room.1⟩
    · exact ⟨cached, queued, few, served⟩
  | @cancel job cancelling =>
    have frame : Frame (s.verdicts job.verifier) _ :=
      step_frame (show Verdicts.Step _ (.cancel job.ip job.generation) _ from rfl)
    exact ⟨cached_update _ cached frame, queued, few, served⟩
  | take waiting idle =>
    rw [waiting] at queued
    rw [State.threads,idle] at few
    refine ⟨cached, Nat.le_of_succ_le queued, by simpa [State.threads] using few, fun _ => by simp [State.threads]⟩
  | resolve busy =>
    rw [State.threads,busy] at few
    exact ⟨cached, queued, by simpa [State.threads] using few, fun _ => by simp [State.threads]⟩
  | @store before after job ok now busy =>
    rw [State.threads,busy] at few
    have frame : Frame (s.verdicts job.verifier) _ :=
      step_frame (show Verdicts.Step _ (.complete job.ip job.generation ok now) _ from rfl)
    exact ⟨cached_update _ cached frame, queued, by simpa [State.threads] using few, fun _ => by simp [State.threads]⟩

omit [DecidableEq V] in
theorem fresh_bounded (ttl created : V → Nat) : Bounded ttl (fresh ttl created) :=
  ⟨fun _ => ⟨Nat.zero_le _, rfl, rfl⟩, Nat.zero_le _, Nat.zero_le _, fun waiting => absurd rfl waiting⟩

omit [DecidableEq V] in
/-- An entry that a step does not write keeps its standing. -/
theorem Standing.keep (standing : Standing verifiers past s v ip entry)
    (kept : ⟨v, ip, entry.generation⟩ ∈ s.outstanding → ⟨v, ip, entry.generation⟩ ∈ t.outstanding) :
    Standing verifiers (past ++ [act]) t v ip entry := by
  cases standing with
  | pending refusing job => exact .pending refusing (kept job)
  | answered resolved verdict => exact .answered (by rw [resolved,List.append_assoc,List.cons_append]) verdict

/-- A job that a step does not settle stays on its way. -/
theorem step_keeps (taken : Step verifiers s act t) (unsettled : job ∉ act.settled) (member : job ∈ s.outstanding) :
    job ∈ t.outstanding := by
  have kept := (step_jobs taken).mem_iff.mp (List.mem_append_right act.started member)
  rcases List.mem_append.mp kept with settled | kept
  · exact absurd settled unsettled
  · exact kept

/-- Entries of a cache that a step replaced, given what is known of the new ones. -/
theorem entries_update {cache : VerdictCache IpAddr} {verifier : V}
    (grounded : Grounded verifiers past s) (taken : Step verifiers s act t)
    (verdicts : t.verdicts = Function.update s.verdicts verifier cache)
    (here : ∀ ip entry, cache.entries.lookup ip = some entry → Standing verifiers (past ++ [act]) t verifier ip entry)
    (elsewhere : ∀ job ∈ act.settled, job.verifier = verifier) :
    ∀ v ip entry, (t.verdicts v).entries.lookup ip = some entry → Standing verifiers (past ++ [act]) t v ip entry := by
  intro v ip entry found
  rw [verdicts] at found
  by_cases same : v = verifier
  · subst same
    rw [Function.update_self] at found
    exact here ip entry found
  · rw [Function.update_of_ne same] at found
    refine (grounded.entries v ip entry found).keep (step_keeps taken ?_)
    intro settled
    exact same (elsewhere _ settled)

omit [DecidableEq V] in
/-- Threads that a step leaves alone are still grounded. -/
theorem found_keep (grounded : Grounded verifiers past s)
    (threads : ∀ job ok, .found job ok ∈ t.threads → .found job ok ∈ s.threads) :
    ∀ job ok, .found job ok ∈ t.threads → ∃ front reverse forward middle,
      past ++ [act] = front ++ .resolve job reverse forward :: middle ∧
        ok = fcrdnsConfirm reverse forward job.ip (verifiers job.verifier).fcrdnsSuffixes := by
  intro job ok member
  obtain ⟨front, reverse, forward, middle, rfl, same⟩ := grounded.found job ok (threads job ok member)
  exact ⟨front, reverse, forward, middle ++ [act], by simp, same⟩

omit [DecidableEq V] in
theorem mem_replaced {before after : List (Thread V)} {thread new : Thread V} (old : Thread V)
    (member : thread ∈ before ++ new :: after) : thread = new ∨ thread ∈ before ++ old :: after := by
  rcases List.mem_append.mp member with front | back
  · exact .inr (List.mem_append_left _ front)
  · rcases List.mem_cons.mp back with here | back
    · exact .inl here
    · exact .inr (List.mem_append_right _ (List.mem_cons_of_mem _ back))

theorem step_grounded (grounded : Grounded verifiers past s) (taken : Step verifiers s act t) :
    Grounded verifiers (past ++ [act]) t := by
  have step := taken
  have untouched : act.settled = [] → t.verdicts = s.verdicts → ∀ v ip entry,
      (t.verdicts v).entries.lookup ip = some entry → Standing verifiers (past ++ [act]) t v ip entry := by
    intro quiet same v ip entry found
    rw [same] at found
    exact (grounded.entries v ip entry found).keep (step_keeps step (by simp [quiet]))
  cases taken with
  | @ask verifier ip now result cache free begun =>
    refine ⟨found_keep grounded fun _ _ member => member, entries_update grounded step rfl ?_ (by simp [Act.settled])⟩
    intro other entry found
    rcases lookup_begin begun found with old | ⟨rfl, rfl, refusing⟩
    · exact (grounded.entries verifier other entry old).keep (step_keeps step (by simp [Act.settled]))
    · exact .pending refusing (by simp [State.outstanding,Hand.begun,Hand.jobs])
  | @start job spawned sending unset few =>
    refine ⟨found_keep grounded ?_, untouched rfl rfl⟩
    intro job ok member
    cases List.eq_of_mem_replicate (show _ ∈ List.replicate spawned _ from member)
  | @send job sending started =>
    have same : (s.trySend job).threads = s.threads ∧ (s.trySend job).verdicts = s.verdicts := by
      unfold State.trySend
      split <;> exact ⟨rfl, rfl⟩
    exact ⟨found_keep grounded fun _ _ member => same.1 ▸ member, untouched rfl same.2⟩
  | @cancel job cancelling =>
    refine ⟨found_keep grounded fun _ _ member => member, entries_update grounded step rfl ?_ (by simp [Act.settled])⟩
    intro other entry found
    obtain ⟨old, apart⟩ := lookup_cancel found
    refine (grounded.entries _ other entry old).keep (step_keeps step ?_)
    intro settled
    have same := List.mem_singleton.mp settled
    exact apart (congrArg DnsJob.ip same) (congrArg DnsJob.generation same)
  | take queued idle =>
    refine ⟨found_keep grounded ?_, untouched rfl rfl⟩
    intro job ok member
    simpa [State.threads,idle] using member
  | @resolve before after job reverse forward busy =>
    refine ⟨?_, untouched rfl rfl⟩
    intro job' ok member
    rcases mem_replaced (.resolving job) member with new | old
    · obtain ⟨rfl, rfl⟩ := Thread.found.inj new
      exact ⟨past, reverse, forward, [], rfl, rfl⟩
    · have kept : .found job' ok ∈ s.threads := by rwa [State.threads,busy]
      exact found_keep grounded (fun _ _ member => member) job' ok kept
  | @store before after job ok now busy =>
    obtain ⟨front, reverse, forward, middle, rfl, confirmed⟩ := grounded.found job ok (by simp [State.threads,busy])
    refine ⟨found_keep grounded ?_, entries_update grounded step rfl ?_ (by simp [Act.settled])⟩
    · intro job' ok' member
      rcases mem_replaced (.found job ok) member with new | old
      · cases new
      · rwa [State.threads,busy]
    · intro other entry found
      rcases lookup_complete found with ⟨rfl, rfl⟩ | ⟨old, apart⟩
      · have resolved : front ++ Act.resolve job reverse forward :: middle ++ [.store job ok now] =
            front ++ .resolve job reverse forward :: middle ++ .store job ok now :: [] := rfl
        exact .answered resolved confirmed
      · refine (grounded.entries _ other entry old).keep (step_keeps step ?_)
        intro settled
        have same := List.mem_singleton.mp settled
        exact apart (congrArg DnsJob.ip same) (congrArg DnsJob.generation same)

omit [DecidableEq V] in
theorem fresh_grounded (verifiers : V → Verifier) (ttl created : V → Nat) : Grounded verifiers [] (fresh ttl created) := by
  refine ⟨fun _ _ member => absurd member List.not_mem_nil, ?_⟩
  intro v ip entry found
  have empty : ((fresh ttl created).verdicts v).entries.lookup ip = none := AList.lookup_empty ip
  rw [empty] at found
  cases found

theorem run_grounded {created : V → Nat} (run : Runs.Run (Step verifiers) (fresh ttl created) acts s) :
    Grounded verifiers acts s :=
  run.history (Grounded verifiers) (fresh_grounded verifiers ttl created) fun _ _ _ _ grounded taken => step_grounded grounded taken

theorem run_bounded {created : V → Nat} (run : Runs.Run (Step verifiers) (fresh ttl created) acts s) : Bounded ttl s :=
  run.invariant (Bounded ttl) (fun _ _ _ bounded taken => step_bounded bounded taken) (fresh_bounded ttl created)

omit [DecidableEq V] in
/-- One job in the event loop, one with each thread, the rest in the queue. -/
theorem Bounded.outstanding (bounded : Bounded ttl s) : s.outstanding.length ≤ 1 + (dnsQueueCapacity + dnsThreads) := by
  have hand : s.hand.jobs.length ≤ 1 := by cases s.hand <;> simp [Hand.jobs]
  have threads : ∀ threads : List (Thread V), (threads.flatMap Thread.jobs).length ≤ threads.length := by
    intro threads
    induction threads with
    | nil => exact Nat.le_refl _
    | cons thread threads ih =>
      have one : thread.jobs.length ≤ 1 := by cases thread <;> simp [Thread.jobs]
      simp only [List.flatMap_cons,List.length_append,List.length_cons]
      omega
  have queued := bounded.queued
  have busy := Nat.le_trans (threads s.threads) bounded.few
  simp only [State.outstanding,List.length_append]
  omega

end Steps

/-- A crawler whose names end in one suffix, and the address of one of its machines. -/
def sampleCrawler : Verifier := ⟨100, [], [ascii "bot.example"], Nat.succ_pos 99⟩

def sampleAddress : IpAddr := .v4 0xc0000207

def sampleReverse : IpAddr → Option Bytes := fun _ => some (ascii "a.bot.example")

def sampleForward : Bytes → List IpAddr := fun _ => [sampleAddress]

theorem update_only (a b : VerdictCache IpAddr) : Function.update (fun _ : Unit => a) () b = fun _ => b := by
  funext u
  cases u
  exact Function.update_self ..

def sampleJob : DnsJob Unit := ⟨(), sampleAddress, 1⟩

/-- A request opens a lookup, one thread can be started, and the resolver confirms the name. -/
def sampleAsked : List (Act Unit) := [.ask () sampleAddress 10 (.start 1), .start 1, .send sampleJob]

def sampleOwn : List (Act Unit) := [.take sampleJob, .resolve sampleJob sampleReverse sampleForward, .store sampleJob true 20]

def sampleCache (verdict : Bool) (now : Nat) : VerdictCache IpAddr :=
  ⟨AList.singleton sampleAddress ⟨verdict, now, 1⟩, 2048, 50, 0, 1⟩

theorem sampleAsked_run : Runs.Run (Step fun _ => sampleCrawler) (fresh (fun _ => 50) fun _ => 0) sampleAsked
    ⟨fun _ => sampleCache false 10, some [.idle], [sampleJob], .free⟩ := by
  refine .cons (.ask rfl (by rfl)) ?_
  rw [fresh,update_only]
  refine .cons (.start rfl rfl (by decide)) ?_
  exact .cons (.send rfl rfl) .nil

theorem sampleOwn_run : Runs.Run (Step fun _ => sampleCrawler)
    ⟨fun _ => sampleCache false 10, some [.idle], [sampleJob], .free⟩ sampleOwn
    ⟨fun _ => sampleCache true 20, some [.idle], [], .free⟩ := by
  have confirmed : fcrdnsConfirm sampleReverse sampleForward sampleAddress sampleCrawler.fcrdnsSuffixes = true := by decide
  have first : Step (fun _ => sampleCrawler) ⟨fun _ => sampleCache false 10, some [.idle], [sampleJob], .free⟩
      (.take sampleJob) ⟨fun _ => sampleCache false 10, some [.resolving sampleJob], [], .free⟩ :=
    @Step.take Unit _ _ _ [] [] sampleJob [] rfl rfl
  have second : Step (fun _ => sampleCrawler) ⟨fun _ => sampleCache false 10, some [.resolving sampleJob], [], .free⟩
      (.resolve sampleJob sampleReverse sampleForward)
      ⟨fun _ => sampleCache false 10, some [.found sampleJob true], [], .free⟩ := by
    rw [← confirmed]
    exact @Step.resolve Unit _ _ _ [] [] sampleJob sampleReverse sampleForward rfl
  have third : Step (fun _ => sampleCrawler) ⟨fun _ => sampleCache false 10, some [.found sampleJob true], [], .free⟩
      (.store sampleJob true 20) ⟨fun _ => sampleCache true 20, some [.idle], [], .free⟩ := by
    rw [← update_only (sampleCache false 10) (sampleCache true 20)]
    exact @Step.store Unit _ _ _ [] [] sampleJob true 20 rfl
  exact .cons first (.cons second (.cons third .nil))

/-- Whatever requests come, however the threads are scheduled and whatever the resolver says, every
lookup that was started is answered once, given up once or on its way once; no more than 67 are on
their way, and a cache entry whose lookup is not holds what the resolver's answers made of it. -/
theorem lookups_conserved (verifiers : V → Verifier) (ttl created : V → Nat) (acts : List (Act V)) (s : State V)
    (run : Runs.Run (Step verifiers) (fresh ttl created) acts s) :
    (acts.flatMap Act.started).Perm (acts.flatMap Act.settled ++ s.outstanding) ∧ s.outstanding.length ≤ 67 ∧
      ∀ v, len (s.verdicts v) ≤ 2048 ∧
        ∀ ip entry, (s.verdicts v).entries.lookup ip = some entry → Standing verifiers acts s v ip entry := by
  have bounded := run_bounded run
  exact ⟨run_jobs run, bounded.outstanding, fun v => ⟨(bounded.cached v).1, (run_grounded run).entries v⟩⟩

/-- The lookup of the sample is on its way when it is asked for. -/
theorem lookups_conserved_asked : ∃ s : State Unit, s.outstanding = [sampleJob] ∧
    (sampleAsked.flatMap Act.started).Perm (sampleAsked.flatMap Act.settled ++ s.outstanding) :=
  ⟨_, rfl, (lookups_conserved (fun _ => sampleCrawler) (fun _ => 50) (fun _ => 0) _ _ sampleAsked_run).1⟩

section Settling

variable {verifiers : V → Verifier} {ttl : V → Nat} {s t : State V} {act : Act V}

/-- How many steps of its thread a job still needs. -/
def Thread.work : Thread V → Nat
  | .idle => 0
  | .resolving _ => 2
  | .found _ _ => 1

def State.work (s : State V) : Nat := 3 * s.queue.length + (s.threads.map Thread.work).sum

theorem step_work (taken : Step verifiers s act t) (own : act.threads) : t.work < s.work := by
  cases taken with
  | ask | start | send | cancel => cases own
  | take queued idle =>
    simp only [State.work,State.threads,queued,idle,Option.getD_some,List.map_append,List.map_cons,List.sum_append,
      List.sum_cons,Thread.work,List.length_cons]
    omega
  | resolve busy | store busy =>
    simp only [State.work,State.threads,busy,Option.getD_some,List.map_append,List.map_cons,List.sum_append,
      List.sum_cons,Thread.work]
    omega

omit [DecidableEq V] in
theorem Bounded.work (bounded : Bounded ttl s) : s.work ≤ 3 * dnsQueueCapacity + 2 * dnsThreads := by
  have threads : ∀ threads : List (Thread V), (threads.map Thread.work).sum ≤ 2 * threads.length := by
    intro threads
    induction threads with
    | nil => exact Nat.le_refl _
    | cons thread threads ih =>
      have two : thread.work ≤ 2 := by cases thread <;> simp [Thread.work]
      simp only [List.map_cons,List.sum_cons,List.length_cons]
      omega
  have queued := bounded.queued
  have few := bounded.few
  have busy := threads s.threads
  unfold State.work
  omega

/-- When no thread can go on there is nothing left for them. -/
theorem stuck_idle (bounded : Bounded ttl s) (stuck : ∀ act t, act.threads → ¬ Step verifiers s act t) :
    s.outstanding = s.hand.jobs := by
  have known : s.threads ≠ [] → s.pool = some s.threads := by
    unfold State.threads
    cases s.pool <;> simp
  have idle : ∀ thread ∈ s.threads, thread = .idle := by
    intro thread member
    obtain ⟨before, after, split⟩ := List.append_of_mem member
    have pool : s.pool = some (before ++ thread :: after) := split ▸ known (List.ne_nil_of_mem member)
    cases thread with
    | idle => rfl
    | resolving job =>
      exact absurd (.resolve pool) (stuck (.resolve job (fun _ => none) (fun _ => [])) _ trivial)
    | found job ok => exact absurd (.store pool) (stuck (.store job ok 0) _ trivial)
  have empty : s.queue = [] := by
    cases queued : s.queue with
    | nil => rfl
    | cons job rest =>
      have some_ := bounded.served (by simp [queued])
      obtain ⟨thread, threads, split⟩ := List.exists_cons_of_ne_nil some_
      obtain rfl := idle thread (by simp [split])
      have pool : s.pool = some ([] ++ .idle :: threads) := by
        rw [known some_,split]
        rfl
      exact absurd (.take queued pool) (stuck (.take job) _ trivial)
  have quiet : s.threads.flatMap Thread.jobs = [] := by
    rw [List.flatMap_eq_nil_iff]
    intro thread member
    rw [idle thread member]
    rfl
  simp [State.outstanding,empty,quiet]

end Settling

/-- From any state a worker gets into, the threads left to themselves stop within 196 steps, in
whatever order they run; then every entry that the event loop is not just working on holds what the
resolver's answers made of it. -/
theorem pool_settles (verifiers : V → Verifier) (ttl created : V → Nat) (acts own : List (Act V)) (s t : State V)
    (run : Runs.Run (Step verifiers) (fresh ttl created) acts s) (later : Runs.Run (Step verifiers) s own t)
    (threads : ∀ act ∈ own, act.threads) : own.length ≤ 196 ∧
      ((∀ act u, act.threads → ¬ Step verifiers t act u) → ∀ v ip entry, (t.verdicts v).entries.lookup ip = some entry →
        ⟨v, ip, entry.generation⟩ ∉ t.hand.jobs → ∃ front reverse forward middle back,
          acts ++ own = front ++ .resolve ⟨v, ip, entry.generation⟩ reverse forward :: middle ++
            .store ⟨v, ip, entry.generation⟩ entry.verdict entry.at_ :: back ∧
          entry.verdict = fcrdnsConfirm reverse forward ip (verifiers v).fcrdnsSuffixes) := by
  have decreasing : own.length + t.work ≤ s.work := by
    clear run
    induction later with
    | nil => simp
    | cons taken _ ih =>
      obtain ⟨first, rest⟩ := List.forall_mem_cons.mp threads
      have less := step_work taken first
      have others := ih rest
      simp only [List.length_cons]
      omega
  have start := (run_bounded run).work
  refine ⟨by simp only [dnsQueueCapacity,dnsThreads] at start; omega, ?_⟩
  intro stuck v ip entry found released
  have whole := run.append later
  have idle := stuck_idle (run_bounded whole) stuck
  cases (run_grounded whole).entries v ip entry found with
  | pending _ job =>
    rw [idle] at job
    exact absurd job released
  | answered resolved verdict => exact ⟨_, _, _, _, _, resolved, verdict⟩

/-- The thread of the sample stops after three steps. -/
theorem pool_settles_three : sampleOwn.length ≤ 196 :=
  (pool_settles (fun _ => sampleCrawler) (fun _ => 50) (fun _ => 0) _ _ _ _ sampleAsked_run sampleOwn_run (by
    intro act member
    rcases List.mem_cons.mp member with rfl | member
    · trivial
    · rcases List.mem_cons.mp member with rfl | member
      · trivial
      · rw [List.mem_singleton.mp member]
        trivial)).1

theorem fcrdnsConfirm_iff {reverse : IpAddr → Option Bytes} {forward : Bytes → List IpAddr} {ip : IpAddr}
    {suffixes : List Bytes} : fcrdnsConfirm reverse forward ip suffixes = true ↔
      ∃ host, reverse ip = some host ∧ (∃ suffix ∈ suffixes, hostMatchesSuffix host suffix = true) ∧ ip ∈ forward host := by
  unfold fcrdnsConfirm
  cases reverse ip with
  | none => simp
  | some host => simp [fcrdnsConfirms]

/-- A verdict by DNS comes from the cache. -/
theorem verifiedDns_cached {v : Verifier} {verdicts : VerdictCache IpAddr}
    (verified : (verifierResult (some v) loaded reloaded verdicts ip now begun queued).1 = (true, .verifiedDns)) :
    ∃ entry, verdicts.entries.lookup ip = some entry ∧ entry.verdict = true ∧ begun - entry.at_ < verdicts.ttl := by
  have cached : (fcrdnsCached verdicts ip begun queued).1 = true := by
    unfold verifierResult at verified
    dsimp only at verified
    split at verified
    · cases verified
    · by_cases named : v.fcrdnsSuffixes ≠ []
      · rw [if_pos named] at verified
        by_contra refused
        rw [if_neg refused] at verified
        split at verified <;> cases verified
      · rw [if_neg named,if_neg Bool.false_ne_true] at verified
        split at verified <;> cases verified
  unfold fcrdnsCached at cached
  generalize answered : begin verdicts ip begun = answer at cached
  obtain ⟨result, cache⟩ := answer
  rcases begin_cases answered with ⟨entry, found, young, rfl, rfl⟩ | ⟨_, _, _, ⟨rfl, _⟩ | ⟨rfl, _⟩⟩
  · exact ⟨entry, found, cached, by simpa [Verdicts.fresh] using young⟩
  · cases cached
  · cases cached

/-- A client is taken for a crawler by DNS only when a thread, for this verifier and this address,
got a name from the resolver that ends in one of the suffixes and leads back to the address, and
stored this less than the lifetime ago. -/
theorem verified_dns_confirmed (verifiers : V → Verifier) (ttl created : V → Nat) (acts : List (Act V)) (s : State V)
    (run : Runs.Run (Step verifiers) (fresh ttl created) acts s) (v : V) (loaded reloaded : List (Option FeedSnapshot))
    (ip : IpAddr) (now begun : Nat) (queued : Bool)
    (verified : (verifierResult (some (verifiers v)) loaded reloaded (s.verdicts v) ip now begun queued).1 =
      (true, .verifiedDns)) :
    ∃ front generation reverse forward middle stored back, acts = front ++ .resolve ⟨v, ip, generation⟩ reverse forward ::
        middle ++ .store ⟨v, ip, generation⟩ true stored :: back ∧ begun - stored < ttl v ∧
      ∃ host, reverse ip = some host ∧ (∃ suffix ∈ (verifiers v).fcrdnsSuffixes, hostMatchesSuffix host suffix = true) ∧
        ip ∈ forward host := by
  obtain ⟨entry, found, passed, young⟩ := verifiedDns_cached verified
  rw [((run_bounded run).cached v).2.2] at young
  cases (run_grounded run).entries v ip entry found with
  | pending refusing _ =>
    rw [passed] at refusing
    cases refusing
  | answered resolved verdict =>
    rw [passed] at resolved verdict
    exact ⟨_, _, _, _, _, _, _, resolved, young, fcrdnsConfirm_iff.mp verdict.symm⟩

/-- The address of the sample is verified after its thread is done. -/
theorem verified_dns_confirmed_sample :
    (verifierResult (some sampleCrawler) [] [] (sampleCache true 20) sampleAddress 30 30 false).1 = (true, .verifiedDns) ∧
      ∃ front generation reverse forward middle stored back, sampleAsked ++ sampleOwn =
        front ++ .resolve ⟨(), sampleAddress, generation⟩ reverse forward :: middle ++
          .store ⟨(), sampleAddress, generation⟩ true stored :: back := by
  have verified : (verifierResult (some sampleCrawler) [] [] (sampleCache true 20) sampleAddress 30 30 false).1 =
      (true, .verifiedDns) := by decide +kernel
  obtain ⟨front, generation, reverse, forward, middle, stored, back, same, _⟩ := verified_dns_confirmed
    (fun _ => sampleCrawler) (fun _ => 50) (fun _ => 0) _ _ (sampleAsked_run.append sampleOwn_run) () [] [] sampleAddress 30 30
    false verified
  exact ⟨verified, front, generation, reverse, forward, middle, stored, back, same⟩

end PowGate.DnsPool
