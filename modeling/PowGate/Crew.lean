import PowGate.SolverDigest

/-! The search for a nonce in the browser. A crew of workers takes the nonces in strides and posts
what it finds; the page listens to all of them and settles once. Workers run at any speed, their
messages arrive in any order between workers, workers fail and the watchdog fires, and when the
crew gives up the page searches on its own. -/
namespace PowGate.Crew

open Text Solver

/-- The message of `new Worker` that failed, and the other reasons of `solveParallel`. -/
inductive Ending where
  | resolved (nonce : Nat)
  | rejected (message : String)
  deriving DecidableEq

/-- The variables of `solveParallel`. The watchdog runs until the promise is settled. -/
structure Page where
  workers : Nat
  total : Nat
  failed : Nat
  lastOutput : Nat
  settled : Option Ending

/-- `navigator.hardwareConcurrency`, where the browser has it. -/
def crewSize (hardwareConcurrency : Option Nat) : Nat :=
  let cores := hardwareConcurrency.getD 0
  min (if cores = 0 then 4 else cores) 8

def every (difficulty : Nat) : Nat := max 256 (min 4096 (difficulty / 50))

def Page.finish (page : Page) (ending : Ending) : Page :=
  if page.settled.isSome then page else { page with settled := some ending }

def Page.oneFailed (size : Nat) (page : Page) : Page :=
  let page := { page with failed := page.failed + 1 }
  if size ≤ page.failed then page.finish (.rejected "all workers failed") else page

/-- `w.onmessage`. A count of zero would be no progress. -/
def Page.onmessage (size : Nat) (page : Page) (message : Message) (now : Nat) : Page :=
  let page := { page with lastOutput := now }
  match message with
  | .found n => page.finish (.resolved n)
  | .hashed h => if h ≠ 0 then { page with total := page.total + h } else page
  | .failed => page.oneFailed size

/-- The watchdog. -/
def Page.tick (page : Page) (stopped : Bool) (nowSec expires : Int) (now : Nat) : Page :=
  if stopped ∨ expires ≤ nowSec then page.finish (.rejected "Challenge expired")
  else if page.lastOutput + 5000 < now then page.finish (.rejected "Workers stopped responding")
  else page

/-- The loop that makes the workers; the browser may refuse one. -/
def Page.spawn (size now : Nat) (refused : Option (Nat × String)) : Page :=
  match refused with
  | some (k, message) =>
    if k < size then ⟨k, 0, 0, now, some (.rejected message)⟩ else ⟨size, 0, 0, now, none⟩
  | none => ⟨size, 0, 0, now, none⟩

/-- The page, the turns each worker has made and how many of its messages have arrived. -/
structure State where
  page : Page
  turns : Nat → Nat
  heard : Nat → Nat

structure Job where
  salt : List Char
  difficulty : Nat
  hardwareConcurrency : Option Nat
  expires : Int

def Job.size (job : Job) : Nat := crewSize job.hardwareConcurrency

/-- What worker `i` has posted after so many turns. -/
def Job.posted (job : Job) (i turns : Nat) : List Message :=
  worker job.salt (Solver.difficultyToTarget job.difficulty) i job.size (every job.difficulty) turns

inductive Act where
  | turn (i : Nat)
  | message (i now : Nat)
  | error (i : Nat)
  | tick (stopped : Bool) (nowSec : Int) (now : Nat)
  | close

/-- A worker goes on until it has found a nonce or is terminated, which happens when the promise is settled. -/
inductive Step (job : Job) (s : State) : Act → State → Prop where
  | turn {i : Nat} (made : i < s.page.workers) (running : s.page.settled = none)
      (searching : ∀ n, .found n ∉ job.posted i (s.turns i)) :
      Step job s (.turn i) { s with turns := Function.update s.turns i (s.turns i + 1) }
  | message {i now : Nat} {message : Message} (made : i < s.page.workers)
      (next : (job.posted i (s.turns i))[s.heard i]? = some message) :
      Step job s (.message i now) { s with
        page := s.page.onmessage job.size message now
        heard := Function.update s.heard i (s.heard i + 1) }
  | error {i : Nat} (made : i < s.page.workers) : Step job s (.error i) { s with page := s.page.oneFailed job.size }
  | tick {stopped : Bool} {nowSec : Int} {now : Nat} (running : s.page.settled = none) :
      Step job s (.tick stopped nowSec now) { s with page := s.page.tick stopped nowSec job.expires now }
  | close (running : s.page.settled = none) :
      Step job s .close { s with page := s.page.finish (.rejected "Page closed") }

def Job.start (job : Job) (now : Nat) (refused : Option (Nat × String)) : State :=
  ⟨Page.spawn job.size now refused, fun _ => 0, fun _ => 0⟩

section Pages

variable {page : Page} {ending : Ending}

@[simp] theorem finish_workers : (page.finish ending).workers = page.workers := by
  unfold Page.finish
  split <;> rfl

@[simp] theorem oneFailed_workers : (page.oneFailed size).workers = page.workers := by
  unfold Page.oneFailed
  dsimp only
  split
  · rw [finish_workers]
  · rfl

@[simp] theorem onmessage_workers : (page.onmessage size message now).workers = page.workers := by
  unfold Page.onmessage
  cases message with
  | hashed h =>
    dsimp only
    split <;> rfl
  | found n => simp
  | failed => simp

@[simp] theorem tick_workers : (page.tick stopped nowSec expires now).workers = page.workers := by
  unfold Page.tick
  repeat' split
  all_goals simp

/-- `finish` for a nonce settles only where nothing has settled before, and the rest keeps what settled. -/
theorem finish_settled (page : Page) (ending : Ending) : (page.finish ending).settled = page.settled ∨
    page.settled = none ∧ (page.finish ending).settled = some ending := by
  unfold Page.finish
  cases known : page.settled with
  | none => exact .inr ⟨rfl, rfl⟩
  | some _ => exact .inl known

/-- Anything but a found nonce settles by rejecting. -/
def Rejects (before after : Page) : Prop :=
  after.settled = before.settled ∨ before.settled = none ∧ ∃ message, after.settled = some (.rejected message)

theorem finish_rejects (page : Page) (message : String) : Rejects page (page.finish (.rejected message)) :=
  (finish_settled page (.rejected message)).imp_right fun ⟨open_, settled⟩ => ⟨open_, message, settled⟩

theorem oneFailed_rejects (page : Page) (size : Nat) : Rejects page (page.oneFailed size) := by
  unfold Page.oneFailed
  dsimp only
  split
  · exact finish_rejects { page with failed := page.failed + 1 } _
  · exact .inl rfl

theorem tick_rejects (page : Page) : Rejects page (page.tick stopped nowSec expires now) := by
  unfold Page.tick
  split
  · exact finish_rejects page _
  · split
    · exact finish_rejects page _
    · exact .inl rfl

theorem onmessage_settled (page : Page) (size now : Nat) (message : Message) :
    Rejects page (page.onmessage size message now) ∨
      ∃ n, message = .found n ∧ page.settled = none ∧ (page.onmessage size message now).settled = some (.resolved n) := by
  cases message with
  | found n =>
    rcases finish_settled { page with lastOutput := now } (.resolved n) with same | ⟨open_, settled⟩
    · exact .inl (.inl same)
    · exact .inr ⟨n, rfl, open_, settled⟩
  | hashed h =>
    left
    unfold Page.onmessage
    dsimp only
    split <;> exact .inl rfl
  | failed => exact .inl (oneFailed_rejects { page with lastOutput := now } size)

end Pages

section Posting

variable {salt : List Char} {target : Bytes} {stride every : Nat}

theorem search_prefix (more turns : Nat) (scratch : Scratch) (nonce count : Nat) :
    search salt target stride every turns scratch nonce count <+:
      search salt target stride every (turns + more) scratch nonce count := by
  induction turns generalizing scratch nonce count with
  | zero => exact List.nil_prefix
  | succ turns ih =>
    rw [Nat.add_right_comm,search,search]
    split
    · exact List.prefix_refl _
    · split
      · exact (List.prefix_cons_inj _).mpr (ih _ _ _)
      · exact ih _ _ _

/-- The self test passes, so a worker only searches. -/
theorem posted_search (job : Job) (i : Nat) : ∃ scratch, ∀ turns, job.posted i turns =
    search job.salt (Solver.difficultyToTarget job.difficulty) job.size (Crew.every job.difficulty) turns scratch i 0 := by
  have passes := shaSelfTest_passes Scratch.initial
  unfold Job.posted worker
  generalize shaSelfTest Scratch.initial = result at passes
  obtain ⟨purejs, scratch⟩ := result
  obtain rfl : purejs = true := passes
  exact ⟨scratch, fun _ => rfl⟩

/-- What a worker has posted stays posted. -/
theorem posted_prefix (job : Job) (i : Nat) (later : turns ≤ turns') : job.posted i turns <+: job.posted i turns' := by
  obtain ⟨more, rfl⟩ := Nat.le.dest later
  obtain ⟨scratch, same⟩ := posted_search job i
  rw [same,same]
  exact search_prefix more turns _ _ _

end Posting

/-- A promise is resolved only with a nonce that a worker has posted, and the first one that arrives resolves it. -/
structure Sound (job : Job) (s : State) : Prop where
  few : s.page.workers ≤ job.size
  within : ∀ i, s.heard i ≤ (job.posted i (s.turns i)).length
  resolved : ∀ n, s.page.settled = some (.resolved n) → ∃ i < s.page.workers, .found n ∈ job.posted i (s.turns i)
  arrived : ∀ i n, .found n ∈ (job.posted i (s.turns i)).take (s.heard i) → s.page.settled ≠ none

section Steps

variable {job : Job} {s t : State} {act : Act}

theorem spawn_cases (size now : Nat) (refused : Option (Nat × String)) : (Page.spawn size now refused).workers ≤ size ∧
    ∀ n, (Page.spawn size now refused).settled ≠ some (.resolved n) := by
  unfold Page.spawn
  split
  · split
    · next below => exact ⟨Nat.le_of_lt below, fun _ same => by cases same⟩
    · exact ⟨Nat.le_refl _, fun _ same => by cases same⟩
  · exact ⟨Nat.le_refl _, fun _ same => by cases same⟩

theorem start_sound (job : Job) (now : Nat) (refused : Option (Nat × String)) : Sound job (job.start now refused) := by
  obtain ⟨few, unresolved⟩ := spawn_cases job.size now refused
  refine ⟨few, fun _ => Nat.zero_le _, fun n same => absurd same (unresolved n), ?_⟩
  intro i n member
  cases member

/-- A step of the page alone that can only reject. -/
theorem Sound.reject (sound : Sound job s) (page : Page) (rejects : Rejects s.page page) (workers : page.workers = s.page.workers) :
    Sound job { s with page } := by
  obtain ⟨few, within, resolved, arrived⟩ := sound
  refine ⟨workers ▸ few, within, ?_, ?_⟩
  · intro n same
    rw [show ({ s with page } : State).page.workers = s.page.workers from workers]
    rcases rejects with kept | ⟨_, message, settled⟩
    · exact resolved n (kept ▸ same)
    · cases settled.symm.trans same
  · intro i n member
    rcases rejects with kept | ⟨_, message, settled⟩
    · exact kept ▸ arrived i n member
    · exact fun none_ => by cases settled.symm.trans none_

theorem settled_stays (taken : Step job s act t) (settled : s.page.settled = some ending) : t.page.settled = some ending := by
  have keeps : ∀ page, Rejects s.page page → page.settled = some ending := by
    rintro page (same | ⟨open_, _⟩)
    · exact same.trans settled
    · cases open_.symm.trans settled
  cases taken with
  | turn => exact settled
  | @message i now message made next =>
    rcases onmessage_settled s.page job.size now message with rejects | ⟨_, _, open_, _⟩
    · exact keeps _ rejects
    · cases open_.symm.trans settled
  | error made => exact keeps _ (oneFailed_rejects s.page job.size)
  | tick running => exact keeps _ (tick_rejects s.page)
  | close running => exact keeps _ (finish_rejects s.page _)

theorem onmessage_found (page : Page) (size n now : Nat) : (page.onmessage size (.found n) now).settled ≠ none := by
  rcases finish_settled { page with lastOutput := now } (.resolved n) with same | ⟨_, settled⟩
  · unfold Page.onmessage Page.finish
    dsimp only
    split
    · next some_ => exact Option.isSome_iff_ne_none.mp some_
    · exact Option.some_ne_none _
  · exact ne_of_eq_of_ne settled (Option.some_ne_none _)

/-- A worker goes on by one nonce. -/
theorem Sound.turn (sound : Sound job s) (i : Nat) :
    Sound job { s with turns := Function.update s.turns i (s.turns i + 1) } := by
  obtain ⟨few, within, resolved, arrived⟩ := sound
  have grown : ∀ k, job.posted k (s.turns k) <+: job.posted k (Function.update s.turns i (s.turns i + 1) k) := by
    intro k
    apply posted_prefix
    by_cases same : k = i
    · subst same
      simp
    · simp [same]
  refine ⟨few, fun k => Nat.le_trans (within k) (grown k).length_le, ?_, ?_⟩
  · intro n same
    obtain ⟨k, below, member⟩ := resolved n same
    exact ⟨k, below, (grown k).subset member⟩
  · intro k n member
    -- Nothing has arrived that was not posted before this turn.
    obtain ⟨rest, longer⟩ := grown k
    rw [← longer,List.take_append_of_le_length (within k)] at member
    exact arrived k n member

/-- The next message of a worker arrives. -/
theorem Sound.message {post : Message} (sound : Sound job s) (made : i < s.page.workers)
    (next : (job.posted i (s.turns i))[s.heard i]? = some post) : Sound job { s with
      page := s.page.onmessage job.size post now
      heard := Function.update s.heard i (s.heard i + 1) } := by
  obtain ⟨few, within, resolved, arrived⟩ := sound
  obtain ⟨below, same⟩ := List.getElem?_eq_some_iff.mp next
  refine ⟨by simpa using few, ?_, ?_, ?_⟩
  · intro k
    by_cases here : k = i
    · subst here
      simpa using Nat.succ_le_of_lt below
    · simpa [here] using within k
  · intro n settled
    change ∃ k < (s.page.onmessage job.size post now).workers, _
    rw [onmessage_workers]
    rcases onmessage_settled s.page job.size now post with (kept | ⟨_, text, rejected⟩) | ⟨m, rfl, _, answered⟩
    · exact resolved n (kept ▸ settled)
    · cases rejected.symm.trans settled
    · obtain rfl : m = n := Ending.resolved.inj (Option.some.inj (answered.symm.trans settled))
      exact ⟨i, made, List.mem_of_getElem? next⟩
  · intro k n member
    have stays : s.page.settled ≠ none → (s.page.onmessage job.size post now).settled ≠ none := by
      intro known
      obtain ⟨ending, settled⟩ := Option.ne_none_iff_exists'.mp known
      have after := settled_stays (t := { s with
        page := s.page.onmessage job.size post now
        heard := Function.update s.heard i (s.heard i + 1) }) (.message made next) settled
      exact ne_of_eq_of_ne after (Option.some_ne_none _)
    by_cases here : k = i
    · subst here
      simp only [Function.update_self,List.take_add_one,next] at member
      rcases List.mem_append.mp member with old | new
      · exact stays (arrived k n old)
      · obtain rfl : Message.found n = post := by simpa using new
        exact onmessage_found s.page job.size n now
    · have old : .found n ∈ (job.posted k (s.turns k)).take (s.heard k) := by simpa [here] using member
      exact stays (arrived k n old)

theorem step_sound (sound : Sound job s) (taken : Step job s act t) : Sound job t := by
  cases taken with
  | @turn i made running searching => exact sound.turn i
  | message made next => exact sound.message made next
  | error made => exact sound.reject _ (oneFailed_rejects s.page job.size) oneFailed_workers
  | tick running => exact sound.reject _ (tick_rejects s.page) tick_workers
  | close running => exact sound.reject _ (finish_rejects s.page _) finish_workers

theorem run_sound {now : Nat} {refused : Option (Nat × String)} (run : Runs.Run (Step job) (job.start now refused) acts s) :
    Sound job s :=
  run.invariant (Sound job) (fun _ _ _ sound taken => step_sound sound taken) (start_sound job now refused)

end Steps

/-- The server's verdict on a nonce. -/
def Job.accepts (job : Job) (crates : Crates) (nonce : Nat) : Bool :=
  solutionValid crates (utf8 job.salt) nonce.toUInt64 job.difficulty.toUInt64

/-- What the server sends as a challenge: a hexadecimal salt, and a difficulty that `attempt` lets through. -/
structure Job.Valid (job : Job) : Prop where
  hex : ∀ c ∈ job.salt, isHex c = true
  short : job.salt.length + 16 < 2 ^ 29
  safe : job.difficulty < 2 ^ 53

section Nonces

variable {crates : Crates} {job : Job}

theorem posted_iff (standard : ∀ message, crates.sha256 message = Sha256.digest message) (valid : job.Valid)
    (exact : i + job.size * turns < 2 ^ 53) :
    .found n ∈ job.posted i turns ↔ (tried i job.size turns).find? (job.accepts crates) = some n :=
  worker_found standard valid.hex (Nat.lt_trans valid.safe (by decide)) valid.short exact

/-- A nonce of a stride is known by its worker and its turn. -/
theorem tried_split {i k size : Nat} (below : i < size) : (i + size * k) % size = i ∧ (i + size * k) / size = k := by
  have positive : 0 < size := Nat.lt_of_le_of_lt (Nat.zero_le _) below
  exact ⟨by rw [Nat.add_mul_mod_self_left,Nat.mod_eq_of_lt below],
    by rw [Nat.add_mul_div_left _ _ positive,Nat.div_eq_of_lt below,Nat.zero_add]⟩

theorem tried_find {accepts : Nat → Bool} (found : (tried i size turns).find? accepts = some n) :
    ∃ k < turns, n = i + size * k ∧ accepts n = true ∧ ∀ j < k, accepts (i + size * j) = false := by
  rw [tried,List.find?_map,Option.map_eq_some_iff] at found
  obtain ⟨k, first, rfl⟩ := found
  obtain ⟨accepted, inside, earlier⟩ := List.find?_range_eq_some.mp first
  exact ⟨k, List.mem_range.mp inside, rfl, accepted, fun j less => by simpa using earlier j less⟩

end Nonces

/-- A nonce that resolves the promise is the first one of its worker that the server accepts. -/
theorem Sound.accepted {crates : Crates} (standard : ∀ message, crates.sha256 message = Sha256.digest message)
    {job : Job} (valid : job.Valid) {s : State} (sound : Sound job s)
    (exact : ∀ i < job.size, i + job.size * s.turns i < 2 ^ 53) (settled : s.page.settled = some (.resolved nonce)) :
    job.accepts crates nonce = true ∧ nonce % job.size < s.page.workers ∧
      ∀ m < nonce, m % job.size = nonce % job.size → job.accepts crates m = false := by
  obtain ⟨i, made, member⟩ := sound.resolved nonce settled
  have below : i < job.size := Nat.lt_of_lt_of_le made sound.few
  have found := (posted_iff standard valid (exact i below)).mp member
  obtain ⟨k, _, rfl, accepted, earlier⟩ := tried_find found
  rw [(tried_split below).1]
  refine ⟨accepted, made, ?_⟩
  intro m less same
  have split := Nat.mod_add_div m job.size
  rw [same] at split
  rw [← split]
  apply earlier
  rw [← split] at less
  exact Nat.lt_of_mul_lt_mul_left (Nat.lt_of_add_lt_add_left less)

/-- A challenge that any hash answers, and a browser with two cores. -/
def sampleJob : Job := ⟨"00ff".toList, 1, some 2, 1000⟩

theorem sampleJob_valid : sampleJob.Valid := ⟨List.all_eq_true.mp (by decide), by decide, by decide⟩

theorem sampleJob_accepts : sampleJob.accepts Reference.crates 0 = true := by decide +kernel

theorem sampleJob_posted : sampleJob.posted 0 1 = [.found 0] := by
  have first : (tried 0 sampleJob.size 1).find? (sampleJob.accepts Reference.crates) = some 0 := by
    rw [tried_succ,List.find?_cons,sampleJob_accepts]
  have posted := (posted_iff (fun _ => rfl) sampleJob_valid (by decide : 0 + sampleJob.size * 1 < 2 ^ 53)).mpr first
  obtain ⟨scratch, same⟩ := posted_search sampleJob 0
  rw [same,search] at posted ⊢
  split at posted
  · next accepted => rw [if_pos accepted]
  · split at posted <;> simp [search] at posted

/-- The first worker tries its first nonce and its message arrives. -/
theorem sampleJob_run (now : Nat) : Runs.Run (Step sampleJob) (sampleJob.start now none) [.turn 0, .message 0 now]
    ⟨⟨2, 0, 0, now, some (.resolved 0)⟩, Function.update (fun _ => 0) 0 1, Function.update (fun _ => 0) 0 1⟩ := by
  have idle : sampleJob.posted 0 0 = [] := by
    obtain ⟨scratch, same⟩ := posted_search sampleJob 0
    rw [same,search]
  have first : Step sampleJob (sampleJob.start now none) (.turn 0)
      ⟨⟨2, 0, 0, now, none⟩, Function.update (fun _ => 0) 0 1, fun _ => 0⟩ := by
    refine .turn (by decide : 0 < 2) rfl ?_
    intro n member
    change Message.found n ∈ sampleJob.posted 0 0 at member
    rw [idle] at member
    cases member
  have second : Step sampleJob ⟨⟨2, 0, 0, now, none⟩, Function.update (fun _ => 0) 0 1, fun _ => 0⟩ (.message 0 now)
      ⟨⟨2, 0, 0, now, some (.resolved 0)⟩, Function.update (fun _ => 0) 0 1, Function.update (fun _ => 0) 0 1⟩ := by
    refine @Step.message sampleJob _ 0 now (.found 0) (by decide : 0 < 2) ?_
    change (sampleJob.posted 0 1)[0]? = _
    rw [sampleJob_posted]
    rfl
  exact .cons first (.cons second .nil)

theorem sampleJob_exact : ∀ i < sampleJob.size, i + sampleJob.size * Function.update (fun _ => 0) 0 1 i < 2 ^ 53 := by
  decide

/-- However fast the workers run and in whatever order their messages arrive, and whatever fails on
the way: once the promise is settled it stays so, whether it is resolved or rejected. When it is
resolved, before any worker leaves the exact integers, the server accepts the nonce, the first one
of its worker that the server accepts. -/
theorem crew_nonce_accepted (crates : Crates) (standard : ∀ message, crates.sha256 message = Sha256.digest message)
    (job : Job) (valid : job.Valid) (now : Nat) (refused : Option (Nat × String)) (acts later : List Act) (s t : State)
    (ending : Ending) (run : Runs.Run (Step job) (job.start now refused) acts s) (settled : s.page.settled = some ending)
    (rest : Runs.Run (Step job) s later t) :
    t.page.settled = some ending ∧ ((∀ i < job.size, i + job.size * s.turns i < 2 ^ 53) → ∀ nonce, ending = .resolved nonce →
      job.accepts crates nonce = true ∧ nonce % job.size < s.page.workers ∧
      ∀ m < nonce, m % job.size = nonce % job.size → job.accepts crates m = false) := by
  constructor
  · exact rest.invariant (fun s => s.page.settled = some ending) (fun _ _ _ known taken => settled_stays taken known) settled
  · rintro exact nonce rfl
    exact (run_sound run).accepted standard valid exact settled

theorem crew_nonce_accepted_first : sampleJob.accepts Reference.crates 0 = true ∧ 0 % 2 < 2 := by
  obtain ⟨_, resolved⟩ := crew_nonce_accepted Reference.crates (fun _ => rfl) sampleJob sampleJob_valid 0 none _ _ _ _ _
    (sampleJob_run 0) rfl .nil
  obtain ⟨accepted, made, _⟩ := resolved sampleJob_exact 0 rfl
  exact ⟨accepted, made⟩

/-- How far `solveSequential` has got. -/
inductive Outcome where
  | running
  | returned (nonce : Nat)
  | threw (message : String)
  deriving DecidableEq

/-- The hash the page tries: its own, or the browser's where its own failed the self test. -/
def hashed (purejs : Bool) (scratch : Scratch) (salt : List Char) (nonce : Nat) : Bytes × Scratch :=
  if purejs then
    let scratch := attempt scratch salt nonce
    (scratch.out.toList, scratch)
  else ((Sha256.digest (utf8 (salt ++ Nat.toDigits 10 nonce))).toList, scratch)

/-- The inner loop: the nonce that was found, or how to go on. -/
def batch (purejs : Bool) (salt : List Char) (target : Bytes) : Nat → Scratch → Nat → Option Nat × Scratch × Nat
  | 0, scratch, nonce => (none, scratch, nonce)
  | left + 1, scratch, nonce =>
    let (h, scratch) := hashed purejs scratch salt nonce
    if below h target then (some nonce, scratch, nonce) else batch purejs salt target left scratch (nonce + 1)

def batchSize (purejs : Bool) : Nat := if purejs then 4096 else 500

/-- `STOPPED` and `nowSec()` at the beginning of a batch. -/
structure Reading where
  stopped : Bool
  nowSec : Int

def Reading.live (job : Job) (reading : Reading) : Prop := reading.stopped = false ∧ reading.nowSec < job.expires

instance Reading.decidableLive (job : Job) (reading : Reading) : Decidable (reading.live job) :=
  inferInstanceAs (Decidable (_ ∧ _))

def solveSequential (purejs : Bool) (job : Job) : List Reading → Scratch → Nat → Outcome
  | [], _, _ => .running
  | reading :: readings, scratch, nonce =>
    if reading.stopped ∨ job.expires ≤ reading.nowSec then .threw "Challenge expired"
    else match batch purejs job.salt (Solver.difficultyToTarget job.difficulty) (batchSize purejs) scratch nonce with
      | (some n, _) => .returned n
      | (none, scratch, nonce) => solveSequential purejs job readings scratch nonce

/-- The crew where there can be one, and the page itself when it rejects. -/
def solve (parallel : Option Ending) (sequential : Outcome) : Outcome :=
  match parallel with
  | some (.resolved n) => .returned n
  | _ => sequential

section Sequential

variable {crates : Crates} {job : Job} {purejs : Bool}

theorem hashed_below (purejs : Bool) (standard : ∀ message, crates.sha256 message = Sha256.digest message) (valid : job.Valid)
    (scratch : Scratch) (exact : nonce < 2 ^ 53) :
    below (hashed purejs scratch job.salt nonce).1 (Solver.difficultyToTarget job.difficulty) = job.accepts crates nonce := by
  have digits : (Nat.toDigits 10 nonce).length ≤ 16 :=
    (Nat.length_toDigits_le_iff (by decide) (by decide)).mpr (by omega)
  have fits : (job.salt ++ Nat.toDigits 10 nonce).length < 2 ^ 29 := by
    have short := valid.short
    rw [List.length_append]
    omega
  have own := below_attempt standard scratch valid.hex (Nat.lt_trans valid.safe (by decide)) exact fits
  have same : (attempt scratch job.salt nonce).out = Sha256.digest (utf8 (job.salt ++ Nat.toDigits 10 nonce)) := by
    have plain : Plain (job.salt ++ Nat.toDigits 10 nonce) := fun c member =>
      (List.mem_append.mp member).elim (isHex_plain valid.hex c) (toDigits_plain nonce c)
    exact sha256Str_string scratch _ plain fits
  rw [same] at own
  unfold hashed
  cases purejs with
  | true =>
    dsimp only [if_true]
    rw [same]
    exact own
  | false => exact own

/-- A batch stops at the first nonce of its stretch that the server accepts. -/
theorem batch_first (purejs : Bool) (standard : ∀ message, crates.sha256 message = Sha256.digest message) (valid : job.Valid)
    (left : Nat) (scratch : Scratch) (nonce : Nat) (exact : nonce + left < 2 ^ 53) :
    let result := batch purejs job.salt (Solver.difficultyToTarget job.difficulty) left scratch nonce
    result.1 = (List.range' nonce left).find? (job.accepts crates) ∧ (result.1 = none → result.2.2 = nonce + left) := by
  induction left generalizing scratch nonce with
  | zero => exact ⟨rfl, fun _ => rfl⟩
  | succ left ih =>
    have verdict := hashed_below purejs standard valid scratch (by omega : nonce < 2 ^ 53)
    dsimp only
    rw [batch,List.range'_succ,List.find?_cons,← verdict]
    dsimp only
    split
    · next accepted =>
      rw [accepted]
      exact ⟨rfl, fun none_ => by cases none_⟩
    · next refused =>
      rw [Bool.eq_false_iff.mpr refused]
      have going := ih (hashed purejs scratch job.salt nonce).2 (nonce + 1) (by omega)
      refine ⟨going.1, fun none_ => ?_⟩
      rw [going.2 none_]
      omega

theorem batchSize_pos (purejs : Bool) : 0 < batchSize purejs := by cases purejs <;> decide

/-- The page returns the first nonce from `start` on that the server accepts, if it is live at the
beginning of every batch up to the one with that nonce. -/
theorem solveSequential_iff (standard : ∀ message, crates.sha256 message = Sha256.digest message) (valid : job.Valid)
    (readings : List Reading) (scratch : Scratch) (start n : Nat)
    (exact : start + batchSize purejs * readings.length < 2 ^ 53) :
    solveSequential purejs job readings scratch start = .returned n ↔
      start ≤ n ∧ job.accepts crates n = true ∧ (∀ m, start ≤ m → m < n → job.accepts crates m = false) ∧
      (n - start) / batchSize purejs < readings.length ∧
      ∀ reading ∈ readings.take ((n - start) / batchSize purejs + 1), reading.live job := by
  have positive := batchSize_pos purejs
  induction readings generalizing scratch start with
  | nil => simp [solveSequential]
  | cons reading readings ih =>
    rw [List.length_cons,Nat.mul_succ] at exact
    rw [solveSequential]
    by_cases live : reading.live job
    swap
    · have dead : reading.stopped = true ∨ job.expires ≤ reading.nowSec := by
        unfold Reading.live at live
        cases stopped : reading.stopped with
        | true => exact .inl rfl
        | false => exact .inr (by simpa [stopped] using live)
      rw [if_pos dead]
      constructor
      · intro impossible
        cases impossible
      · rintro ⟨_, _, _, _, all⟩
        exact absurd (all reading (by simp)) live
    have going : ¬ (reading.stopped = true ∨ job.expires ≤ reading.nowSec) := by
      rintro (stopped | late)
      · rw [live.1] at stopped
        cases stopped
      · exact absurd live.2 (by omega)
    rw [if_neg going]
    obtain ⟨first, rest⟩ := batch_first purejs standard valid (batchSize purejs) scratch start (by omega)
    generalize batch purejs job.salt (Solver.difficultyToTarget job.difficulty) (batchSize purejs) scratch start = result at first rest
    obtain ⟨found, scratch', next⟩ := result
    cases found with
    | some m =>
      obtain ⟨accepted, inside, earlier⟩ := List.find?_range'_eq_some.mp first.symm
      obtain ⟨after, within⟩ := List.mem_range'_1.mp inside
      have batch : (m - start) / batchSize purejs = 0 := Nat.div_eq_of_lt (by omega)
      dsimp only
      constructor
      · intro same
        obtain rfl := Outcome.returned.inj same
        refine ⟨after, accepted, fun k low high => by simpa using earlier k low high, ?_, ?_⟩
        · rw [batch]
          exact Nat.succ_pos _
        · rw [batch]
          simpa using live
      · rintro ⟨low, good, least, _⟩
        rcases Nat.lt_trichotomy m n with less | same | greater
        · rw [least m after less] at accepted
          cases accepted
        · rw [same]
        · have refused := earlier n low greater
          rw [good] at refused
          cases refused
    | none =>
      have refused := List.find?_range'_eq_none.mp first.symm
      obtain rfl : next = start + batchSize purejs := rest rfl
      dsimp only
      have onward := ih scratch' (start + batchSize purejs) (by omega)
      refine onward.trans ?_
      -- The nonces of this batch are refused, so any other is at least one batch further on.
      have further : start + batchSize purejs ≤ n → (n - start) / batchSize purejs =
          (n - (start + batchSize purejs)) / batchSize purejs + 1 := by
        intro reach
        rw [← Nat.add_div_right _ positive]
        congr 1
        omega
      constructor
      · rintro ⟨reach, good, least, inside, all⟩
        refine ⟨by omega, good, ?_, ?_, ?_⟩
        · intro k low high
          by_cases here : k < start + batchSize purejs
          · simpa using refused k low here
          · exact least k (by omega) high
        · rw [further reach,List.length_cons]
          omega
        · rw [further reach,List.take_succ_cons]
          exact List.forall_mem_cons.mpr ⟨live, all⟩
      · rintro ⟨low, good, least, inside, all⟩
        have reach : start + batchSize purejs ≤ n := by
          by_contra short
          have bad := refused n low (by omega)
          rw [good] at bad
          cases bad
        rw [further reach] at inside all
        rw [List.take_succ_cons] at all
        exact ⟨reach, good, fun k low high => least k (by omega) high, Nat.lt_of_succ_lt_succ inside,
          (List.forall_mem_cons.mp all).2⟩

end Sequential

/-- Whether the nonce comes from a worker or from the page itself, the server accepts it. Without a
resolved crew the page returns exactly the least nonce that the server accepts, provided it is open
and the challenge has not expired at the beginning of every batch up to the one with that nonce. -/
theorem solve_returns_accepted (crates : Crates) (standard : ∀ message, crates.sha256 message = Sha256.digest message)
    (job : Job) (valid : job.Valid) (now : Nat) (refused : Option (Nat × String)) (acts : List Act) (s : State)
    (run : Runs.Run (Step job) (job.start now refused) acts s)
    (exact : ∀ i < job.size, i + job.size * s.turns i < 2 ^ 53) (parallel : Option Ending)
    (crew : parallel = none ∨ parallel = s.page.settled) (purejs : Bool) (readings : List Reading) (scratch : Scratch)
    (batches : batchSize purejs * readings.length < 2 ^ 53) (nonce : Nat) :
    (solve parallel (solveSequential purejs job readings scratch 0) = .returned nonce → job.accepts crates nonce = true) ∧
    ((∀ n, parallel ≠ some (.resolved n)) → (solve parallel (solveSequential purejs job readings scratch 0) = .returned nonce ↔
      job.accepts crates nonce = true ∧ (∀ m < nonce, job.accepts crates m = false) ∧
      nonce / batchSize purejs < readings.length ∧
      ∀ reading ∈ readings.take (nonce / batchSize purejs + 1), reading.live job)) := by
  have alone := solveSequential_iff standard valid readings scratch 0 nonce (by simpa using batches)
  simp only [Nat.zero_le,true_and,Nat.sub_zero,forall_const] at alone
  have unresolved : (∀ n, parallel ≠ some (.resolved n)) →
      solve parallel (solveSequential purejs job readings scratch 0) = solveSequential purejs job readings scratch 0 := by
    intro none_
    unfold solve
    split
    · next n => exact absurd rfl (none_ n)
    · rfl
  constructor
  · intro returned
    by_cases resolved : ∃ n, parallel = some (.resolved n)
    · obtain ⟨n, rfl⟩ := resolved
      obtain rfl : n = nonce := Outcome.returned.inj returned
      rcases crew with impossible | settled
      · cases impossible
      · exact ((run_sound run).accepted standard valid exact settled.symm).1
    · rw [unresolved fun n same => resolved ⟨n, same⟩] at returned
      exact (alone.mp returned).1
  · intro none_
    rw [unresolved none_]
    exact alone

/-- A browser without workers: the page finds the first nonce by itself. -/
theorem solve_returns_accepted_alone :
    solve none (solveSequential true sampleJob [⟨false, 999⟩] Scratch.initial 0) = .returned 0 := by
  refine ((solve_returns_accepted Reference.crates (fun _ => rfl) sampleJob sampleJob_valid 0 none [] _ .nil (by decide) none
    (.inl rfl) true [⟨false, 999⟩] Scratch.initial (by decide) 0).2 (by simp)).mpr ?_
  exact ⟨sampleJob_accepts, fun m less => absurd less (Nat.not_lt_zero m), by decide, by simp [Reading.live,sampleJob]⟩

end PowGate.Crew
