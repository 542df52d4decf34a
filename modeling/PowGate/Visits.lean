import PowGate.PageLoad

/-! What a load of the challenge page asks of the gate: the log of a load is cut into the stretches
its functions add, and each function is summed up by what its stretch contains. -/
namespace PowGate.Visits

open Text Effects Effect

section Logs

def Event.request? : Event → Option Request
  | .request r => some r
  | _ => none

def Event.answer? : Event → Option Answer
  | .answered answer => some answer
  | _ => none

def Event.read? : Event → Option Data
  | .read d => some d
  | _ => none

def Request.post? : Request → Option Post
  | .verify post => some post
  | _ => none

def Request.isChallenge : Request → Bool
  | .challenge _ => true
  | _ => false

def Request.isStatus : Request → Bool
  | .status _ => true
  | _ => false

/-- The page is left, or the captured request goes out. -/
def Event.isExit : Event → Bool
  | .reload | .shown | .request .resend => true
  | _ => false

variable (log more : List Event)

def requests : List Request := log.filterMap Event.request?

def answers : List Answer := log.filterMap Event.answer?

def reads : List Data := log.filterMap Event.read?

def posts : List Post := (requests log).filterMap Request.post?

def exits : List Event := log.filter Event.isExit

@[simp] theorem requests_append : requests (log ++ more) = requests log ++ requests more := List.filterMap_append

@[simp] theorem answers_append : answers (log ++ more) = answers log ++ answers more := List.filterMap_append

@[simp] theorem reads_append : reads (log ++ more) = reads log ++ reads more := List.filterMap_append

@[simp] theorem posts_append : posts (log ++ more) = posts log ++ posts more := by
  simp [posts]

@[simp] theorem exits_append : exits (log ++ more) = exits log ++ exits more := List.filter_append _ _

variable (event : Event)

@[simp] theorem requests_cons : requests (event :: log) = event.request?.toList ++ requests log := by
  cases event <;> rfl

@[simp] theorem answers_cons : answers (event :: log) = event.answer?.toList ++ answers log := by
  cases event <;> rfl

@[simp] theorem reads_cons : reads (event :: log) = event.read?.toList ++ reads log := by
  cases event <;> rfl

@[simp] theorem exits_cons : exits (event :: log) = (if event.isExit then [event] else []) ++ exits log := by
  simp only [exits, List.filter_cons]
  split <;> rfl

@[simp] theorem requests_nil : requests [] = [] := rfl

@[simp] theorem answers_nil : answers [] = [] := rfl

@[simp] theorem reads_nil : reads [] = [] := rfl

@[simp] theorem exits_nil : exits [] = [] := rfl

/-- What happens during a wait, or nothing. -/
def Idle : Prop := ∀ event ∈ log, event = .hidden

end Logs

theorem idle_nil : Idle [] := by simp [Idle]

theorem Idle.append {more : List Event} (quiet : Idle log) (quiet' : Idle more) : Idle (log ++ more) :=
  fun event member => (List.mem_append.mp member).elim (quiet event) (quiet' event)

section Idle

variable {log : List Event}

theorem Idle.requests (idle : Idle log) : requests log = [] :=
  List.filterMap_eq_nil_iff.mpr fun event member => by rw [idle event member]; rfl

theorem Idle.answers (idle : Idle log) : answers log = [] :=
  List.filterMap_eq_nil_iff.mpr fun event member => by rw [idle event member]; rfl

theorem Idle.reads (idle : Idle log) : reads log = [] :=
  List.filterMap_eq_nil_iff.mpr fun event member => by rw [idle event member]; rfl

theorem Idle.exits (idle : Idle log) : exits log = [] :=
  List.filter_eq_nil_iff.mpr fun event member => by rw [idle event member]; decide

end Idle

section Waits

variable {load : Load} {α : Type} {f : Turn → Page α} {Q : List Event → Except String α → Prop}

theorem emits_wait (load : Load) : Emits World.log (fun added r => Idle added ∧ ∃ n, r = .ok (load.turns n)) (wait load) := by
  intro w
  unfold wait
  dsimp only
  split
  · exact ⟨[.hidden], rfl, by simp [Idle], w.pos, rfl⟩
  · exact ⟨[], (List.append_nil _).symm, idle_nil, w.pos, rfl⟩

theorem wait_bind (later : ∀ idle n, Idle idle → Emits World.log (fun more r => Q (idle ++ more) r) (f (load.turns n))) :
    Emits World.log Q (wait load >>= f) := by
  refine Emits.bind (emits_wait load) ?_ ?_
  · rintro added e ⟨-, n, same⟩
    cases same
  · rintro added a ⟨idle, n, same⟩
    cases same
    exact later added n idle

theorem emit_bind {g : Unit → Page α} {event : Event} (later : Emits World.log (fun more r => Q (event :: more) r) (g ())) :
    Emits World.log Q (emit event >>= g) := by
  refine Emits.bind (S := fun added r => added = [event] ∧ r = .ok ()) (fun w => ⟨[event], rfl, rfl, rfl⟩) ?_ ?_
  · rintro added e ⟨-, same⟩
    cases same
  · rintro added a ⟨rfl, -⟩
    exact later

theorem send_bind {g : Unit → Page α} {r : Request} (closed : ∀ e, Q [] (.error e))
    (later : Emits World.log (fun more result => Q (.request r :: more) result) (g ())) :
    Emits World.log Q (send r >>= g) := by
  refine Emits.bind (S := fun added r' => (added = [.request r] ∧ r' = .ok ()) ∨ (added = [] ∧ ∃ e, r' = .error e)) ?_ ?_ ?_
  · unfold send
    refine Emits.look_bind fun w => ?_
    split
    · exact fun w => ⟨[], (List.append_nil _).symm, .inr ⟨rfl, _, rfl⟩⟩
    · exact fun w => ⟨[.request r], rfl, .inl ⟨rfl, rfl⟩⟩
  · rintro added e (⟨-, same⟩ | ⟨rfl, -⟩)
    · cases same
    · exact closed e
  · rintro added a (⟨rfl, -⟩ | ⟨-, e, same⟩)
    · exact later
    · cases same

end Waits

/-- The result of a turn of `fetchBounded`, as the function would end with it. -/
def flat : Except String (Except String Got) → Except String Got
  | .ok outcome => outcome
  | .error e => .error e

/-- What `fetchBounded` does in at most `n` tries: only its own request goes out, all but the last
answer is one to try again after, and what it returns is the last thing that came. -/
structure Fetched (r : Request) (readJSON : Bool) (n : Nat) (added : List Event) (result : Except String Got) : Prop where
  sent : ∃ k ≤ n, requests added = List.replicate k r
  reads : reads added = match result with
    | .ok (.data d) => [d]
    | _ => []
  wanted : ∀ d, result = .ok (.data d) → readJSON = true
  last : ∀ answer, result = .ok (.response answer) →
    ∃ front mid, added = front ++ .request r :: (mid ++ [.answered answer]) ∧ Idle mid
  answers : ∀ answer ∈ answers added, transient answer.code = true ∨ readJSON = true ∨ result = .ok (.response answer)
  stays : r ≠ .resend → exits added = []

section Fetches

variable {load : Load} {r : Request} {readJSON retry : Bool} {idle more : List Event}

theorem fetched_closed (r : Request) (readJSON : Bool) (n : Nat) (e : String) : Fetched r readJSON n [] (.error e) where
  sent := ⟨0, Nat.zero_le _, rfl⟩
  reads := rfl
  wanted := fun _ same => nomatch same
  last := fun _ same => nomatch same
  answers := fun _ member => nomatch member
  stays := fun _ => rfl

theorem isExit_request (other : r ≠ .resend) : (Event.request r).isExit = false := by
  cases r <;> first | rfl | contradiction

theorem fetched_one {body : List Event} {result : Except String Got} (sent : requests body = [])
    (inside : exits body = []) (read : reads body = match result with
      | .ok (.data d) => [d]
      | _ => [])
    (wanted : ∀ d, result = .ok (.data d) → readJSON = true)
    (last : ∀ answer, result = .ok (.response answer) → ∃ mid, body = mid ++ [.answered answer] ∧ Idle mid)
    (heard : ∀ answer ∈ answers body, transient answer.code = true ∨ readJSON = true ∨ result = .ok (.response answer)) :
    Fetched r readJSON 1 (.request r :: body) result where
  sent := ⟨1, Nat.le_refl 1, by simp [sent, Event.request?]⟩
  reads := by rw [reads_cons, read]; rfl
  wanted := wanted
  last := fun answer same => by
    obtain ⟨mid, rfl, idle⟩ := last answer same
    exact ⟨[], mid, rfl, idle⟩
  answers := by rw [answers_cons]; exact heard
  stays := fun other => by rw [exits_cons, isExit_request other, inside]; rfl

section Shapes

variable {idle idle' : List Event} (quiet : Idle idle) (r : Request)
include quiet

theorem fetched_lost (readJSON : Bool) (e e' : String) : Fetched r readJSON 1 (.request r :: (idle ++ [.lost e])) (.error e') := by
  refine fetched_one ?_ ?_ ?_ (fun _ same => nomatch same) (fun _ same => nomatch same) ?_
  · simp [quiet.requests, Event.request?]
  · simp [quiet.exits, Event.isExit]
  · simp [quiet.reads, Event.read?]
  · simp [quiet.answers, Event.answer?]

theorem fetched_answered (readJSON : Bool) (answer : Answer) :
    Fetched r readJSON 1 (.request r :: (idle ++ [.answered answer])) (.ok (.response answer)) := by
  refine fetched_one ?_ ?_ ?_ (fun _ same => nomatch same) ?_ ?_
  · simp [quiet.requests, Event.request?]
  · simp [quiet.exits, Event.isExit]
  · simp [quiet.reads, Event.read?]
  · rintro answer' same
    cases same
    exact ⟨idle, rfl, quiet⟩
  · simp [quiet.answers, Event.answer?]

theorem fetched_transient (readJSON : Bool) (answer : Answer) (again : transient answer.code = true) (e : String) :
    Fetched r readJSON 1 (.request r :: (idle ++ [.answered answer])) (.error e) := by
  refine fetched_one ?_ ?_ ?_ (fun _ same => nomatch same) (fun _ same => nomatch same) ?_
  · simp [quiet.requests, Event.request?]
  · simp [quiet.exits, Event.isExit]
  · simp [quiet.reads, Event.read?]
  · simp [quiet.answers, Event.answer?, again]

theorem fetched_unread (quiet' : Idle idle') (answer : Answer) (e : String) :
    Fetched r true 1 (.request r :: (idle ++ .answered answer :: idle')) (.error e) := by
  refine fetched_one ?_ ?_ ?_ (fun _ same => nomatch same) (fun _ same => nomatch same) ?_
  · simp [quiet.requests, quiet'.requests, Event.request?]
  · simp [quiet.exits, quiet'.exits, Event.isExit]
  · simp [quiet.reads, quiet'.reads, Event.read?]
  · exact fun _ _ => .inr (.inl rfl)

theorem fetched_read (quiet' : Idle idle') (answer : Answer) (d : Data) :
    Fetched r true 1 (.request r :: (idle ++ .answered answer :: (idle' ++ [.read d]))) (.ok (.data d)) := by
  refine fetched_one ?_ ?_ ?_ (fun _ _ => rfl) (fun _ same => nomatch same) ?_
  · simp [quiet.requests, quiet'.requests, Event.request?]
  · simp [quiet.exits, quiet'.exits, Event.isExit]
  · simp [quiet.reads, quiet'.reads, Event.read?]
  · exact fun _ _ => .inr (.inl rfl)

end Shapes

theorem emits_fetchOnce (load : Load) (r : Request) (readJSON retry : Bool) :
    Emits World.log (fun added result => Fetched r readJSON 1 added (flat result)) (fetchOnce load r readJSON retry) := by
  unfold fetchOnce
  refine send_bind (fun e => fetched_closed r readJSON 1 e) (wait_bind fun idle n quiet => ?_)
  split
  · exact emit_bind (Emits.pure (fetched_lost quiet r readJSON _ _))
  next answer _ =>
    refine emit_bind ?_
    by_cases json : answer.ok = true ∧ readJSON = true
    · obtain ⟨fine, rfl⟩ := json
      rw [fine]
      refine wait_bind fun idle' m quiet' => ?_
      split
      · refine Emits.pure ?_
        rw [List.append_nil]
        exact fetched_unread quiet r quiet' answer _
      · exact emit_bind (Emits.pure (fetched_read quiet r quiet' answer _))
    · rw [if_neg (by simpa using json)]
      split
      · exact Emits.pure (fetched_answered quiet r readJSON answer)
      next again =>
        rw [Bool.not_eq_true, Bool.or_eq_false_iff, Bool.not_eq_false', Bool.not_eq_false'] at again
        exact Emits.pure (fetched_transient quiet r readJSON answer again.2 _)

theorem emits_pause (load : Load) (retry : Bool) (left : Nat) :
    Emits World.log (fun added result => Idle added ∧ result = .ok ()) (pause load retry left) := by
  unfold pause
  split
  · refine wait_bind fun idle n quiet => Emits.pure ?_
    rw [List.append_nil]
    exact ⟨quiet, rfl⟩
  · exact Emits.pure ⟨idle_nil, rfl⟩

theorem Fetched.again {e : String} {n : Nat} {added idle more : List Event} {result : Except String Got}
    (first : Fetched r readJSON 1 added (.error e)) (quiet : Idle idle) (rest : Fetched r readJSON n more result) :
    Fetched r readJSON (n + 1) (added ++ (idle ++ more)) result where
  sent := by
    obtain ⟨k, few, sent⟩ := first.sent
    obtain ⟨k', few', sent'⟩ := rest.sent
    refine ⟨k + k', by omega, ?_⟩
    rw [requests_append, requests_append, sent, quiet.requests, sent', List.nil_append, List.replicate_append_replicate]
  reads := by
    have none_ := first.reads
    rw [reads_append, reads_append, none_, quiet.reads, rest.reads]
    rfl
  wanted := rest.wanted
  last := fun answer same => by
    obtain ⟨front, mid, rfl, inside⟩ := rest.last answer same
    exact ⟨added ++ (idle ++ front), mid, by simp, inside⟩
  answers := fun answer member => by
    rw [answers_append, answers_append, quiet.answers, List.nil_append, List.mem_append] at member
    rcases member with before | after
    · rcases first.answers answer before with again | json | same
      · exact .inl again
      · exact .inr (.inl json)
      · cases same
    · exact rest.answers answer after
  stays := fun other => by
    rw [exits_append, exits_append, first.stays other, quiet.exits, rest.stays other]
    rfl

theorem emits_fetchLoop (load : Load) (r : Request) (readJSON retry : Bool) (n : Nat) (error : String) :
    Emits World.log (Fetched r readJSON n) (fetchLoop load r readJSON retry n error) := by
  induction n generalizing error with
  | zero => exact Emits.raise (fetched_closed r readJSON 0 error)
  | succ left ih =>
    unfold fetchLoop
    refine Emits.bind (emits_fetchOnce load r readJSON retry) ?_ ?_
    · intro added e first
      simpa using first.again idle_nil (fetched_closed r readJSON left e)
    · rintro added (e | got) first
      · refine Emits.bind (emits_pause load retry left) (fun idle e ⟨_, same⟩ => by cases same) ?_
        rintro idle - ⟨quiet, -⟩
        exact (ih e).mono fun more result rest => first.again quiet rest
      · refine Emits.pure ?_
        rw [List.append_nil]
        obtain ⟨k, few, sent⟩ := first.sent
        exact { first with sent := ⟨k, by omega, sent⟩ }

/-- The summary of `fetchBounded`. -/
theorem emits_fetchBounded (load : Load) (r : Request) (readJSON retry : Bool) :
    Emits World.log (Fetched r readJSON (if retry then 4 else 1)) (fetchBounded load r readJSON retry) :=
  emits_fetchLoop load r readJSON retry _ _

end Fetches

/-- The nonce is what `solve` gave for the salt and the difficulty that are sent with it, and the
signature is one of the token that is sent with it. -/
def Fits (load : Load) (post : Post) : Prop :=
  (∃ n, (load.turns n).solve post.challenge.salt post.challenge.difficulty post.challenge.exp = .ok post.nonce) ∧
    ∃ n bytes, (load.turns n).sign (redeemMessage post.challenge.token) = .ok bytes ∧ post.signature = Base64.encode bytes

/-- At every moment the solutions sent so far answer challenges read so far, each one of its own. -/
def Echoed (log : List Event) : Prop := ∀ front back, log = front ++ back →
  ((posts front).map fun post => some post.challenge).Sublist ((reads front).map Data.challenge)

theorem echoed_of_none {log : List Event} (unsent : posts log = []) : Echoed log := by
  rintro front back rfl
  rw [posts_append, List.append_eq_nil_iff] at unsent
  rw [unsent.1]
  exact List.nil_sublist _

theorem Echoed.append {log more : List Event} (first : Echoed log) (second : Echoed more) : Echoed (log ++ more) := by
  intro front back same
  rcases List.append_eq_append_iff.mp same with ⟨inside, rfl, rest⟩ | ⟨cut, rest, rfl⟩
  · rw [posts_append, reads_append, List.map_append, List.map_append]
    exact (first log [] (List.append_nil _).symm).append (second inside back rest)
  · exact first front cut rest

/-- A stretch with at most so many requests of each kind, in which each solution that is sent
answers a challenge of its own. -/
structure Sent (load : Load) (asked posted checked synced : Nat) (added : List Event) : Prop where
  challenges : (requests added).countP Request.isChallenge ≤ asked
  posts : (posts added).length ≤ posted
  statuses : (requests added).countP Request.isStatus ≤ checked
  resyncs : (requests added).count .resync ≤ synced
  echoed : Echoed added
  fits : ∀ post ∈ PowGate.Visits.posts added, Fits load post
  stays : exits added = []

section Summaries

variable {load : Load} {a p c y a' p' c' y' : Nat} {added more : List Event}

theorem sent_of_none (unsent : requests added = []) (stays : exits added = []) :
    Sent load a p c y added where
  challenges := by simp [unsent]
  posts := by simp [PowGate.Visits.posts, unsent]
  statuses := by simp [unsent]
  resyncs := by simp [unsent]
  echoed := echoed_of_none (by simp [PowGate.Visits.posts, unsent])
  fits := by simp [PowGate.Visits.posts, unsent]
  stays := stays

theorem Idle.sent (quiet : Idle added) : Sent load a p c y added := sent_of_none quiet.requests quiet.exits

theorem Sent.append (first : Sent load a p c y added) (second : Sent load a' p' c' y' more) :
    Sent load (a + a') (p + p') (c + c') (y + y') (added ++ more) where
  challenges := by
    rw [requests_append, List.countP_append]
    exact Nat.add_le_add first.challenges second.challenges
  posts := by
    rw [posts_append, List.length_append]
    exact Nat.add_le_add first.posts second.posts
  statuses := by
    rw [requests_append, List.countP_append]
    exact Nat.add_le_add first.statuses second.statuses
  resyncs := by
    rw [requests_append, List.count_append]
    exact Nat.add_le_add first.resyncs second.resyncs
  echoed := first.echoed.append second.echoed
  fits := fun post member => by
    rw [posts_append, List.mem_append] at member
    exact member.elim (first.fits post) (second.fits post)
  stays := by rw [exits_append, first.stays, second.stays]; rfl

theorem Sent.mono (sent : Sent load a p c y added) (asked : a ≤ a') (posted : p ≤ p') (checked : c ≤ c') (synced : y ≤ y') :
    Sent load a' p' c' y' added :=
  { sent with
    challenges := sent.challenges.trans asked
    posts := sent.posts.trans posted
    statuses := sent.statuses.trans checked
    resyncs := sent.resyncs.trans synced }

end Summaries

section Parts

variable {added : List Event}

theorem Fetched.posts {r : Request} (fetched : Fetched r readJSON n added result) (other : r.post? = none) : posts added = [] := by
  obtain ⟨k, -, sent⟩ := fetched.sent
  rw [Visits.posts, sent, List.filterMap_replicate_of_none other]

theorem Fetched.sent_challenge {key : Bytes} (fetched : Fetched (.challenge key) readJSON n added result) (load : Load) :
    Sent load n 0 0 0 added := by
  obtain ⟨k, few, sent⟩ := fetched.sent
  have unposted := fetched.posts rfl
  refine ⟨?_, by simp [unposted], ?_, ?_, echoed_of_none unposted, by simp [unposted], fetched.stays nofun⟩
  · rw [sent, List.countP_replicate]
    exact few
  · simp [sent, List.countP_replicate, Request.isStatus]
  · simp [sent, List.count_replicate]

theorem Fetched.sent_status {proof : Bytes} (fetched : Fetched (.status proof) readJSON n added result) (load : Load) :
    Sent load 0 0 n 0 added := by
  obtain ⟨k, few, sent⟩ := fetched.sent
  have unposted := fetched.posts rfl
  refine ⟨?_, by simp [unposted], ?_, ?_, echoed_of_none unposted, by simp [unposted], fetched.stays nofun⟩
  · simp [sent, List.countP_replicate, Request.isChallenge]
  · rw [sent, List.countP_replicate]
    exact few
  · simp [sent, List.count_replicate]

theorem emits_sign (load : Load) (message : Bytes) :
    Emits World.log (fun added result => Idle added ∧ ∀ signature, result = .ok signature →
      ∃ n bytes, (load.turns n).sign message = .ok bytes ∧ signature = Base64.encode bytes) (sign load message) := by
  unfold sign
  refine wait_bind fun idle n quiet => ?_
  split
  · refine Emits.raise ?_
    rw [List.append_nil]
    exact ⟨quiet, nofun⟩
  next bytes made =>
    refine Emits.pure ?_
    rw [List.append_nil]
    refine ⟨quiet, fun signature same => ?_⟩
    cases same
    exact ⟨n, bytes, made, rfl⟩

theorem emits_solve (load : Load) (challenge : Challenge) :
    Emits World.log (fun added result => Idle added ∧ ∀ nonce, result = .ok nonce →
      ∃ n, (load.turns n).solve challenge.salt challenge.difficulty challenge.exp = .ok nonce) (solve load challenge) := by
  unfold solve
  refine wait_bind fun idle n quiet => ?_
  split
  · refine Emits.raise ?_
    rw [List.append_nil]
    exact ⟨quiet, nofun⟩
  next nonce found =>
    refine Emits.pure ?_
    rw [List.append_nil]
    refine ⟨quiet, fun nonce' same => ?_⟩
    cases same
    exact ⟨n, found⟩

/-- Only requests for the time, and what happens meanwhile. -/
structure Resynced (added : List Event) : Prop where
  requests : ∃ k ≤ 1, requests added = List.replicate k .resync
  answers : answers added = []
  reads : reads added = []
  stays : exits added = []

theorem Resynced.sent {added : List Event} (resynced : Resynced added) (load : Load) : Sent load 0 0 0 1 added := by
  obtain ⟨k, few, sent⟩ := resynced.requests
  have unposted : posts added = [] := by rw [posts, sent, List.filterMap_replicate_of_none rfl]
  refine ⟨?_, by simp [unposted], ?_, ?_, echoed_of_none unposted, by simp [unposted], resynced.stays⟩
  · simp [sent, List.countP_replicate, Request.isChallenge]
  · simp [sent, List.countP_replicate, Request.isStatus]
  · simpa [sent, List.count_replicate] using few

theorem Resynced.idle {added idle : List Event} (resynced : Resynced added) (quiet : Idle idle) : Resynced (added ++ idle) where
  requests := by simpa [quiet.requests] using resynced.requests
  answers := by simp [resynced.answers, quiet.answers]
  reads := by simp [resynced.reads, quiet.reads]
  stays := by simp [resynced.stays, quiet.exits]

theorem resynced_nil : Resynced [] := ⟨⟨0, Nat.zero_le 1, rfl⟩, rfl, rfl, rfl⟩

theorem emits_resyncClock (load : Load) : Emits World.log (fun added _ => Resynced added) (resyncClock load) := by
  unfold resyncClock turn
  refine Emits.look_bind fun w => ?_
  split
  · refine emit_bind (wait_bind fun idle n quiet => Emits.pure ?_)
    rw [List.append_nil]
    exact Resynced.idle (⟨⟨1, Nat.le_refl 1, rfl⟩, rfl, rfl, rfl⟩ : Resynced [.request .resync]) quiet
  · refine wait_bind fun idle n quiet => Emits.pure ?_
    rw [List.append_nil]
    exact resynced_nil.idle quiet

theorem emits_signProof (load : Load) (verb path : Bytes) :
    Emits World.log (fun added _ => Resynced added) (signProof load verb path) := by
  have signed (ts : Int) : Emits World.log (fun added _ => Idle added) (do
      let signature ← sign load (verb ++ 32 :: path ++ 32 :: integer ts)
      pure (signature ++ 46 :: integer ts)) := by
    refine Emits.bind (emits_sign load _) (fun _ _ held => held.1) fun added signature held => Emits.pure ?_
    rw [List.append_nil]
    exact held.1
  unfold signProof turn
  refine Emits.look_bind fun w => ?_
  split
  · refine Emits.bind (emits_resyncClock load) (fun _ _ resynced => resynced) fun added _ resynced => ?_
    refine Emits.look_bind fun w' => (signed _).mono fun idle _ quiet => resynced.idle quiet
  · exact Emits.look_bind fun w' => (signed _).mono fun idle _ quiet => resynced_nil.idle quiet

end Parts

/-- The last request was a solution, and the server took it. -/
def Cleared (added : List Event) : Prop :=
  ∃ front post mid answer, added = front ++ .request (.verify post) :: (mid ++ [.answered answer]) ∧ Idle mid ∧ answer.ok = true

section Attempts

variable {load : Load} {added : List Event}

/-- A solution that is sent after its challenge was read. -/
theorem sent_attempt {key : Bytes} {d : Data} {challenge : Challenge} {post : Post} {more : List Event}
    {result : Except String Got} (asked : Fetched (.challenge key) true 4 added (.ok (.data d)))
    (valid : d.challenge = some challenge) (echoes : post.challenge = challenge) (fits : Fits load post)
    (posted : Fetched (.verify post) false 1 more result) (stayed : ∀ d, result ≠ .ok (.data d)) :
    Sent load 4 1 0 0 (added ++ more) := by
  obtain ⟨k, few, sent⟩ := posted.sent
  have unread : reads more = [] := by
    rw [posted.reads]
    split
    next d => exact absurd rfl (stayed d)
    · rfl
  have posts_eq : posts (added ++ more) = List.replicate k post := by
    rw [posts_append, asked.posts rfl, List.nil_append, posts, sent]
    exact List.filterMap_replicate_of_some rfl
  have first := asked.sent_challenge load
  refine ⟨?_, by simpa [posts_eq] using few, ?_, ?_, ?_, ?_, ?_⟩
  · rw [requests_append, List.countP_append, sent, List.countP_replicate]
    exact first.challenges
  · rw [requests_append, List.countP_append, sent, List.countP_replicate]
    exact first.statuses
  · rw [requests_append, List.count_append, sent, List.count_replicate]
    exact first.resyncs
  · -- Until the solution is sent there is none, and from then on the challenge has been read.
    intro front back same
    rcases List.append_eq_append_iff.mp same with ⟨inside, rfl, rest⟩ | ⟨cut, rest, rfl⟩
    · have part : (posts (added ++ inside)).Sublist (List.replicate k post) := by
        rw [← posts_eq, rest, ← List.append_assoc, posts_append _ back]
        exact List.sublist_append_left _ _
      refine (part.map _).trans ?_
      rw [List.map_replicate, echoes, reads_append, asked.reads, List.map_append]
      refine ((List.replicate_sublist_replicate _).mpr few).trans ?_
      simp [valid]
    · exact echoed_of_none (asked.posts rfl) front cut rest
  · rw [posts_eq]
    intro post' member
    rwa [List.eq_of_mem_replicate member]
  · rw [exits_append, first.stays, posted.stays nofun]
    rfl

theorem emits_checked (load : Load) (got : Got) :
    Emits World.log (fun added result => added = [] ∧ ∀ challenge, result = .ok challenge →
      ∃ d, got = .data d ∧ d.challenge = some challenge) (checked load got) := by
  unfold checked
  cases got with
  | response answer => exact Emits.raise ⟨rfl, nofun⟩
  | data d =>
    dsimp only
    split
    · exact Emits.raise ⟨rfl, nofun⟩
    next challenge valid =>
      refine Emits.look_bind fun w => ?_
      split
      · exact Emits.raise ⟨rfl, nofun⟩
      · refine Emits.pure ⟨rfl, fun challenge' same => ?_⟩
        cases same
        exact ⟨d, rfl, valid⟩

theorem Fetched.idle {r : Request} {idle : List Event} (fetched : Fetched r readJSON n added result) (quiet : Idle idle) :
    Fetched r readJSON n (idle ++ added) result where
  sent := by simpa [quiet.requests] using fetched.sent
  reads := by rw [reads_append, quiet.reads, fetched.reads]; rfl
  wanted := fetched.wanted
  last := fun answer same => by
    obtain ⟨front, mid, rfl, inside⟩ := fetched.last answer same
    exact ⟨idle ++ front, mid, (List.append_assoc ..).symm, inside⟩
  answers := by simpa [quiet.answers] using fetched.answers
  stays := fun other => by rw [exits_append, quiet.exits, fetched.stays other]; rfl

theorem emits_attempt (load : Load) (pubRaw : Bytes) :
    Emits World.log (fun added result => Sent load 4 1 0 0 added ∧ (result = .ok true → Cleared added)) (attempt load pubRaw) := by
  unfold attempt
  refine Emits.bind (emits_fetchBounded load _ true true) ?_ ?_
  · exact fun added e asked => ⟨(asked.sent_challenge load).mono (Nat.le_refl 4) (Nat.zero_le 1) (Nat.le_refl 0) (Nat.le_refl 0), nofun⟩
  intro added got asked
  have quit (e : String) {idle : List Event} (quiet : Idle idle) : Sent load 4 1 0 0 (added ++ idle) ∧
      ((.error e : Except String Bool) = .ok true → Cleared (added ++ idle)) :=
    ⟨(asked.sent_challenge load).append (quiet.sent : Sent load 0 1 0 0 idle), nofun⟩
  refine Emits.bind (emits_checked load got) (fun none_ e held => held.1 ▸ quit e idle_nil) ?_
  rintro none_ challenge ⟨rfl, valid⟩
  obtain ⟨d, rfl, known⟩ := valid challenge rfl
  refine Emits.bind (emits_solve load challenge) (fun idle e held => quit e held.1) ?_
  rintro idle nonce ⟨quiet, found⟩
  refine Emits.bind (emits_sign load _) ?_ ?_
  · rintro idle' e ⟨quiet', -⟩
    exact quit e (quiet.append quiet')
  rintro idle' signature ⟨quiet', signed⟩
  have fits : Fits load ⟨challenge, signature, nonce, Base64.encode pubRaw⟩ := ⟨found nonce rfl, signed signature rfl⟩
  refine Emits.bind (emits_fetchBounded load _ false false) ?_ ?_
  · intro more e posted
    exact ⟨sent_attempt asked known rfl fits ((posted.idle quiet').idle quiet) (fun _ same => nomatch same), nofun⟩
  rintro more got posted
  refine Emits.pure ?_
  rw [List.append_nil]
  have unread : ∀ d, (.ok got : Except String Got) ≠ .ok (.data d) := fun d same => absurd (posted.wanted d same) nofun
  refine ⟨sent_attempt asked known rfl fits ((posted.idle quiet').idle quiet) unread, fun taken => ?_⟩
  cases got with
  | data d => exact absurd rfl (unread d)
  | response answer =>
    obtain ⟨front, mid, rfl, inside⟩ := posted.last answer rfl
    exact ⟨added ++ ([] ++ (idle ++ (idle' ++ front))), ⟨challenge, signature, nonce, Base64.encode pubRaw⟩, mid, answer,
      by simp, inside, Except.ok.inj taken⟩

/-- An answer that does not refuse the clearance. -/
def Unrefused (answer : Answer) : Prop := answer.ok = true ∨ transient answer.code = true ∨ answer.skewed = true

theorem emits_acceptedLoop (load : Load) (n : Nat) :
    Emits World.log (fun added result => Sent load 0 0 (4 * n) n added ∧
      (result ≠ .ok false → ∀ answer ∈ answers added, Unrefused answer)) (acceptedLoop load n) := by
  induction n with
  | zero => exact Emits.pure ⟨idle_nil.sent, nofun⟩
  | succ left ih =>
    unfold acceptedLoop
    refine Emits.bind (emits_signProof load _ _) ?_ ?_
    · intro added e resynced
      refine ⟨(resynced.sent load).mono (Nat.le_refl 0) (Nat.le_refl 0) (Nat.zero_le _) (by omega), fun _ => ?_⟩
      simp [resynced.answers]
    intro added proof resynced
    refine Emits.bind (emits_fetchBounded load _ false true) ?_ ?_
    · intro more e fetched
      refine ⟨((resynced.sent load).append (fetched.sent_status load)).mono (by omega) (by omega) (by simp) (by omega),
        fun _ answer member => ?_⟩
      rw [answers_append, resynced.answers, List.nil_append] at member
      rcases fetched.answers answer member with again | json | same
      · exact .inr (.inl again)
      · cases json
      · cases same
    intro more got fetched
    have sent := (resynced.sent load).append (fetched.sent_status load)
    have heard : got.ok = true ∨ got.skewed = true → ∀ answer ∈ answers (added ++ more), Unrefused answer := by
      intro fine answer member
      rw [answers_append, resynced.answers, List.nil_append] at member
      rcases fetched.answers answer member with again | json | same
      · exact .inr (.inl again)
      · cases json
      · cases same
        exact fine.elim .inl fun skewed => .inr (.inr skewed)
    have enough {idle : List Event} (none_ : idle = []) : Sent load 0 0 (4 * (left + 1)) (left + 1) (added ++ (more ++ idle)) := by
      subst none_
      rw [List.append_nil]
      exact sent.mono (by omega) (by omega) (by simp) (by omega)
    split
    next fine =>
      refine Emits.pure ⟨enough rfl, fun _ => ?_⟩
      rw [List.append_nil]
      exact heard (.inl fine)
    · split
      next skewed =>
        refine ih.mono fun rest result held => ⟨?_, fun unrefused answer member => ?_⟩
        · rw [← List.append_assoc]
          exact (sent.append held.1).mono (by omega) (by omega) (by simp; omega) (by omega)
        · rw [← List.append_assoc, answers_append, List.mem_append] at member
          exact member.elim (heard (.inr skewed) answer) (held.2 unrefused answer)
      · exact Emits.pure ⟨enough rfl, nofun⟩

theorem emits_recover (load : Load) (left : Nat) (e : String) :
    Emits World.log (fun added _ => Idle added) (recover load left e) := by
  unfold recover
  refine Emits.look_bind fun w => ?_
  split
  · exact Emits.raise_bind idle_nil
  · refine wait_bind fun idle n quiet => Emits.pure ?_
    rwa [List.append_nil]

/-- A solution was taken, and after it only the clearance was checked and not refused. -/
def Passed (load : Load) (added : List Event) : Prop :=
  ∃ front post mid answer rest, added = front ++ .request (.verify post) :: (mid ++ .answered answer :: rest) ∧
    Idle mid ∧ answer.ok = true ∧ Sent load 0 0 8 2 rest ∧ ∀ answer ∈ answers rest, Unrefused answer

theorem Cleared.passed {more : List Event} (cleared : Cleared added) (checked : Sent load 0 0 8 2 more)
    (unrefused : ∀ answer ∈ answers more, Unrefused answer) : Passed load (added ++ more) := by
  obtain ⟨front, post, mid, answer, rfl, quiet, fine⟩ := cleared
  exact ⟨front, post, mid, answer, more, by simp, quiet, fine, checked, unrefused⟩

theorem emits_once (load : Load) (pubRaw : Bytes) (left : Nat) :
    Emits World.log (fun added result => Sent load 4 1 8 2 added ∧ (result = .ok true → Passed load added))
      (once load pubRaw left) := by
  unfold once
  refine Emits.bind (emits_attempt load pubRaw).caught (fun _ _ ⟨_, same, _⟩ => by cases same) ?_
  rintro added outcome ⟨_, same, sent, cleared⟩
  cases same
  match outcome with
  | .error e =>
    refine Emits.bind (emits_recover load left e) ?_ ?_
    · exact fun idle _ quiet => ⟨sent.append (quiet.sent : Sent load 0 0 8 2 idle), nofun⟩
    · refine fun idle _ quiet => Emits.pure ?_
      rw [List.append_nil]
      exact ⟨sent.append (quiet.sent : Sent load 0 0 8 2 idle), nofun⟩
  | .ok false =>
    refine Emits.pure ⟨?_, nofun⟩
    exact sent.append (idle_nil.sent : Sent load 0 0 8 2 [])
  | .ok true =>
    refine Emits.bind (emits_acceptedLoop load 2).caught (fun _ _ ⟨_, same, _⟩ => by cases same) ?_
    rintro more outcome ⟨_, same, checked, unrefused⟩
    cases same
    match outcome with
    | .error e =>
      have kept {idle : List Event} (quiet : Idle idle) : Sent load 0 0 8 2 (more ++ idle) :=
        checked.append (quiet.sent : Sent load 0 0 0 0 idle)
      refine Emits.bind (emits_recover load left e) ?_ ?_
      · exact fun idle _ quiet => ⟨sent.append (kept quiet), nofun⟩
      · refine fun idle _ quiet => Emits.pure ?_
        rw [List.append_nil]
        refine ⟨sent.append (kept quiet), fun _ => (cleared rfl).passed (kept quiet) fun answer member => ?_⟩
        rw [answers_append, quiet.answers, List.append_nil] at member
        exact unrefused nofun answer member
    | .ok ok =>
      refine Emits.pure ?_
      rw [List.append_nil]
      exact ⟨sent.append checked, fun same => (cleared rfl).passed checked (unrefused (by rw [same]; nofun))⟩

theorem emits_attempts (load : Load) (pubRaw : Bytes) (n : Nat) :
    Emits World.log (fun added result => Sent load (4 * n) n (8 * n) (2 * n) added ∧ (result = .ok true → Passed load added))
      (attempts load pubRaw n) := by
  induction n with
  | zero => exact Emits.pure ⟨idle_nil.sent, nofun⟩
  | succ left ih =>
    unfold attempts
    refine Emits.bind (emits_once load pubRaw left) ?_ ?_
    · exact fun added e held => ⟨held.1.mono (by omega) (by omega) (by omega) (by omega), nofun⟩
    rintro added ok ⟨sent, passed⟩
    split
    next fine =>
      refine Emits.pure ?_
      rw [List.append_nil]
      exact ⟨sent.mono (by omega) (by omega) (by omega) (by omega), fun _ => passed (by rw [fine])⟩
    · refine ih.mono fun more result held => ⟨?_, fun fine => ?_⟩
      · exact (sent.append held.1).mono (by omega) (by omega) (by omega) (by omega)
      · obtain ⟨front, post, mid, answer, rest, rfl, passed⟩ := held.2 fine
        exact ⟨added ++ front, post, mid, answer, rest, (List.append_assoc ..).symm, passed⟩

end Attempts

/-- The captured request goes out at most `n` times, and nothing else but questions for the time;
nothing is answered before the page is left. -/
structure Resent (n : Nat) (added : List Event) : Prop where
  sends : (requests added).count .resend ≤ n
  resyncs : (requests added).count .resync ≤ n
  others : ∀ r ∈ requests added, r = .resend ∨ r = .resync
  reads : reads added = []
  late : ∀ front answer back, added = front ++ .answered answer :: back → exits front ≠ []

/-- Methods that `installProofFetch` repeats. -/
def Capture.safe (capture : Capture) : Bool :=
  Solver.upper capture.verb = ascii "GET" || Solver.upper capture.verb = ascii "HEAD"

/-- How often the captured request may go out. -/
def Capture.sends (capture : Capture) : Nat := if capture.safe then 2 else 1

def Load.sends (load : Load) : Nat := (load.capture.map Capture.sends).getD 0

theorem sends_pos (capture : Capture) : 1 ≤ capture.sends := by
  unfold Capture.sends
  split <;> omega

section Leaving

variable {load : Load} {added more : List Event} {n m : Nat}

theorem late_of_none (unanswered : answers added = []) {front back : List Event} {answer : Answer}
    (same : added = front ++ .answered answer :: back) : exits front ≠ [] := by
  subst same
  simp [Event.answer?] at unanswered

theorem late_after {leaving : Event} (unanswered : answers added = []) (left : leaving.isExit = true)
    {front back : List Event} {answer : Answer} (same : added ++ leaving :: more = front ++ .answered answer :: back) :
    exits front ≠ [] := by
  rcases List.append_eq_append_iff.mp same with ⟨inside, rfl, rest⟩ | ⟨cut, rfl, rest⟩
  · rcases List.cons_eq_append_iff.mp rest with ⟨-, answered⟩ | ⟨inside', rfl, -⟩
    · rw [← (List.cons.inj answered).1] at left
      cases left
    · rw [exits_append, exits_cons, if_pos left]
      simp
  · rcases List.cons_eq_append_iff.mp rest with ⟨-, answered⟩ | ⟨cut', rfl, -⟩
    · rw [(List.cons.inj answered).1] at left
      cases left
    · exact late_of_none unanswered rfl

theorem Resent.append (first : Resent n added) (second : Resent m more) : Resent (n + m) (added ++ more) where
  sends := by rw [requests_append, List.count_append]; exact Nat.add_le_add first.sends second.sends
  resyncs := by rw [requests_append, List.count_append]; exact Nat.add_le_add first.resyncs second.resyncs
  others := fun r member => by
    rw [requests_append, List.mem_append] at member
    exact member.elim (first.others r) (second.others r)
  reads := by rw [reads_append, first.reads, second.reads]; rfl
  late := fun front answer back same => by
    rcases List.append_eq_append_iff.mp same with ⟨inside, rfl, rest⟩ | ⟨cut, rfl, rest⟩
    · rw [exits_append]
      exact fun none_ => second.late inside answer back rest (List.append_eq_nil_iff.mp none_).2
    · rcases List.cons_eq_append_iff.mp rest with ⟨rfl, same'⟩ | ⟨cut', rfl, -⟩
      · exact absurd rfl (second.late [] answer back same')
      · exact first.late front answer cut' rfl

theorem Resent.mono (resent : Resent n added) (more : n ≤ m) : Resent m added :=
  { resent with sends := resent.sends.trans more, resyncs := resent.resyncs.trans more }

theorem resent_of_none (unsent : requests added = []) (unread : reads added = []) (unanswered : answers added = []) :
    Resent n added :=
  ⟨by simp [unsent], by simp [unsent], by simp [unsent], unread, fun _ _ _ same => late_of_none unanswered same⟩

theorem emits_proofSend (load : Load) (capture : Capture) :
    Emits World.log (fun added _ => Resent 1 added) (proofSend load capture) := by
  have sent {front idle : List Event} {event : Event} (resynced : Resynced front) (quiet : Idle idle) (unsent : event.request? = none)
      (unread : event.read? = none) : Resent 1 (front ++ .request .resend :: (idle ++ [event])) := by
    obtain ⟨k, few, requested⟩ := resynced.requests
    have all : requests (front ++ .request .resend :: (idle ++ [event])) = List.replicate k .resync ++ [.resend] := by
      rw [requests_append, requested, requests_cons, requests_append, quiet.requests, requests_cons, unsent]
      rfl
    refine ⟨?_, ?_, ?_, ?_, fun _ _ _ same => late_after resynced.answers rfl same⟩
    · simp [all, List.count_replicate]
    · simpa [all, List.count_replicate] using few
    · rw [all]
      intro r member
      rcases List.mem_append.mp member with synced | resent
      · exact .inr (List.eq_of_mem_replicate synced)
      · exact .inl (List.mem_singleton.mp resent)
    · rw [reads_append, resynced.reads, reads_cons, reads_append, quiet.reads, reads_cons, unread]
      rfl
  unfold proofSend
  refine Emits.bind (emits_signProof load _ _).caught (fun _ _ ⟨_, same, _⟩ => by cases same) ?_
  rintro front - ⟨_, -, resynced⟩
  refine emit_bind (wait_bind fun idle n quiet => ?_)
  split
  · exact emit_bind (Emits.raise (sent resynced quiet rfl rfl))
  · exact emit_bind (Emits.pure (sent resynced quiet rfl rfl))

theorem emits_proofFetch (load : Load) (capture : Capture) :
    Emits World.log (fun added _ => Resent capture.sends added) (proofFetch load capture 1) := by
  have one := emits_proofSend load capture
  unfold proofFetch
  refine Emits.bind one (fun added e resent => resent.mono (sends_pos capture)) fun added answer resent => ?_
  split
  · refine Emits.pure ?_
    rw [List.append_nil]
    exact resent.mono (sends_pos capture)
  next again =>
    have safe : capture.safe = true := by
      by_contra risky
      apply again
      rw [Capture.safe, Bool.not_eq_true, Bool.or_eq_false_iff] at risky
      simp [decide_eq_false_iff_not.mp risky.1, decide_eq_false_iff_not.mp risky.2]
    rw [Capture.sends, if_pos safe]
    exact one.mono fun more _ resent' => resent.append resent'

theorem emits_replay (load : Load) (capture : Capture) :
    Emits World.log (fun added _ => Resent capture.sends added) (replay load capture) := by
  unfold replay
  split
  · exact Emits.raise (resent_of_none rfl rfl rfl)
  split
  · refine fun w => ⟨[.request .resend], rfl, ⟨?_, ?_, ?_, rfl, fun _ _ _ same => late_after (rfl : answers [] = []) rfl same⟩⟩
    · simpa [Event.request?] using sends_pos capture
    · simp [Event.request?]
    · simp [Event.request?]
  · refine Emits.bind (emits_proofFetch load capture) (fun added e resent => resent) fun added answer resent => ?_
    refine wait_bind fun idle n quiet => ?_
    have shown {event : List Event} (unsent : requests event = []) (unread : reads event = []) (unanswered : answers event = []) :
        Resent capture.sends (added ++ (idle ++ event)) :=
      resent.append (m := 0) (resent_of_none (by simp [quiet.requests, unsent]) (by simp [quiet.reads, unread])
        (by simp [quiet.answers, unanswered]))
    split
    · exact Emits.raise (shown rfl rfl rfl)
    · exact fun w => ⟨[.shown], rfl, shown rfl rfl rfl⟩

theorem emits_navigationCount (load : Load) (increment : Bool) :
    Emits World.log (fun added result => added = [] ∧ ∃ n, result = .ok n) (navigationCount load increment) := by
  intro w
  unfold navigationCount
  split
  · exact ⟨[], (List.append_nil _).symm, rfl, _, rfl⟩
  · split
    · exact ⟨[], (List.append_nil _).symm, rfl, _, rfl⟩
    · split <;> exact ⟨[], (List.append_nil _).symm, rfl, _, rfl⟩

theorem emits_depart (load : Load) :
    Emits World.log (fun added result => Resent load.sends added ∧ result = .ok ()) (depart load) := by
  unfold depart
  cases captured : load.capture with
  | none => exact fun w => ⟨[.reload], rfl, resent_of_none rfl rfl rfl, rfl⟩
  | some capture =>
    have sends : load.sends = capture.sends := by rw [Load.sends, captured]; rfl
    rw [sends]
    refine Emits.bind (emits_replay load capture).caught (fun _ _ ⟨_, same, _⟩ => by cases same) ?_
    rintro more outcome ⟨_, -, resent⟩
    split
    · refine Emits.pure ?_
      rw [List.append_nil]
      exact ⟨resent, rfl⟩
    · exact fun w => ⟨[.reload], rfl, resent.append (m := 0) (resent_of_none rfl rfl rfl), rfl⟩

theorem emits_leave (load : Load) :
    Emits World.log (fun added result => Resent load.sends added ∧ result = .ok ()) (leave load) := by
  refine Emits.bind (emits_navigationCount load true) (fun _ _ ⟨_, _, same⟩ => by cases same) ?_
  rintro added n ⟨rfl, -⟩
  exact emits_depart load

/-- A page load: what it does to get cleared, and what it does once it is. -/
def Visited (load : Load) (log : List Event) : Prop :=
  ∃ before after, log = before ++ after ∧ Sent load 12 3 24 6 before ∧ Resent load.sends after ∧
    (exits after ≠ [] → Passed load before)

theorem emits_verification (load : Load) : Emits World.log (fun added _ => Visited load added) (verification load) := by
  have quit {before : List Event} (sent : Sent load 12 3 24 6 before) : Visited load before :=
    ⟨before, [], (List.append_nil _).symm, sent, resent_of_none rfl rfl rfl, fun left => absurd rfl left⟩
  unfold verification
  refine Emits.bind (emits_navigationCount load false) (fun _ _ ⟨_, _, same⟩ => by cases same) ?_
  rintro added count ⟨rfl, -⟩
  split
  · exact Emits.raise (quit idle_nil.sent)
  refine wait_bind fun idle n quiet => ?_
  split
  · refine Emits.raise (quit ?_)
    exact (idle_nil.append (quiet.append idle_nil)).sent
  next pubRaw _ =>
    refine Emits.bind (emits_attempts load pubRaw 3) ?_ ?_
    · rintro tried e ⟨sent, -⟩
      exact quit ((quiet.sent : Sent load 0 0 0 0 idle).append sent)
    rintro tried ok ⟨sent, passed⟩
    have before : Sent load 12 3 24 6 (idle ++ tried) := (quiet.sent : Sent load 0 0 0 0 idle).append sent
    split
    next fine =>
      refine (emits_leave load).mono fun after _ resent => ⟨idle ++ tried, after, by simp, before, resent.1, fun _ => ?_⟩
      obtain ⟨front, post, mid, answer, rest, rfl, held⟩ := passed (by rw [fine])
      exact ⟨idle ++ front, post, mid, answer, rest, (List.append_assoc ..).symm, held⟩
    · refine Emits.raise ?_
      rw [List.append_nil]
      exact quit before

theorem Visited.failed {log : List Event} {e : String} (visited : Visited load log) : Visited load (log ++ [.failed e]) := by
  obtain ⟨before, after, rfl, sent, resent, passed⟩ := visited
  refine ⟨before, after ++ [.failed e], List.append_assoc .., sent, resent.append (m := 0) (resent_of_none rfl rfl rfl), fun left => ?_⟩
  refine passed fun none_ => left ?_
  rw [exits_append, none_]
  rfl

theorem visit_visited (load : Load) (tab : Tab) : Visited load (visit load tab).log := by
  have ran : Emits World.log (fun added _ => Visited load added) (run load) := by
    unfold run
    refine Emits.bind (emits_verification load).caught (fun _ _ ⟨_, same, _⟩ => by cases same) ?_
    rintro added outcome ⟨_, -, visited⟩
    split
    · refine Emits.pure ?_
      rwa [List.append_nil]
    · refine Emits.look_bind fun w => ?_
      split
      · exact fun w => ⟨[.failed _], rfl, visited.failed⟩
      · refine Emits.pure ?_
        rwa [List.append_nil]
  obtain ⟨added, grown, visited⟩ := ran ⟨0, false, [], tab⟩
  rw [List.nil_append] at grown
  exact grown ▸ visited

end Leaving

section Hiding

/-- A request of `fetchBounded`. -/
def Request.bounded : Request → Bool
  | .challenge _ | .verify _ | .status _ => true
  | .resync | .resend => false

/-- Neither such a request nor the moment the page is hidden. -/
def Event.plain : Event → Bool
  | .request r => !r.bounded
  | .hidden => false
  | _ => true

/-- A page that was hidden knows it, and has not sent anything to the gate since. -/
structure Silent (w : World) : Prop where
  knows : .hidden ∈ w.log → w.stopped = true
  silent : ∀ front r back, w.log = front ++ .request r :: back → r.bounded = true → .hidden ∉ front

variable {load : Load} {w : World}

theorem Silent.log (silent : Silent w) (event : Event) (other : event.plain = true ∨ event = .hidden ∨ w.stopped = false)
    (seen : event ≠ .hidden ∨ stopped = true) (keeps : w.stopped = true → stopped = true) :
    Silent { w with stopped := stopped, log := w.log ++ [event] } where
  knows := fun member => by
    rcases List.mem_append.mp member with before | last
    · exact keeps (silent.knows before)
    · exact seen.elim (fun no => absurd (List.mem_singleton.mp last).symm no) fun yes => yes
  silent := fun front r back same bounded hidden => by
    rcases List.eq_nil_or_concat' back with rfl | ⟨back, last, rfl⟩
    · obtain ⟨before, final⟩ := List.append_inj' same rfl
      have last := List.singleton_inj.mp final
      rcases other with plain | same | visible
      · simp [last, Event.plain, bounded] at plain
      · rw [last] at same
        cases same
      · rw [silent.knows (before ▸ hidden)] at visible
        cases visible
    · rw [← List.cons_append, ← List.append_assoc] at same
      exact silent.silent front r back (List.append_inj_left' same rfl) bounded hidden

/-- A relation that every step of a page load keeps to. -/
structure Steps (load : Load) (R : World → World → Prop) : Prop where
  wait : Moves R (wait load)
  send : ∀ r, Moves R (send r)
  emit : ∀ event, event.plain = true → Moves R (emit event)

section Frames

variable {R : World → World → Prop} [Std.Refl R] [IsTrans World R]

theorem Steps.fetchOnce (steps : Steps load R) (r : Request) (readJSON retry : Bool) :
    Moves R (fetchOnce load r readJSON retry) := by
  unfold Visits.fetchOnce
  refine (steps.send r).bind fun _ => steps.wait.bind fun _ => ?_
  split
  · exact (steps.emit _ rfl).bind fun _ => Moves.pure _
  · refine (steps.emit _ rfl).bind fun _ => ?_
    split
    · refine steps.wait.bind fun _ => ?_
      split
      · exact Moves.pure _
      · exact (steps.emit _ rfl).bind fun _ => Moves.pure _
    · split <;> exact Moves.pure _

theorem Steps.fetchBounded (steps : Steps load R) (r : Request) (readJSON retry : Bool) :
    Moves R (fetchBounded load r readJSON retry) := by
  have loop (n : Nat) (error : String) : Moves R (fetchLoop load r readJSON retry n error) := by
    induction n generalizing error with
    | zero => exact Moves.raise _
    | succ left ih =>
      unfold fetchLoop
      refine (steps.fetchOnce r readJSON retry).bind fun outcome => ?_
      split
      · exact Moves.pure _
      · refine Moves.bind ?_ fun _ => ih _
        unfold pause
        split
        · exact steps.wait.bind fun _ => Moves.pure _
        · exact Moves.pure _
  exact loop _ _

theorem Steps.sign (steps : Steps load R) (message : Bytes) : Moves R (sign load message) := by
  unfold Visits.sign
  refine steps.wait.bind fun _ => ?_
  split
  · exact Moves.raise _
  · exact Moves.pure _

theorem Steps.signProof (steps : Steps load R) (verb path : Bytes) : Moves R (signProof load verb path) := by
  have signed (ts : Int) : Moves R (do
      let signature ← Visits.sign load (verb ++ 32 :: path ++ 32 :: integer ts)
      pure (signature ++ 46 :: integer ts)) := (steps.sign _).bind fun _ => Moves.pure _
  unfold Visits.signProof turn
  refine (Moves.look _).bind fun _ => ?_
  split
  · refine Moves.bind ?_ fun _ => (Moves.look _).bind fun _ => signed _
    unfold resyncClock turn
    refine (Moves.look _).bind fun _ => ?_
    split
    · exact (steps.emit _ rfl).bind fun _ => steps.wait.bind fun _ => Moves.pure _
    · exact steps.wait.bind fun _ => Moves.pure _
  · exact (Moves.look _).bind fun _ => signed _

theorem Steps.attempt (steps : Steps load R) (pubRaw : Bytes) : Moves R (attempt load pubRaw) := by
  unfold Visits.attempt
  refine (steps.fetchBounded _ _ _).bind fun got => Moves.bind ?_ fun challenge => Moves.bind ?_ fun nonce =>
    (steps.sign _).bind fun _ => (steps.fetchBounded _ _ _).bind fun _ => Moves.pure _
  · unfold checked
    split
    · exact Moves.raise _
    · split
      · exact Moves.raise _
      · refine (Moves.look _).bind fun _ => ?_
        split
        · exact Moves.raise _
        · exact Moves.pure _
  · unfold solve
    refine steps.wait.bind fun _ => ?_
    split
    · exact Moves.raise _
    · exact Moves.pure _

theorem Steps.acceptedLoop (steps : Steps load R) (n : Nat) : Moves R (acceptedLoop load n) := by
  induction n with
  | zero => exact Moves.pure _
  | succ left ih =>
    unfold Visits.acceptedLoop
    refine (steps.signProof _ _).bind fun _ => (steps.fetchBounded _ _ _).bind fun _ => ?_
    split
    · exact Moves.pure _
    · split
      · exact ih
      · exact Moves.pure _

theorem Steps.recover (steps : Steps load R) (left : Nat) (e : String) : Moves R (recover load left e) := by
  unfold Visits.recover
  refine (Moves.look _).bind fun _ => ?_
  split
  · exact Moves.raise_bind _
  · exact steps.wait.bind fun _ => Moves.pure _

theorem Steps.attempts (steps : Steps load R) (pubRaw : Bytes) (n : Nat) : Moves R (attempts load pubRaw n) := by
  induction n with
  | zero => exact Moves.pure _
  | succ left ih =>
    unfold Visits.attempts
    refine Moves.bind ?_ fun ok => ?_
    · unfold once
      refine (steps.attempt pubRaw).caught.bind fun outcome => ?_
      split
      · exact (steps.recover _ _).bind fun _ => Moves.pure _
      · exact Moves.pure _
      · refine (steps.acceptedLoop 2).caught.bind fun outcome => ?_
        split
        · exact (steps.recover _ _).bind fun _ => Moves.pure _
        · exact Moves.pure _
    · split
      · exact Moves.pure _
      · exact ih

theorem Steps.depart (steps : Steps load R) : Moves R (depart load) := by
  have send (capture : Capture) : Moves R (proofSend load capture) := by
    unfold proofSend
    refine (steps.signProof _ _).caught.bind fun _ => (steps.emit _ rfl).bind fun _ => steps.wait.bind fun _ => ?_
    split
    · exact (steps.emit _ rfl).bind fun _ => Moves.raise _
    · exact (steps.emit _ rfl).bind fun _ => Moves.pure _
  have fetch (capture : Capture) : Moves R (proofFetch load capture 1) := by
    unfold proofFetch
    refine (send capture).bind fun _ => ?_
    split
    · exact Moves.pure _
    · exact send capture
  unfold Visits.depart
  split
  · exact steps.emit _ rfl
  next capture _ =>
    refine Moves.bind (Moves.caught ?_) fun _ => ?_
    · unfold replay
      split
      · exact Moves.raise _
      · split
        · exact steps.emit _ rfl
        · refine (fetch capture).bind fun _ => steps.wait.bind fun _ => ?_
          split
          · exact Moves.raise _
          · exact steps.emit _ rfl
    · split
      · exact Moves.pure _
      · exact steps.emit _ rfl

theorem Steps.run (steps : Steps load R) (counts : ∀ increment, Moves R (navigationCount load increment)) : Moves R (run load) := by
  unfold Visits.run
  refine Moves.bind (Moves.caught ?_) fun _ => ?_
  · unfold verification
    refine (counts false).bind fun _ => ?_
    split
    · exact Moves.raise _
    refine steps.wait.bind fun _ => ?_
    split
    · exact Moves.raise _
    · refine (steps.attempts _ _).bind fun _ => ?_
      split
      · exact (counts true).bind fun _ => steps.depart
      · exact Moves.raise _
  · split
    · exact Moves.pure _
    · refine (Moves.look _).bind fun _ => ?_
      split
      · exact steps.emit _ rfl
      · exact Moves.pure _

end Frames

/-- The page stays silent. -/
def StaysSilent (s t : World) : Prop := Silent s → Silent t

instance instReflSilent : Std.Refl StaysSilent := ⟨fun _ silent => silent⟩

instance instTransSilent : IsTrans World StaysSilent := ⟨fun _ _ _ first second silent => second (first silent)⟩

theorem send_eq (r : Request) (w : World) : send r w =
    if w.stopped then (.error "Page closed", w) else (.ok (), { w with log := w.log ++ [.request r] }) := by
  change (if w.stopped = true then raise "Page closed" >>= fun _ => emit (.request r) else emit (.request r)) w = _
  split <;> rfl

end Hiding

theorem Sent.unresent {load : Load} {a p c y : Nat} {added : List Event} (sent : Sent load a p c y added) :
    .resend ∉ requests added := by
  intro member
  obtain ⟨event, inside, same⟩ := List.mem_filterMap.mp member
  have left : event ∈ exits added := by
    refine List.mem_filter.mpr ⟨inside, ?_⟩
    cases event <;> cases same
    rfl
  rw [sent.stays] at left
  cases left

theorem Sent.only {load : Load} {c y : Nat} {added : List Event} (sent : Sent load 0 0 c y added) :
    ∀ r ∈ requests added, r.isStatus = true ∨ r = .resync := by
  intro r member
  cases r with
  | challenge key =>
    have some_ : 0 < (requests added).countP Request.isChallenge := List.countP_pos_iff.mpr ⟨_, member, rfl⟩
    exact absurd sent.challenges (by omega)
  | verify post =>
    have some_ : post ∈ Visits.posts added := List.mem_filterMap.mpr ⟨_, member, rfl⟩
    rw [List.eq_nil_of_length_eq_zero (Nat.le_zero.mp sent.posts)] at some_
    cases some_
  | status proof => exact .inl rfl
  | resync => exact .inr rfl
  | resend => exact absurd member sent.unresent

theorem Resent.posts {n : Nat} {added : List Event} (resent : Resent n added) : posts added = [] := by
  refine List.filterMap_eq_nil_iff.mpr fun r member => ?_
  rcases resent.others r member with rfl | rfl <;> rfl

theorem exits_split {log : List Event} (left : exits log ≠ []) :
    ∃ front exit back, log = front ++ exit :: back ∧ exits front = [] ∧ exit.isExit = true := by
  induction log with
  | nil => exact absurd rfl left
  | cons event log ih =>
    cases leaving : event.isExit with
    | true => exact ⟨[], event, log, rfl, rfl, leaving⟩
    | false =>
      rw [exits_cons, leaving] at left
      obtain ⟨front, exit, back, rfl, stayed, gone⟩ := ih left
      refine ⟨event :: front, exit, back, rfl, ?_, gone⟩
      rw [exits_cons, leaving, stayed]
      rfl

/-- Before the page is left there is nothing but questions for the time. -/
theorem Resent.before {n : Nat} {front rest : List Event} (resent : Resent n (front ++ rest)) (stayed : exits front = []) :
    answers front = [] ∧ ∀ r ∈ requests front, r = .resync := by
  constructor
  · refine List.filterMap_eq_nil_iff.mpr fun event member => ?_
    cases event with
    | answered answer =>
      obtain ⟨before, back, rfl⟩ := List.append_of_mem member
      rw [exits_append, List.append_eq_nil_iff] at stayed
      exact absurd stayed.1 (resent.late before answer (back ++ rest) (by simp))
    | _ => rfl
  · intro r member
    refine (resent.others r (by simp [member])).resolve_left ?_
    rintro rfl
    obtain ⟨event, inside, same⟩ := List.mem_filterMap.mp member
    have leaving := List.filter_eq_nil_iff.mp stayed event inside
    cases event <;> cases same
    exact leaving rfl

/-- A page is left, or its captured request sent, only after the gate took its last solution; since
then it has only checked its clearance or asked for the time, and no check was refused. After that
it only sends the captured request and asks for the time. -/
theorem visit_leaves_cleared (load : Load) (tab : Tab) (left : exits (visit load tab).log ≠ []) :
    ∃ front post mid answer rest exit after,
      (visit load tab).log = front ++ .request (.verify post) :: (mid ++ .answered answer :: (rest ++ exit :: after)) ∧
      Idle mid ∧ answer.ok = true ∧ (∀ r ∈ requests rest, r.isStatus = true ∨ r = .resync) ∧
      (∀ answer ∈ answers rest, Unrefused answer) ∧ exits front = [] ∧ exits rest = [] ∧ exit.isExit = true ∧
      ∀ r ∈ requests after, r = .resend ∨ r = .resync := by
  obtain ⟨before, after, same, sent, resent, passed⟩ := visit_visited load tab
  have stayed := sent.stays
  have gone : exits after ≠ [] := by rwa [same, exits_append, stayed] at left
  obtain ⟨front, post, mid, answer, rest, rfl, quiet, fine, checked, unrefused⟩ := passed gone
  obtain ⟨late, exit, after, rfl, stays, leaving⟩ := exits_split gone
  obtain ⟨unanswered, synced⟩ := resent.before stays
  rw [exits_append, List.append_eq_nil_iff] at stayed
  refine ⟨front, post, mid, answer, rest ++ late, exit, after, ?_, quiet, fine, fun r member => ?_, ?_, stayed.1, ?_, leaving,
    fun r member => ?_⟩
  · rw [same]
    simp
  · rw [requests_append, List.mem_append] at member
    exact member.elim (checked.only r) fun inside => .inr (synced r inside)
  · rwa [answers_append, unanswered, List.append_nil]
  · rw [exits_append, checked.stays, stays]
    rfl
  · exact resent.others r (by rw [requests_append, requests_cons]; simp [member])

/-- The tab after a count. -/
def bump (load : Load) (now : Int) (tab : Tab) : Tab := match marker load now tab with
  | none => tab
  | some m => load.storage.write tab (some (.marker { m with count := m.count + 1 }))

theorem navigationCount_true (load : Load) (w : World) :
    ∃ n, navigationCount load true w = (.ok n, { w with tab := bump load (load.turns w.pos).dateNow w.tab }) := by
  unfold navigationCount bump
  cases marker load (load.turns w.pos).dateNow w.tab <;> exact ⟨_, rfl⟩

/-- A browser in which everything works until the proof for the check is to be signed. -/
def tiredTurn (n : Nat) : Turn where
  hidden := false
  fetched := .ok ⟨200, none⟩
  json := .ok ⟨.number 2, .number 1, .number 10, .text [], .text []⟩
  text := .ok ()
  solve := fun _ _ _ => .ok 0
  sign := fun _ => if n ≤ 5 then .ok [] else .error "tired"
  key := .ok []
  stale := false
  resyncing := false
  nowSec := 0
  dateNow := 0

def tired (storage : Storage) : Load := ⟨[], [], none, storage, tiredTurn⟩

def tiredPost : Post := ⟨⟨2, 1, 10, [], []⟩, [], 0, []⟩

def tiredLog : List Event :=
  [.request (.challenge []), .answered ⟨200, none⟩, .read ⟨.number 2, .number 1, .number 10, .text [], .text []⟩,
    .request (.verify tiredPost), .answered ⟨200, none⟩]

theorem tired_attempt (storage : Storage) (tab : Tab) : attempt (tired storage) [] ⟨1, false, [], tab⟩ = (.ok true, ⟨6, false, tiredLog, tab⟩) := by
  have asked : fetchBounded (tired storage) (.challenge (Base64.encode [])) true true ⟨1, false, [], tab⟩ =
    (.ok (.data ⟨.number 2, .number 1, .number 10, .text [], .text []⟩), ⟨3, false, tiredLog.take 3, tab⟩) := rfl
  have valid : Data.challenge ⟨.number 2, .number 1, .number 10, .text [], .text []⟩ = some tiredPost.challenge := by decide
  have found (w : World) : checked (tired storage) (.data ⟨.number 2, .number 1, .number 10, .text [], .text []⟩) w =
      (.ok tiredPost.challenge, w) := by
    unfold checked
    dsimp only
    rw [valid]
    rfl
  unfold attempt
  rw [bind_ok asked, bind_ok (found _)]
  rfl

/-- The check is never made, but `ok` is still set by the solution. -/
theorem tired_once (storage : Storage) (tab : Tab) : once (tired storage) [] 2 ⟨1, false, [], tab⟩ = (.ok true, ⟨8, false, tiredLog, tab⟩) := by
  have unsigned : signProof (tired storage) (ascii "GET") (tired storage).statusPath ⟨6, false, tiredLog, tab⟩ =
    (.error "tired", ⟨7, false, tiredLog, tab⟩) := rfl
  have thrown : clearanceAccepted (tired storage) ⟨6, false, tiredLog, tab⟩ = (.error "tired", ⟨7, false, tiredLog, tab⟩) := by
    rw [clearanceAccepted, acceptedLoop, bind_error unsigned]
  unfold once
  rw [bind_ok (caught_eq (tired_attempt storage tab))]
  dsimp only
  rw [bind_ok (caught_eq thrown)]
  rfl

theorem tired_visit (storage : Storage) (tab : Tab) (fresh : storage.read tab = none) :
    (visit (tired storage) tab).log = tiredLog ++ [.reload] := by
  have counted : navigationCount (tired storage) false ⟨0, false, [], tab⟩ = (.ok 0, ⟨0, false, [], tab⟩) := by
    have found : marker (tired storage) 0 tab = some ⟨[], 0, 0⟩ := by
      unfold marker
      rw [show (tired storage).storage.read tab = none from fresh]
      rfl
    unfold navigationCount
    rw [show ((tired storage).turns (World.mk 0 false [] tab).pos).dateNow = 0 from rfl, found]
    rfl
  have waited : wait (tired storage) ⟨0, false, [], tab⟩ = (.ok (tiredTurn 0), ⟨1, false, [], tab⟩) := rfl
  have tried : attempts (tired storage) [] 3 ⟨1, false, [], tab⟩ = (.ok true, ⟨8, false, tiredLog, tab⟩) := by
    rw [attempts, bind_ok (tired_once storage _)]
    rfl
  have verified : ∃ tab', verification (tired storage) ⟨0, false, [], tab⟩ = (.ok (), ⟨8, false, tiredLog ++ [.reload], tab'⟩) := by
    unfold verification
    rw [bind_ok counted, if_neg (by decide), bind_ok waited]
    change ∃ tab', (attempts (tired storage) [] 3 >>= _) _ = _
    rw [bind_ok tried]
    obtain ⟨n, written⟩ := navigationCount_true (tired storage) ⟨8, false, tiredLog, tab⟩
    rw [if_pos rfl, leave, bind_ok written]
    exact ⟨_, rfl⟩
  obtain ⟨tab', verified⟩ := verified
  unfold visit run
  rw [bind_ok (caught_eq verified)]
  rfl

theorem visit_leaves_cleared_tired : ∃ front post mid answer rest exit after,
    (visit (tired ⟨true, true⟩) ⟨none, .empty⟩).log =
      front ++ .request (.verify post) :: (mid ++ .answered answer :: (rest ++ exit :: after)) ∧ Idle mid ∧
      answer.ok = true ∧ exits rest = [] ∧ exit.isExit = true := by
  have left : exits (visit (tired ⟨true, true⟩) ⟨none, .empty⟩).log ≠ [] := by
    rw [tired_visit _ _ rfl, exits_append]
    simp [Event.isExit]
  obtain ⟨front, post, mid, answer, rest, exit, after, same, quiet, fine, -, -, -, stays, leaving, -⟩ :=
    visit_leaves_cleared (tired ⟨true, true⟩) ⟨none, .empty⟩ left
  exact ⟨front, post, mid, answer, rest, exit, after, same, quiet, fine, stays, leaving⟩

end PowGate.Visits
