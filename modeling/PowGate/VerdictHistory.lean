import PowGate.VerdictCache

/-! Whole histories of the verdict cache: requests and resolver threads interleave
freely, replies come late or twice, and lookups for one key are restarted. -/
namespace PowGate.Verdicts

open PowGate.Runs

variable {K : Type} [DecidableEq K]

/-- `generation` belongs to the last lookup started for `key`, and `later` is
everything that happened since. -/
def MostRecent (past : List (Event K)) (key : K) (generation : Nat) (later : List (Event K)) : Prop :=
  ∃ earlier now, past = earlier ++ .begin key now (.start generation) :: later ∧
    ∀ u other, Event.begin key u (.start other) ∉ later

omit [DecidableEq K] in
theorem MostRecent.extend (recent : MostRecent past key generation later)
    (quiet : ∀ u other, (Event.begin key u (.start other) : Event K) ≠ event) :
    MostRecent (past ++ [event]) key generation (later ++ [event]) := by
  obtain ⟨earlier, now, rfl, none⟩ := recent
  refine ⟨earlier, now, by simp, fun u other member => ?_⟩
  rcases List.mem_append.mp member with before | last
  · exact none u other before
  · exact quiet u other (by simpa using last)

/-- Every entry answers for the most recent lookup of its key, and a positive
verdict was delivered to that lookup at the entry's own time. -/
def Grounded (past : List (Event K)) (cache : VerdictCache K) : Prop :=
  ∀ key entry, cache.entries.lookup key = some entry → ∃ later,
    MostRecent past key entry.generation later ∧
    (entry.verdict = true → .complete key entry.generation true entry.at_ ∈ later)

theorem Grounded.extend {cache : VerdictCache K} (grounded : Grounded past cache)
    (found : cache.entries.lookup key = some entry)
    (quiet : ∀ u other, (Event.begin key u (.start other) : Event K) ≠ event) :
    ∃ later, MostRecent (past ++ [event]) key entry.generation later ∧
      (entry.verdict = true → .complete key entry.generation true entry.at_ ∈ later) := by
  obtain ⟨later, recent, delivered⟩ := grounded key entry found
  exact ⟨later ++ [event], recent.extend quiet, fun positive => by simp [delivered positive]⟩

theorem step_grounded (past : List (Event K)) (cache : VerdictCache K) (event : Event K)
    (next : VerdictCache K) (grounded : Grounded past cache) (taken : Step cache event next) :
    Grounded (past ++ [event]) next := by
  intro key entry found
  cases event with
  | begin k now result =>
    rcases begin_cases taken with ⟨_, _, _, rfl, rfl⟩ | ⟨_, others, _, cases⟩
    · exact grounded.extend found (by simp)
    · by_cases same : key = k
      · subst k
        rcases cases with ⟨_, absent, _⟩ | ⟨rfl, present, _⟩
        · simp [absent] at found
        · obtain rfl := Option.some.inj (present.symm.trans found)
          exact ⟨[], ⟨past, now, rfl, by simp⟩, by simp⟩
      · rcases others key same with kept | ⟨dropped, _⟩
        · exact grounded.extend (kept ▸ found) (by simp [same])
        · simp [dropped] at found
  | complete k generation verdict now =>
    obtain rfl : next = _ := taken
    rcases complete_cases cache k generation verdict now with kept | ⟨old, present, own, written⟩
    · rw [kept] at found
      exact grounded.extend found (by simp)
    · rw [written] at found
      by_cases same : key = k
      · subst k
        rw [AList.lookup_insert] at found
        obtain rfl := Option.some.inj found
        obtain ⟨later, recent, _⟩ := grounded key old present
        rw [own] at recent
        refine ⟨later ++ [_], recent.extend (by simp), fun positive => ?_⟩
        obtain rfl : verdict = true := positive
        simp
      · rw [AList.lookup_insert_ne same] at found
        exact grounded.extend found (by simp)
  | cancel k generation =>
    obtain rfl : next = _ := taken
    rcases cancel_cases cache k generation with kept | ⟨old, present, own, removed⟩
    · rw [kept] at found
      exact grounded.extend found (by simp)
    · rw [removed] at found
      by_cases same : key = k
      · subst k
        simp at found
      · rw [AList.lookup_erase_ne same] at found
        exact grounded.extend found (by simp)

theorem run_grounded {cache : VerdictCache K}
    (run : Run Step (new capacity ttl created) events cache) : Grounded events cache := by
  apply run.history Grounded
  · intro key entry found
    simp [new] at found
  · exact step_grounded

theorem run_frame {cache next : VerdictCache K} (run : Run Step cache events next) :
    Frame cache next := by
  induction run with
  | nil => exact ⟨rfl, rfl, fun bound => bound⟩
  | cons taken _ ih =>
    have first := step_frame taken
    refine ⟨ih.capacity.trans first.capacity, ih.ttl.trans first.ttl, fun bound => ?_⟩
    have middle := first.bounded bound
    rw [← first.capacity] at middle ⊢
    exact ih.bounded middle

/-- The generations handed out count up from one until they would wrap. -/
theorem run_generations {cache : VerdictCache K}
    (run : Run Step (new capacity ttl created) events cache) :
    (events.filterMap Event.started).length < 2 ^ 64 →
      cache.generation = (events.filterMap Event.started).length ∧
      events.filterMap Event.started =
        List.range' 1 (events.filterMap Event.started).length := by
  apply run.history fun past cache => (past.filterMap Event.started).length < 2 ^ 64 →
    cache.generation = (past.filterMap Event.started).length ∧
    past.filterMap Event.started = List.range' 1 (past.filterMap Event.started).length
  · simp [new]
  intro past cache event next known taken below
  rw [List.filterMap_append,List.length_append] at below
  obtain ⟨count, listed⟩ := known (by omega)
  have quiet : event.started = none → next.generation = cache.generation →
      next.generation = ((past ++ [event]).filterMap Event.started).length ∧
      (past ++ [event]).filterMap Event.started =
        List.range' 1 ((past ++ [event]).filterMap Event.started).length := by
    intro nothing same
    simp only [List.filterMap_append,List.filterMap_cons,nothing,List.filterMap_nil,List.append_nil]
    exact ⟨same.trans count, listed⟩
  cases event with
  | begin key now result =>
    rcases begin_cases taken with ⟨_, _, _, rfl, rfl⟩ | ⟨_, _, _, ⟨rfl, _, same⟩ | ⟨rfl, _, same⟩⟩
    · exact quiet rfl rfl
    · exact quiet rfl same
    · simp only [List.filterMap_append,List.filterMap_cons,Event.started,List.filterMap_nil,
        List.length_append,List.length_cons,List.length_nil] at below ⊢
      have unwrapped : (cache.generation + 1) % 2 ^ 64 = cache.generation + 1 :=
        Nat.mod_eq_of_lt (by omega)
      rw [same,unwrapped,count]
      refine ⟨by omega, ?_⟩
      rw [← List.range'_append_1,← listed]
      simp [Nat.add_comm]
  | complete key generation verdict now =>
    obtain rfl : next = _ := taken
    rcases complete_cases cache key generation verdict now with kept | ⟨_, _, _, written⟩
    · exact quiet rfl (by rw [kept])
    · exact quiet rfl (by rw [written])
  | cancel key generation =>
    obtain rfl : next = _ := taken
    rcases cancel_cases cache key generation with kept | ⟨_, _, _, removed⟩
    · exact quiet rfl (by rw [kept])
    · exact quiet rfl (by rw [removed])

/-- How one call moves the expiry of the lookup `generation` for `key`: a matching
reply that arrives in time dates the lookup anew. A late one is not counted here, since
its entry may have been swept or replaced. -/
def extendExpiry (ttl : Nat) (key : K) (generation expiry : Nat) : Event K → Nat
  | .complete k g _ now => if k = key ∧ g = generation ∧ now < expiry then now + ttl else expiry
  | _ => expiry

/-- `ttl` after the start of the lookup or after the last matching reply that came in time. -/
def expiry (ttl : Nat) (key : K) (generation started : Nat) (events : List (Event K)) : Nat :=
  events.foldl (extendExpiry ttl key generation) (started + ttl)

theorem expiry_snoc (ttl : Nat) (key : K) (generation started : Nat) (events : List (Event K))
    (event : Event K) : expiry ttl key generation started (events ++ [event]) =
      extendExpiry ttl key generation (expiry ttl key generation started events) event := by
  simp [expiry]

/-- Since the lookup started it was cancelled, or it ran out before some call, or
its entry is in place and dated as `expiry` says. -/
def Standing (ttl : Nat) (key : K) (generation started : Nat) (past : List (Event K))
    (cache : VerdictCache K) : Prop :=
  .cancel key generation ∈ past ∨
  (∃ now ∈ past.filterMap Event.time, expiry ttl key generation started past ≤ now) ∨
  (∃ entry, cache.entries.lookup key = some entry ∧ entry.generation = generation ∧
    entry.at_ ∈ started :: past.filterMap Event.time ∧
    entry.at_ + ttl = expiry ttl key generation started past)

theorem not_fresh (stale : fresh ttl now entry = false) (past : entry.at_ ≤ now) :
    entry.at_ + ttl ≤ now := by
  simp only [fresh,decide_eq_false_iff_not] at stale
  omega

/-- A call that leaves both the entry and its expiry alone. -/
theorem Standing.carry {cache next : VerdictCache K}
    (found : cache.entries.lookup key = some entry) (own : entry.generation = generation)
    (known : entry.at_ ∈ started :: past.filterMap Event.time)
    (dated : entry.at_ + ttl = expiry ttl key generation started past)
    (kept : next.entries.lookup key = cache.entries.lookup key)
    (still : extendExpiry ttl key generation (expiry ttl key generation started past) event =
      expiry ttl key generation started past) :
    Standing ttl key generation started (past ++ [event]) next :=
  .inr (.inr ⟨entry, kept.trans found, own, by
    rw [List.filterMap_append,← List.cons_append]; exact List.mem_append_left _ known,
    by rw [expiry_snoc,still]; exact dated⟩)

/-- The call itself comes at or after the expiry. -/
theorem Standing.lapse {next : VerdictCache K} (time : event.time = some now)
    (late : expiry ttl key generation started past ≤ now)
    (still : extendExpiry ttl key generation (expiry ttl key generation started past) event =
      expiry ttl key generation started past) :
    Standing ttl key generation started (past ++ [event]) next :=
  .inr (.inl ⟨now, by simp [time], by rw [expiry_snoc,still]; exact late⟩)

theorem step_standing {cache next : VerdictCache K} (limit : cache.ttl = ttl)
    (ordered : (started :: (past ++ [event]).filterMap Event.time).Pairwise (· ≤ ·))
    (standing : Standing ttl key generation started past cache) (taken : Step cache event next) :
    Standing ttl key generation started (past ++ [event]) next := by
  rw [List.filterMap_append,← List.cons_append,List.pairwise_append] at ordered
  have after (u now : Nat) (earlier : u ∈ started :: past.filterMap Event.time)
      (time : event.time = some now) : u ≤ now := ordered.2.2 u earlier now (by simp [time])
  rcases standing with cancelled | ⟨now, member, late⟩ | ⟨entry, found, own, known, dated⟩
  · exact .inl (by simp [cancelled])
  · -- An expiry that has passed is never moved again: later replies are later still.
    have frozen : extendExpiry ttl key generation (expiry ttl key generation started past) event =
        expiry ttl key generation started past := by
      cases event with
      | complete k g verdict u =>
        have passed := after now u (List.mem_cons_of_mem _ member) rfl
        simp only [extendExpiry]
        rw [if_neg (by omega)]
      | begin => rfl
      | cancel => rfl
    refine .inr (.inl ⟨now, ?_, by rw [expiry_snoc,frozen]; exact late⟩)
    rw [List.filterMap_append]
    exact List.mem_append_left _ member
  · cases event with
    | begin k now result =>
      rcases begin_cases taken with ⟨_, _, _, _, rfl⟩ | ⟨_, others, stale, _⟩
      · exact .carry found own known dated rfl rfl
      · by_cases same : key = k
        · subst k
          have gone := not_fresh (limit ▸ stale entry found) (after _ now known rfl)
          exact .lapse rfl (by omega) rfl
        · rcases others key same with kept | ⟨_, aged⟩
          · exact .carry found own known dated kept rfl
          · have gone := not_fresh (limit ▸ aged entry found) (after _ now known rfl)
            exact .lapse rfl (by omega) rfl
    | complete k g verdict now =>
      obtain rfl : next = _ := taken
      by_cases same : key = k
      · subst k
        by_cases matching : g = generation
        · have applied : (complete cache key g verdict now).entries.lookup key =
              some ⟨verdict, now, generation⟩ := by
            simp [complete,found,own,matching]
          by_cases inTime : now < expiry ttl key generation started past
          · refine .inr (.inr ⟨_, applied, rfl, by simp [Event.time], ?_⟩)
            rw [expiry_snoc]
            simp [extendExpiry,matching,inTime]
          · exact .lapse rfl (by omega) (by simp [extendExpiry,inTime])
        · have foreign : ∀ e, cache.entries.lookup key = some e → e.generation ≠ g := by
            intro e present
            obtain rfl := Option.some.inj (found.symm.trans present)
            rw [own]
            exact Ne.symm matching
          have kept := (other_generation_ignored cache key g verdict now foreign).1
          exact .carry found own known dated (by rw [kept]) (by simp [extendExpiry,matching])
      · have kept : (complete cache k g verdict now).entries.lookup key = cache.entries.lookup key := by
          rcases complete_cases cache k g verdict now with kept | ⟨_, _, _, written⟩
          · rw [kept]
          · rw [written,AList.lookup_insert_ne same]
        exact .carry found own known dated kept (by simp [extendExpiry,Ne.symm same])
    | cancel k g =>
      obtain rfl : next = _ := taken
      by_cases matching : key = k ∧ g = generation
      · exact .inl (by simp [matching])
      · have kept : (cancel cache k g).entries.lookup key = cache.entries.lookup key := by
          rcases cancel_cases cache k g with kept | ⟨old, present, mine, removed⟩
          · rw [kept]
          · have apart : key ≠ k := by
              rintro rfl
              obtain rfl := Option.some.inj (found.symm.trans present)
              exact matching ⟨rfl, mine.symm.trans own⟩
            rw [removed,AList.lookup_erase_ne apart]
        exact .carry found own known dated kept rfl

theorem run_standing {cache final : VerdictCache K} (limit : cache.ttl = ttl)
    (run : Run Step cache events final)
    (placed : cache.entries.lookup key = some ⟨verdict, started, generation⟩) :
    (started :: events.filterMap Event.time).Pairwise (· ≤ ·) →
      Standing ttl key generation started events final := by
  have both := run.history (fun past cache => cache.ttl = ttl ∧
    ((started :: past.filterMap Event.time).Pairwise (· ≤ ·) →
      Standing ttl key generation started past cache)) ⟨limit, ?_⟩ ?_
  · exact both.2
  · intro _
    exact .inr (.inr ⟨_, placed, rfl, by simp, rfl⟩)
  · intro past cache event next known taken
    refine ⟨(step_frame taken).ttl.trans known.1, fun ordered => ?_⟩
    have front : (started :: past.filterMap Event.time).Pairwise (· ≤ ·) := by
      rw [List.filterMap_append,← List.cons_append,List.pairwise_append] at ordered
      exact ordered.1
    exact step_standing known.1 ordered (known.2 front) taken

/-- What a history may rely on, for every interleaving. -/
structure Safe (capacity ttl created : Nat) (events : List (Event K)) : Prop where
  bounded : ∀ front back cache, events = front ++ back →
    Run Step (new capacity ttl created) front cache → len cache ≤ capacity
  /-- Two lookups never share a generation. -/
  distinct : (events.filterMap Event.started).Nodup
  positive : ∀ before after key now, events = before ++ .begin key now (.cached true) :: after →
    ∃ generation later delivered, MostRecent before key generation later ∧
      .complete key generation true delivered ∈ later ∧ now < delivered + ttl
  /-- Only the generation of the key's last lookup can touch its entry. -/
  ignored : ∀ before after key generation cache, events = before ++ after →
    Run Step (new capacity ttl created) before cache →
    (¬ ∃ later, MostRecent before key generation later) → ∀ verdict now,
    complete cache key generation verdict now = cache ∧ cancel cache key generation = cache
  single : ∀ before between after key started generation now other,
    events = before ++ .begin key started (.start generation) ::
      (between ++ .begin key now (.start other) :: after) →
    .cancel key generation ∉ between → expiry ttl key generation started between ≤ now
  /-- A reply that still finds its entry in place dates the lookup anew, however late it is. -/
  renewed : ∀ before between after key generation verdict delivered now other cache entry,
    events = before ++ .complete key generation verdict delivered ::
      (between ++ .begin key now (.start other) :: after) →
    Run Step (new capacity ttl created) before cache →
    cache.entries.lookup key = some entry → entry.generation = generation →
    .cancel key generation ∉ between → expiry ttl key generation delivered between ≤ now

theorem begin_opens {cache next : VerdictCache K}
    (h : begin cache key now = (.start generation, next)) :
    next.entries.lookup key = some ⟨false, now, generation⟩ := by
  rcases begin_cases h with ⟨_, _, _, impossible, _⟩ | ⟨_, _, _, ⟨impossible, _⟩ | ⟨same, present, _⟩⟩
  · contradiction
  · contradiction
  · obtain rfl := Lookup.start.inj same
    exact present

theorem begin_refreshes {cache next : VerdictCache K}
    (h : begin cache key now = (.start other, next))
    (found : cache.entries.lookup key = some entry) : fresh cache.ttl now entry = false := by
  rcases begin_cases h with ⟨_, _, _, impossible, _⟩ | ⟨_, _, stale, _⟩
  · contradiction
  · exact stale entry found

/-- From the moment an entry is dated, its lookup is not restarted before the expiry. -/
theorem restart_expired {dated last next : VerdictCache K} (limit : dated.ttl = ttl)
    (placed : dated.entries.lookup key = some ⟨verdict, started, generation⟩)
    (middle : Run Step dated between last) (restart : begin last key now = (.start other, next))
    (ordered : (started :: between.filterMap Event.time).Pairwise (· ≤ ·))
    (before : ∀ u ∈ started :: between.filterMap Event.time, u ≤ now)
    (uncancelled : .cancel key generation ∉ between) : expiry ttl key generation started between ≤ now := by
  rcases run_standing limit middle placed ordered with
    cancelled | ⟨u, member, late⟩ | ⟨entry, found, _, known, dated⟩
  · exact absurd cancelled uncancelled
  · exact Nat.le_trans late (before u (List.mem_cons_of_mem _ member))
  · have stale := begin_refreshes restart found
    rw [(run_frame middle).ttl.trans limit] at stale
    rw [← dated]
    exact not_fresh stale (before _ known)

/-- What a run from `event` up to a restart gives `restart_expired`. -/
theorem run_to_restart {cache : VerdictCache K} {event : Event K} (time : event.time = some started)
    (run : Run Step (new capacity ttl created) (before ++ event ::
      (between ++ .begin key now (.start other) :: after)) cache)
    (ordered : ((before ++ event ::
      (between ++ .begin key now (.start other) :: after)).filterMap Event.time).Pairwise (· ≤ ·)) :
    ∃ first dated last next, Run Step (new capacity ttl created) before first ∧ Step first event dated ∧
      dated.ttl = ttl ∧ Run Step dated between last ∧ begin last key now = (.start other, next) ∧
      (started :: between.filterMap Event.time).Pairwise (· ≤ ·) ∧
      ∀ u ∈ started :: between.filterMap Event.time, u ≤ now := by
  obtain ⟨first, front, rest⟩ := run.split
  cases rest with
  | @cons _ _ dated _ _ start rest =>
    obtain ⟨last, middle, tail⟩ := rest.split
    cases tail with
    | @cons _ _ next _ _ restart _ =>
      have limit : dated.ttl = ttl := (step_frame start).ttl.trans (run_frame front).ttl
      have restarted : Event.time (.begin key now (.start other)) = some now := rfl
      simp only [List.filterMap_append,List.filterMap_cons,time,restarted,List.pairwise_append] at ordered
      have inner := ordered.2.1
      rw [← List.cons_append,List.pairwise_append] at inner
      refine ⟨first, dated, last, next, front, start, limit, middle, restart, inner.1, fun u earlier => ?_⟩
      exact inner.2.2 u earlier now (by simp)

theorem no_early_restart {cache : VerdictCache K}
    (run : Run Step (new capacity ttl created) (before ++ .begin key started (.start generation) ::
      (between ++ .begin key now (.start other) :: after)) cache)
    (ordered : ((before ++ .begin key started (.start generation) ::
      (between ++ .begin key now (.start other) :: after)).filterMap Event.time).Pairwise (· ≤ ·))
    (uncancelled : .cancel key generation ∉ between) :
    expiry ttl key generation started between ≤ now := by
  obtain ⟨first, dated, last, next, _, start, limit, middle, restart, inner, early⟩ := run_to_restart rfl run ordered
  exact restart_expired limit (begin_opens start) middle restart inner early uncancelled

theorem step_deterministic {cache next other : VerdictCache K} {event : Event K} (taken : Step cache event next)
    (again : Step cache event other) : next = other := by
  cases event with
  | begin key now result => exact (Prod.mk.inj (Eq.trans (Eq.symm taken) again)).2
  | complete key generation verdict now => exact Eq.trans taken (Eq.symm again)
  | cancel key generation => exact Eq.trans taken (Eq.symm again)

theorem no_early_renewal {cache found : VerdictCache K}
    (run : Run Step (new capacity ttl created) (before ++ .complete key generation verdict delivered ::
      (between ++ .begin key now (.start other) :: after)) cache)
    (ordered : ((before ++ .complete key generation verdict delivered ::
      (between ++ .begin key now (.start other) :: after)).filterMap Event.time).Pairwise (· ≤ ·))
    (reached : Run Step (new capacity ttl created) before found)
    (placed : found.entries.lookup key = some entry) (own : entry.generation = generation)
    (uncancelled : .cancel key generation ∉ between) :
    expiry ttl key generation delivered between ≤ now := by
  obtain ⟨first, dated, last, next, front, written, limit, middle, restart, inner, early⟩ := run_to_restart rfl run ordered
  obtain rfl := reached.deterministic front fun _ _ _ _ => step_deterministic
  obtain rfl : dated = _ := written
  have renewed : (complete found key generation verdict delivered).entries.lookup key =
      some ⟨verdict, delivered, generation⟩ := by
    simp [complete,placed,own]
  exact restart_expired limit renewed middle restart inner early uncancelled

/-- Every interleaving of calls in nondecreasing time, with fewer than `2^64`
lookups started, is safe, whatever capacity, lifetime, keys and generations occur. -/
theorem interleavings_safe (capacity ttl created : Nat) (events : List (Event K))
    (final : VerdictCache K) (run : Run Step (new capacity ttl created) events final)
    (ordered : (events.filterMap Event.time).Pairwise (· ≤ ·))
    (lookups : (events.filterMap Event.started).length < 2 ^ 64) :
    Safe capacity ttl created events where
  bounded front back cache _ front_run := by
    have frame := run_frame front_run
    exact frame.bounded (by simp [len,new])
  distinct := by
    rw [(run_generations run lookups).2]
    exact List.nodup_range'
  positive before after key now split := by
    subst split
    obtain ⟨cache, front, rest⟩ := run.split
    cases rest with
    | cons answered _ =>
      rcases begin_cases answered with ⟨entry, found, hit, same, _⟩ |
        ⟨_, _, _, ⟨impossible, _⟩ | ⟨impossible, _⟩⟩
      · obtain ⟨later, recent, delivered⟩ := run_grounded front key entry found
        have young : now - entry.at_ < cache.ttl := by simpa [fresh] using hit
        rw [(run_frame front).ttl] at young
        change now - entry.at_ < ttl at young
        exact ⟨entry.generation, later, entry.at_, recent, delivered (Lookup.cached.inj same).symm,
          by omega⟩
      · contradiction
      · contradiction
  ignored before after key generation cache _ front other verdict now := by
    apply other_generation_ignored
    rintro entry found rfl
    obtain ⟨later, recent, _⟩ := run_grounded front key entry found
    exact other ⟨later, recent⟩
  single before between after key started generation now other split uncancelled := by
    subst split
    exact no_early_restart run ordered uncancelled
  renewed before between after key generation verdict delivered now other cache entry split reached placed own uncancelled := by
    subst split
    exact no_early_renewal run ordered reached placed own uncancelled

/-- The late reply of an expired lookup is dropped; the restarted one is answered. -/
theorem interleavings_safe_stale_reply :
    Safe 1 1000 0 [.begin 7 0 (.start 1), .begin 7 2000 (.start 2), .complete 7 1 true 2000,
      .begin 7 2000 (.cached false), .complete 7 2 true 2100, .begin 7 2500 (.cached true)] := by
  refine interleavings_safe 1 1000 0 _ _
    (.cons rfl (.cons rfl (.cons rfl (.cons rfl (.cons rfl (.cons rfl .nil)))))) ?_ ?_
  · decide
  · decide

end PowGate.Verdicts
