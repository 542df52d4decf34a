import PowGate.Ranges
import PowGate.VerdictCache

/-! The range feeds of a verified crawler. A refresher fetches the sources in turn, keeps the
last good snapshot of each and publishes all of them after every source; every lookup checks
the age of the snapshots for itself. Instants and durations are nanoseconds. -/
namespace PowGate

open Text Verdicts

/-- The ranges of one source, and when they were parsed. -/
structure FeedSnapshot where
  ranges : IpRangeSet
  updated : Nat
  deriving DecidableEq

def FeedSnapshot.parse (readFeed : Bytes → Option (List FeedPrefix)) (bytes : Bytes) (now : Nat) :
    Option FeedSnapshot :=
  let (ranges, n) := IpRangeSet.new.addFeedJson readFeed bytes
  if n = 0 then none else some ⟨ranges, now⟩

/-- `saturating_duration_since`. -/
def FeedSnapshot.age (feed : FeedSnapshot) (now : Nat) : Nat := now - feed.updated

def FeedSnapshot.fresh (feed : FeedSnapshot) (now maxStale : Nat) : Bool := feed.age now < maxStale

def FeedSnapshot.contains (feed : FeedSnapshot) (ip : IpAddr) (now maxStale : Nat) : Bool :=
  feed.fresh now maxStale && feed.ranges.contains ip

namespace Feeds

/-- One configured verifier. The configuration refuses a maximum age of zero. -/
structure Verifier where
  maxStale : Nat
  urls : List Bytes
  fcrdnsSuffixes : List Bytes
  positive : 0 < maxStale

inductive Reason where
  | unknownVerifier
  | verifiedRange
  | verifiedDns
  | feedStale
  | verifierUnconfirmed
  deriving DecidableEq, Repr

/-- The cached DNS verdict; without one a lookup is queued, and given up when the queue is full. -/
def fcrdnsCached (verdicts : VerdictCache IpAddr) (ip : IpAddr) (now : Nat) (queued : Bool) :
    Bool × VerdictCache IpAddr :=
  match begin verdicts ip now with
  | (.cached verdict, cache) => (verdict, cache)
  | (.full, cache) => (false, cache)
  | (.start generation, cache) => (false, if queued then cache else cancel cache ip generation)

/-- The verdict for the verifier registered under the requested name, if there is one. The published snapshots
are loaded twice, and may have been replaced in between. -/
def verifierResult (found : Option Verifier) (loaded reloaded : List (Option FeedSnapshot))
    (verdicts : VerdictCache IpAddr) (ip : IpAddr) (now begun : Nat) (queued : Bool) :
    (Bool × Reason) × VerdictCache IpAddr :=
  match found with
  | none => ((false, .unknownVerifier), verdicts)
  | some v =>
    if loaded.any fun feed => feed.any fun feed => feed.contains ip now v.maxStale then
      ((true, .verifiedRange), verdicts)
    else
      let (confirmed, verdicts) :=
        if v.fcrdnsSuffixes ≠ [] then fcrdnsCached verdicts ip begun queued else (false, verdicts)
      if confirmed then ((true, .verifiedDns), verdicts)
      else if reloaded.any fun feed => feed.any fun feed => !feed.fresh now v.maxStale then
        ((false, .feedStale), verdicts)
      else ((false, .verifierUnconfirmed), verdicts)

/-- What came of one request: an error before the end of the body, or the body. -/
inductive Response where
  | failed
  | body (bytes : Bytes)
  deriving DecidableEq

/-- Bodies are read up to one byte past the limit of 8 MiB. -/
def limit : Nat := 8 * 2 ^ 20

def fetch (readFeed : Bytes → Option (List FeedPrefix)) (response : Response) (now : Nat) : Option FeedSnapshot :=
  match response with
  | .failed => none
  | .body bytes =>
    let bytes := bytes.take (limit + 1)
    if limit < bytes.length then none else FeedSnapshot.parse readFeed bytes now

/-- The refresher's own snapshots, the published ones, the source it fetches next and the DNS verdicts. -/
structure State where
  feeds : List (Option FeedSnapshot)
  ranges : List (Option FeedSnapshot)
  index : Nat
  verdicts : VerdictCache IpAddr

def start (v : Verifier) (verdicts : VerdictCache IpAddr) : State where
  feeds := List.replicate v.urls.length none
  ranges := List.replicate v.urls.length none
  index := 0
  verdicts := verdicts

/-- One source of the refresher's loop. -/
def refresh (readFeed : Bytes → Option (List FeedPrefix)) (v : Verifier) (s : State) (response : Response) (now : Nat) :
    State :=
  let feeds := match fetch readFeed response now with
    | some fresh => s.feeds.set s.index (some fresh)
    | none => s.feeds
  { s with feeds, ranges := feeds, index := (s.index + 1) % v.urls.length }

inductive Event where
  | fetched (response : Response) (now : Nat)
  | lookup (ip : IpAddr) (now : Nat) (result : Bool × Reason)
  | resolved (ip : IpAddr) (generation : Nat) (verdict : Bool) (now : Nat)
  deriving DecidableEq

/-- A refresher runs only for a verifier with sources. A lookup reads the clock before it loads the snapshots, so
the instants of a run come in no particular order. -/
inductive Step (readFeed : Bytes → Option (List FeedPrefix)) (v : Verifier) : State → Event → State → Prop
  | fetched : v.urls ≠ [] → Step readFeed v s (.fetched response now) (refresh readFeed v s response now)
  | lookup : verifierResult (some v) s.ranges reloaded s.verdicts ip now begun queued = (result, verdicts) →
      Step readFeed v s (.lookup ip now result) { s with verdicts }
  | resolved : Step readFeed v s (.resolved ip generation verdict now)
        { s with verdicts := complete s.verdicts ip generation verdict now }

/-- An entry with a prefix, all of whose prefixes are CIDRs. -/
def Acceptable (entry : FeedPrefix) : Prop :=
  ¬ (entry.v4 = none ∧ entry.v6 = none) ∧ (∀ text ∈ entry.v4, (Cidr.parse text).isSome) ∧
    ∀ text ∈ entry.v6, (Cidr.parse text).isSome

instance (entry : FeedPrefix) : Decidable (Acceptable entry) := inferInstanceAs (Decidable (_ ∧ _ ∧ _))

/-- The blocks of a feed: at least one entry, no more than allowed, and every entry acceptable. -/
def listedFeed (feed : List FeedPrefix) : Option (List Cidr) :=
  if feed ≠ [] ∧ feed.length ≤ 100000 ∧ ∀ entry ∈ feed, Acceptable entry then
    some (feed.flatMap FeedPrefix.names)
  else none

/-- The blocks a response lists, when all of it is acceptable. -/
def Response.listed (readFeed : Bytes → Option (List FeedPrefix)) : Response → Option (List Cidr)
  | .failed => none
  | .body bytes => if limit < bytes.length then none else (readFeed bytes).bind listedFeed

/-- The requests of a run, with their times. -/
def attempts (past : List Event) : List (Response × Nat) :=
  past.filterMap fun event => match event with
    | .fetched response now => some (response, now)
    | _ => none

/-- The good answers of one of `n` sources that are asked in turn. -/
def good (readFeed : Bytes → Option (List FeedPrefix)) (n source : Nat) (asked : List (Response × Nat)) :
    List (List Cidr × Nat) :=
  asked.zipIdx.filterMap fun ((response, now), k) =>
    if k % n = source then (response.listed readFeed).map fun cidrs => (cidrs, now) else none

/-- The most recent successfully parsed feed of a source, and when it was parsed. -/
def latest (readFeed : Bytes → Option (List FeedPrefix)) (n source : Nat) (past : List Event) :
    Option (List Cidr × Nat) := (good readFeed n source (attempts past)).getLast?

section Parsing

variable (readFeed : Bytes → Option (List FeedPrefix)) (state : IpRangeSet × Nat)

theorem pushField_isSome {field : Option Bytes} :
    (pushField state field).isSome ↔ ∀ text ∈ field, (Cidr.parse text).isSome := by
  cases field with
  | none => simp [pushField]
  | some text => simp [pushField,pushCidr_eq]

theorem pushPrefix_isSome {entry : FeedPrefix} : (pushPrefix state entry).isSome ↔ Acceptable entry := by
  unfold pushPrefix Acceptable
  split
  · next bare => simp [bare]
  · next named =>
    simp only [named,not_false_eq_true,true_and]
    rw [← pushField_isSome state]
    cases first : pushField state entry.v4 with
    | none => simp
    | some middle => simp [pushField_isSome]

theorem foldlM_isSome {feed : List FeedPrefix} :
    (feed.foldlM pushPrefix state).isSome ↔ ∀ entry ∈ feed, Acceptable entry := by
  induction feed generalizing state with
  | nil => simp
  | cons entry rest ih =>
    rw [List.foldlM_cons,List.forall_mem_cons,← pushPrefix_isSome state]
    cases first : pushPrefix state entry with
    | none => simp
    | some middle => simpa using ih middle

/-- An acceptable entry names at least one block. -/
theorem Acceptable.names_ne_nil {entry : FeedPrefix} (acceptable : Acceptable entry) : entry.names ≠ [] := by
  obtain ⟨named, first, second⟩ := acceptable
  intro empty
  rw [FeedPrefix.names,List.append_eq_nil_iff,Option.toList_eq_nil_iff,Option.toList_eq_nil_iff] at empty
  apply named
  constructor
  · cases field : entry.v4 with
    | none => rfl
    | some text =>
      have parsed := first text field
      simp [field] at empty
      simp [empty.1] at parsed
  · cases field : entry.v6 with
    | none => rfl
    | some text =>
      have parsed := second text field
      simp [field] at empty
      simp [empty.2] at parsed

/-- Reading a feed all the way through is accepting it. -/
theorem parse_spec (bytes : Bytes) (now : Nat) : match (readFeed bytes).bind listedFeed with
    | none => FeedSnapshot.parse readFeed bytes now = none
    | some cidrs => ∃ ranges, FeedSnapshot.parse readFeed bytes now = some ⟨ranges, now⟩ ∧ ranges.Denotes cidrs := by
  have parse : FeedSnapshot.parse readFeed bytes now =
      if (IpRangeSet.new.addFeedJson readFeed bytes).2 = 0 then none
      else some ⟨(IpRangeSet.new.addFeedJson readFeed bytes).1, now⟩ := rfl
  rw [parse]
  unfold IpRangeSet.addFeedJson listedFeed
  cases found : readFeed bytes with
  | none => rfl
  | some feed =>
    simp only [Option.bind_some]
    by_cases many : 100000 < feed.length
    · simp [many,Nat.not_le.mpr many]
    · have few : feed.length ≤ 100000 := Nat.not_lt.mp many
      simp only [many,few,if_false,true_and]
      cases pushed : feed.foldlM pushPrefix (.new, 0) with
      | none =>
        have refused : ¬ ∀ entry ∈ feed, Acceptable entry := by
          rw [← foldlM_isSome (.new, 0),pushed]
          simp
        simp [refused]
      | some result =>
        have accepted : ∀ entry ∈ feed, Acceptable entry := by
          rw [← foldlM_isSome (.new, 0),pushed]
          rfl
        obtain ⟨lists, count⟩ := foldlM_pushPrefix IpRangeSet.new_lists pushed
        have denotes := IpRangeSet.new_denotes.extend lists
        cases feed with
        | nil => simpa using count
        | cons entry rest =>
          have added : result.2 ≠ 0 := by
            have names := List.length_pos_of_ne_nil (accepted entry List.mem_cons_self).names_ne_nil
            rw [count,List.flatMap_cons,List.length_append]
            omega
          simp only [ne_eq,reduceCtorEq,not_false_eq_true,true_and,added,if_false]
          rw [if_pos accepted]
          exact ⟨_, rfl, by simpa using denotes⟩

/-- The code accepts a response exactly when all of it is acceptable, and then holds the blocks it lists. -/
theorem fetch_spec (response : Response) (now : Nat) : match response.listed readFeed with
    | none => fetch readFeed response now = none
    | some cidrs => ∃ ranges, fetch readFeed response now = some ⟨ranges, now⟩ ∧ ranges.Denotes cidrs := by
  cases response with
  | failed => rfl
  | body bytes =>
    unfold Response.listed fetch
    by_cases long : limit < bytes.length
    · have cut : limit < (bytes.take (limit + 1)).length := by
        rw [List.length_take]
        omega
      simp only [long,cut,if_true]
    · have whole : bytes.take (limit + 1) = bytes := List.take_of_length_le (by omega)
      simp only [whole,long,if_false]
      exact parse_spec readFeed bytes now

end Parsing

section History

variable {readFeed : Bytes → Option (List FeedPrefix)} {v : Verifier} {s t : State} {past : List Event} {event : Event}

/-- The snapshot of a source is its most recent good answer. -/
def Holds (snapshot : Option FeedSnapshot) (known : Option (List Cidr × Nat)) : Prop :=
  match known with
  | none => snapshot = none
  | some (cidrs, now) => ∃ ranges, snapshot = some ⟨ranges, now⟩ ∧ ranges.Denotes cidrs

/-- The refresher and the published snapshots agree with the history. -/
structure Kept (readFeed : Bytes → Option (List FeedPrefix)) (v : Verifier) (past : List Event) (s : State) : Prop where
  size : s.feeds.length = v.urls.length
  published : s.ranges = s.feeds
  turn : s.index = (attempts past).length % v.urls.length
  holds : ∀ (source : Nat) (snapshot : Option FeedSnapshot), s.feeds[source]? = some snapshot →
    Holds snapshot (latest readFeed v.urls.length source past)

theorem start_kept (verdicts : VerdictCache IpAddr) : Kept readFeed v [] (start v verdicts) := by
  refine ⟨by simp [start], rfl, rfl, fun source snapshot found => ?_⟩
  have member := List.mem_of_getElem? found
  exact (List.mem_replicate.mp member).2

/-- The event asks no source. -/
def Event.Quiet (event : Event) : Prop := ∀ response now, event ≠ .fetched response now

theorem attempts_quiet (quiet : event.Quiet) : attempts (past ++ [event]) = attempts past := by
  cases event with
  | fetched response now => exact absurd rfl (quiet response now)
  | lookup ip now result => simp [attempts]
  | resolved ip generation verdict now => simp [attempts]

theorem Kept.quiet (kept : Kept readFeed v past s) (quiet : event.Quiet) (verdicts : VerdictCache IpAddr) :
    Kept readFeed v (past ++ [event]) { s with verdicts } := by
  refine ⟨kept.size, kept.published, ?_, fun source snapshot found => ?_⟩
  · rw [attempts_quiet quiet]
    exact kept.turn
  · rw [latest,attempts_quiet quiet]
    exact kept.holds source snapshot found

/-- One more answer is the latest good one of the source whose turn it was, if it is good. -/
theorem latest_fetched (n source : Nat) (response : Response) (now : Nat) :
    latest readFeed n source (past ++ [.fetched response now]) =
      match response.listed readFeed with
      | some cidrs => if (attempts past).length % n = source then some (cidrs, now) else latest readFeed n source past
      | none => latest readFeed n source past := by
  have grown : attempts (past ++ [.fetched response now]) = attempts past ++ [(response, now)] := by simp [attempts]
  unfold latest
  rw [grown,good,List.zipIdx_append,List.filterMap_append,List.getLast?_append]
  cases listed : response.listed readFeed with
  | none => simp [listed,good]
  | some cidrs =>
    by_cases turn : (attempts past).length % n = source
    · simp [listed,turn]
    · simp [turn,good]

theorem fetched_kept (kept : Kept readFeed v past s) (response : Response) (now : Nat) :
    Kept readFeed v (past ++ [.fetched response now]) (refresh readFeed v s response now) := by
  have turn : (s.index + 1) % v.urls.length =
      (attempts (past ++ [.fetched response now])).length % v.urls.length := by
    rw [kept.turn,Nat.mod_add_mod]
    simp [attempts]
  have spec := fetch_spec readFeed response now
  cases listed : response.listed readFeed with
  | none =>
    rw [listed] at spec
    have same : refresh readFeed v s response now =
        { s with ranges := s.feeds, index := (s.index + 1) % v.urls.length } := by simp [refresh,spec]
    rw [same]
    refine ⟨kept.size, rfl, turn, fun source snapshot found => ?_⟩
    rw [latest_fetched,listed]
    exact kept.holds source snapshot found
  | some cidrs =>
    rw [listed] at spec
    obtain ⟨ranges, fetched, denotes⟩ := spec
    have changed : refresh readFeed v s response now =
        { s with feeds := s.feeds.set s.index (some ⟨ranges, now⟩), ranges := s.feeds.set s.index (some ⟨ranges, now⟩),
                 index := (s.index + 1) % v.urls.length } := by simp [refresh,fetched]
    rw [changed]
    refine ⟨by simpa using kept.size, rfl, turn, fun source snapshot found => ?_⟩
    rw [latest_fetched,listed,← kept.turn]
    dsimp only at found ⊢
    by_cases here : s.index = source
    · subst here
      rw [if_pos rfl]
      refine ⟨ranges, ?_, denotes⟩
      rw [List.getElem?_set_self'] at found
      obtain ⟨_, _, rfl⟩ := Option.map_eq_some_iff.mp found
      rfl
    · rw [if_neg here]
      rw [List.getElem?_set_ne here] at found
      exact kept.holds source snapshot found

theorem step_kept (kept : Kept readFeed v past s) (step : Step readFeed v s event t) : Kept readFeed v (past ++ [event]) t := by
  cases step with
  | fetched _ => exact fetched_kept kept _ _
  | lookup _ => exact kept.quiet (by intro _ _; simp) _
  | resolved => exact kept.quiet (by intro _ _; simp) _

theorem run_kept {verdicts : VerdictCache IpAddr} (run : Runs.Run (Step readFeed v) (start v verdicts) past s) :
    Kept readFeed v past s :=
  run.history (Kept readFeed v) (start_kept verdicts) fun _ _ _ _ kept step => step_kept kept step

theorem contains_iff {ranges : IpRangeSet} {cidrs : List Cidr} (denotes : ranges.Denotes cidrs) (v : Verifier)
    (ip : IpAddr) (now parsed : Nat) : FeedSnapshot.contains ⟨ranges, parsed⟩ ip now v.maxStale = true ↔
      (now : Int) - parsed < v.maxStale ∧ ∃ c ∈ cidrs, c.Matches ip := by
  have positive := v.positive
  unfold FeedSnapshot.contains FeedSnapshot.fresh FeedSnapshot.age
  rw [Bool.and_eq_true,decide_eq_true_iff,denotes.contains_iff]
  apply and_congr_left'
  dsimp only
  omega

theorem Holds.contains_iff {snapshot : Option FeedSnapshot} {known : Option (List Cidr × Nat)}
    (holds : Holds snapshot known) (v : Verifier) (ip : IpAddr) (now : Nat) :
    snapshot.any (fun feed => feed.contains ip now v.maxStale) = true ↔
      ∃ cidrs parsed, known = some (cidrs, parsed) ∧ (now : Int) - parsed < v.maxStale ∧ ∃ c ∈ cidrs, c.Matches ip := by
  cases known with
  | none =>
    rw [show snapshot = none from holds]
    simp
  | some answer =>
    obtain ⟨cidrs, parsed⟩ := answer
    obtain ⟨ranges, rfl, denotes⟩ := holds
    rw [Option.any_some,Feeds.contains_iff denotes]
    simp

theorem verifiedRange_iff (v : Verifier) (loaded reloaded : List (Option FeedSnapshot)) (verdicts : VerdictCache IpAddr)
    (ip : IpAddr) (now begun : Nat) (queued : Bool) :
    (verifierResult (some v) loaded reloaded verdicts ip now begun queued).1 = (true, .verifiedRange) ↔
      ∃ (source : Nat) (snapshot : Option FeedSnapshot), loaded[source]? = some snapshot ∧
        snapshot.any (fun feed => feed.contains ip now v.maxStale) = true := by
  have listed : (loaded.any fun feed => feed.any fun feed => feed.contains ip now v.maxStale) = true ↔
      ∃ (source : Nat) (snapshot : Option FeedSnapshot), loaded[source]? = some snapshot ∧
        snapshot.any (fun feed => feed.contains ip now v.maxStale) = true := by
    rw [List.any_eq_true]
    constructor
    · rintro ⟨snapshot, member, hit⟩
      obtain ⟨source, found⟩ := List.mem_iff_getElem?.mp member
      exact ⟨source, snapshot, found, hit⟩
    · rintro ⟨source, snapshot, found, hit⟩
      exact ⟨snapshot, List.mem_of_getElem? found, hit⟩
  rw [← listed]
  unfold verifierResult
  dsimp only
  split
  · next hit => simp [hit]
  · next miss =>
    rcases (if v.fcrdnsSuffixes ≠ [] then fcrdnsCached verdicts ip begun queued else (false, verdicts)) with
      ⟨confirmed, cache⟩
    refine iff_of_false ?_ miss
    cases confirmed with
    | true => simp
    | false =>
      dsimp only
      rw [if_neg Bool.false_ne_true]
      split <;> simp

end History

/-- At any time a lookup is verified by range exactly when the most recent good answer of some source is younger
than the maximum age and lists the address; an answer that is not good as a whole changes no published snapshot. -/
theorem feed_freshness (readFeed : Bytes → Option (List FeedPrefix)) (v : Verifier) (verdicts : VerdictCache IpAddr)
    (past : List Event) (s : State) (run : Runs.Run (Step readFeed v) (start v verdicts) past s) :
    (∀ reloaded ip now begun queued,
      (verifierResult (some v) s.ranges reloaded s.verdicts ip now begun queued).1 = (true, .verifiedRange) ↔
        ∃ source < v.urls.length, ∃ cidrs parsed, latest readFeed v.urls.length source past = some (cidrs, parsed) ∧
          (now : Int) - parsed < v.maxStale ∧ ∃ c ∈ cidrs, c.Matches ip) ∧
    ∀ response now t, response.listed readFeed = none → Step readFeed v s (.fetched response now) t →
      t.ranges = s.ranges := by
  have kept := run_kept run
  constructor
  · intro reloaded ip now begun queued
    rw [verifiedRange_iff,kept.published]
    constructor
    · rintro ⟨source, snapshot, found, hit⟩
      have inside : source < s.feeds.length := (List.getElem?_eq_some_iff.mp found).1
      exact ⟨source, kept.size ▸ inside, ((kept.holds source snapshot found).contains_iff v ip now).mp hit⟩
    · rintro ⟨source, inside, listed⟩
      rw [← kept.size] at inside
      have found : s.feeds[source]? = some s.feeds[source] := List.getElem?_eq_getElem inside
      exact ⟨source, _, found, ((kept.holds source _ found).contains_iff v ip now).mpr listed⟩
  · intro response now t bad step
    have spec := fetch_spec readFeed response now
    rw [bad] at spec
    cases step
    simp [refresh,spec,kept.published]

/-- A feed with one prefix, as its provider writes it. -/
def sampleFeed : Bytes := ascii "\x7b\"prefixes\":[\x7b\"ipv4Prefix\":\"192.0.2.0/24\"\x7d]\x7d"

/-- What the JSON reader makes of the sample. -/
def readSample (bytes : Bytes) : Option (List FeedPrefix) :=
  if bytes = sampleFeed then some [⟨some (ascii "192.0.2.0/24"), none⟩] else none

def sampleVerifier : Verifier := ⟨100, [ascii "https://crawler.example/ranges.json"], [], by decide⟩

/-- The feed is read at 1000, fails at 1050 and still verifies an address at 1099. -/
theorem feed_freshness_retained : ∃ s, Runs.Run (Step readSample sampleVerifier) (start sampleVerifier (new 1 1 0))
      [.fetched (.body sampleFeed) 1000, .fetched .failed 1050] s ∧
    ∀ reloaded begun queued,
      (verifierResult (some sampleVerifier) s.ranges reloaded s.verdicts (.v4 0xc0000207) 1099 begun queued).1 =
        (true, .verifiedRange) := by
  have run : Runs.Run (Step readSample sampleVerifier) (start sampleVerifier (new 1 1 0))
      [.fetched (.body sampleFeed) 1000, .fetched .failed 1050] _ :=
    .cons (.fetched (by decide)) (.cons (.fetched (by decide)) .nil)
  refine ⟨_, run, fun reloaded begun queued => ?_⟩
  apply ((feed_freshness readSample sampleVerifier _ _ _ run).1 reloaded (.v4 0xc0000207) 1099 begun queued).mpr
  refine ⟨0, by decide, [⟨.v4 0xc0000200, 24⟩], 1000, by decide +kernel, by decide, _, List.mem_singleton_self _, ?_⟩
  exact (by decide : (0xc0000207 : BitVec 32) >>> 8 = 0xc0000200 >>> 8)

end Feeds

end PowGate
