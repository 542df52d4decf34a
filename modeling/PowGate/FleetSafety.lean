import Mathlib.Data.List.Pairwise
import PowGate.Fleet

/-! The invariant of a fleet, in three parts: the books of its workers, the history of its
requests, and what the primary remembers of the scripts it ran. -/
namespace PowGate.Fleet

open Cluster (Id Config Wire)

section Owners

variable {past more notes : List Event} {issuer : Digest} {rd : Redemption}

theorem owner_some : owner past issuer n = some rd ↔ ∃ before e after, past = before ++ e :: after ∧
    before.length = n ∧ e.visit.bind (·.w.issuer) = some issuer ∧ e.begins = some rd := by
  unfold owner
  constructor
  · intro found
    obtain ⟨e, here, found⟩ := Option.bind_eq_some_iff.mp found
    rw [Option.ite_none_right_eq_some] at found
    obtain ⟨inside, rfl⟩ := List.getElem?_eq_some_iff.mp here
    exact ⟨past.take n, past[n], past.drop (n + 1), by simp, by simp; omega, found⟩
  · rintro ⟨before, e, after, rfl, rfl, handled, begins⟩
    simp [handled,begins]

/-- Later events do not change whose request it was. -/
theorem owner_append (owned : owner past issuer n = some rd) : owner (past ++ more) issuer n = some rd := by
  obtain ⟨before, e, after, rfl, rest⟩ := owner_some.mp owned
  exact owner_some.mpr ⟨before, e, after ++ more, by simp, rest⟩

theorem mem_settlements {notes : List Cluster.Note} : e ∈ settlements past issuer notes ↔
    ∃ job n outcome grant rd, .finished job n outcome grant ∈ notes ∧ owner past issuer n = some rd ∧
      e = .settle rd outcome := by
  unfold settlements
  rw [List.mem_filterMap]
  constructor
  · rintro ⟨note, member, found⟩
    cases note with
    | admitted => cases found
    | completed => cases found
    | finished job n outcome grant =>
      obtain ⟨rd, owned, rfl⟩ := Option.map_eq_some_iff.mp found
      exact ⟨job, n, outcome, grant, rd, member, owned, rfl⟩
  · rintro ⟨job, n, outcome, grant, rd, member, owned, rfl⟩
    exact ⟨_, member, by simp [owned]⟩

/-- There are no more settlements than answers. -/
theorem settlements_length (notes : List Cluster.Note) :
    (settlements past issuer notes).length ≤ notes.countP Cluster.Note.answers := by
  induction notes with
  | nil => exact Nat.zero_le _
  | cons note notes ih =>
    unfold settlements at ih ⊢
    cases note with
    | admitted => simpa [Cluster.Note.answers] using ih
    | completed => simpa [Cluster.Note.answers] using ih
    | finished job n outcome grant =>
      rw [List.countP_cons_of_pos rfl,List.filterMap_cons]
      split
      · omega
      · rw [List.length_cons]
        omega

end Owners

variable {crates : Crates} {configs : Nat → Config} {s t : State} {w : Nat} {id : Id} {next : Cluster.State}

/-- Every worker keeps its books, its connections and its answers in order. -/
structure Books (crates : Crates) (configs : Nat → Config) (s : State) : Prop where
  workers : ∀ w, Cluster.Inv (configs w) (s.workers w)
  dials : ∀ w, Cluster.Dials (configs w) (s.workers w)
  answers : ∀ w, Cluster.Answers crates (configs w) (owner s.past (configs w).issuer) (s.workers w)
  links : ∀ w, Cluster.Links crates (configs w) (owner s.past (configs w).issuer) (s.wires w) (s.workers w)

/-- Requests were sound when they were made, and clients were told only what workers noted. -/
structure History (crates : Crates) (configs : Nat → Config) (s : State) : Prop where
  visits : ∀ before e after v, s.past = before ++ e :: after → e.visit = some v →
    Sound crates before e ∧ Apart crates before v
  settled : ∀ rd outcome, .settle rd outcome ∈ s.past → ∃ w job n grant,
    .finished job n outcome grant ∈ (s.workers w).log ∧ owner s.past (configs w).issuer n = some rd

/-- Two runs that redeemed different tokens. -/
def Different (r r' : Ran) : Prop :=
  ¬ (r.reply = 1 ∧ r'.reply = 1 ∧ r.space = r'.space ∧ r.args.marker = r'.args.marker ∧
    r.args.expires = r'.args.expires)

instance : Std.Symm Different where
  symm _ _ different := by
    rintro ⟨one, one', space, marker, expires⟩
    exact different ⟨one', one, space.symm, marker.symm, expires.symm⟩

/-- The runs of `CONSUME` against the wires and the primary. -/
structure Markers (configs : Nat → Config) (s : State) : Prop where
  clock : ∀ space reading, (s.primary space).clock = some reading → reading ≤ s.time
  sent : ∀ r ∈ s.ran, r.space = (configs r.worker).space ∧
    (s.wires r.worker r.job).output = some (.consume r.args)
  replied : ∀ w id args value, (s.wires w id).output = some (.consume args) →
    (s.wires w id).answer = some (.integer value) →
    ∃ r ∈ s.ran, r.worker = w ∧ r.job = id ∧ r.args = args ∧ r.reply = value
  paid : ∀ r ∈ s.ran, r.reply = 1 → r.stored = some r.args.epoch ∧
    ∃ deadline, (s.primary r.space).spent r.args.marker = some deadline ∧ r.args.expires ≤ deadline
  once : s.ran.Pairwise Different

section Workers

/-- More events. -/
theorem Books.later (books : Books crates configs s) (more : List Event) :
    Books crates configs { s with past := s.past ++ more } :=
  ⟨books.workers, books.dials, fun w => (books.answers w).extend fun _ _ => owner_append,
    fun w => (books.links w).extend fun _ _ => owner_append⟩

/-- One worker has moved on, with its wires. -/
theorem Books.move (books : Books crates configs s) (w : Nat) (next : Cluster.State) (wires : Id → Wire)
    (more : List Event)
    (workers : t.workers = Function.update s.workers w next) (wired : t.wires = Function.update s.wires w wires)
    (past : t.past = s.past ++ more) (inv : Cluster.Inv (configs w) next) (dials : Cluster.Dials (configs w) next)
    (answers : Cluster.Answers crates (configs w) (owner s.past (configs w).issuer) next)
    (links : Cluster.Links crates (configs w) (owner s.past (configs w).issuer) wires next) :
    Books crates configs t := by
  have later := books.later more
  refine ⟨?_, ?_, ?_, ?_⟩
  · rw [workers,Function.forall_update_iff s.workers (p := fun w next => Cluster.Inv (configs w) next)]
    exact ⟨inv, fun other _ => books.workers other⟩
  · rw [workers,Function.forall_update_iff s.workers (p := fun w next => Cluster.Dials (configs w) next)]
    exact ⟨dials, fun other _ => books.dials other⟩
  · rw [workers,past,Function.forall_update_iff s.workers (p := fun w next =>
      Cluster.Answers crates (configs w) (owner (s.past ++ more) (configs w).issuer) next)]
    exact ⟨answers.extend fun _ _ => owner_append, fun other _ => later.answers other⟩
  · intro other
    rw [workers,past,wired]
    by_cases here : other = w
    · subst here
      rw [Function.update_self,Function.update_self]
      exact links.extend fun _ _ => owner_append
    · rw [Function.update_of_ne here,Function.update_of_ne here]
      exact later.links other

/-- Only the wires of one worker have changed. -/
theorem Books.rewire {wires : Id → Wire} (books : Books crates configs s) (workers : t.workers = s.workers)
    (wired : t.wires = Function.update s.wires w wires) (past : t.past = s.past)
    (links : Cluster.Links crates (configs w) (owner s.past (configs w).issuer) wires (s.workers w)) :
    Books crates configs t := by
  apply books.move w (s.workers w) wires [] _ wired _ (books.workers w) (books.dials w) (books.answers w) links
  · rw [workers,Function.update_eq_self]
  · rw [past,List.append_nil]

/-- A request that asks for a redemption is the worker's own. -/
theorem Enters.owner (enters : Enters crates configs s w e v) (begins : e.begins = some rd) :
    owner (s.past ++ [e]) (configs w).issuer s.past.length = some rd := by
  refine owner_some.mpr ⟨s.past, e, [], rfl, rfl, ?_, begins⟩
  obtain ⟨v', visited, bound, _⟩ := begins_visit begins
  obtain rfl := Option.some.inj (enters.visit.symm.trans visited)
  obtain ⟨store, known, _⟩ := Option.bind_eq_some_iff.mp bound
  have issuer := enters.issuer
  rw [known] at issuer
  rw [visited,Option.bind_some,known,issuer]
  unfold Cluster.issuer at issuer ⊢
  split
  · next fenced =>
    rw [if_pos fenced] at issuer
    cases issuer
  · rfl

/-- A worker takes a step for which it has already got the requests. -/
theorem Books.act (books : Books crates configs s) (wires : Id → Wire)
    (taken : Cluster.Step crates (configs w) (s.workers w) action next)
    (asked : ∀ n token expires grant memory clock, action = .redeem n token expires grant memory clock →
      ∃ rd, owner s.past (configs w).issuer n = some rd ∧ token = rd.token ∧ expires = rd.expires ∧
        grant = rd.prepared)
    (workers : t.workers = Function.update s.workers w next) (wired : t.wires = Function.update s.wires w wires)
    (past : t.past = s.past ++ more)
    (links : Cluster.Links crates (configs w) (owner s.past (configs w).issuer) wires next) :
    Books crates configs t :=
  books.move w next wires _ workers wired past (Cluster.step_inv (books.workers w) taken)
    (Cluster.step_dials (books.workers w) (books.dials w) taken)
    (Cluster.step_answers (books.workers w) (books.answers w) asked taken) links

theorem step_books (books : Books crates configs s) (taken : Step crates configs s act t) :
    Books crates configs t := by
  cases taken with
  | visit => exact books.later _
  | @redeem w e v rd memory clock next enters begins taken =>
    have entered := books.later [e]
    refine entered.act (s.wires w) taken ?_ rfl (Function.update_eq_self _ _).symm rfl ?_
    · intro n token expires grant memory clock same
      cases same
      exact ⟨rd, enters.owner begins, rfl, rfl, rfl⟩
    · cases Cluster.step_effect taken with
      | redeem => exact Cluster.redeem_links (entered.links w)
  | @act w action next quiet taken =>
    refine books.act (s.wires w) taken ?_ rfl (Function.update_eq_self _ _).symm rfl
      (Cluster.quiet_links (books.links w) quiet taken)
    rintro n token expires grant memory clock rfl
    cases quiet
  | @dial w rest job next id top alive taken =>
    refine books.act _ taken nofun rfl rfl rfl ?_
    exact Cluster.dial_links (books.workers w) (books.answers w) (books.dials w) (books.links w) top alive taken
  | @hear w count clock next id some_ taken =>
    refine books.act _ taken nofun rfl rfl rfl ?_
    exact Cluster.hear_links (books.workers w) (books.answers w) (books.links w) some_ taken
  | @run w args reply primary id sent waiting evaluated =>
    refine books.rewire rfl rfl rfl (Cluster.answer_links (books.links w) _ waiting (by simp [sent]) ?_)
    rintro value same
    cases same
    have range := Redis.consume_reply Redis.unrounded (s.primary (configs w).space) args s.time
    rwa [evaluated] at range
  | @check w epoch id sent waiting =>
    refine books.rewire rfl rfl rfl (Cluster.answer_links (books.links w) _ waiting (by simp [sent]) ?_)
    rintro value same
    cases same
    exact Redis.health_reply _ _
  | @reject w welcomed rest id sent waiting =>
    refine books.rewire rfl rfl rfl (Cluster.answer_links (books.links w) _ waiting sent ?_)
    rintro value same
    cases same
  | provision => exact ⟨books.workers, books.dials, books.answers, books.links⟩
  | tick => exact ⟨books.workers, books.dials, books.answers, books.links⟩
  | linger => exact ⟨books.workers, books.dials, books.answers, books.links⟩

end Workers

section Requests

variable {past more : List Event}

/-- An event of a longer history is an old one or a new one. -/
theorem append_split {before after : List Event} {e : Event} (split : past ++ more = before ++ e :: after) :
    (∃ rest, past = before ++ e :: rest) ∨ e ∈ more := by
  rcases List.append_eq_append_iff.mp split with ⟨front, rfl, tail⟩ | ⟨rest, shape, tail⟩
  · exact .inr (by rw [tail]; simp)
  · cases rest with
    | nil => exact .inr (by simpa using congrArg (e ∈ ·) tail)
    | cons x rest =>
      obtain ⟨rfl, _⟩ := List.cons.inj tail
      exact .inl ⟨rest, shape⟩

theorem log_mono (taken : Cluster.Step crates (configs w) (s.workers w) action next) (other : Nat)
    (member : note ∈ (s.workers other).log) : note ∈ (Function.update s.workers w next other).log := by
  by_cases here : other = w
  · subst here
    obtain ⟨more, log, _⟩ := Cluster.step_grown taken
    rw [Function.update_self,log]
    exact List.mem_append_left _ member
  · rwa [Function.update_of_ne here]

theorem History.visit (history : History crates configs s) (enters : Enters crates configs s w e v) :
    History crates configs { s with past := s.past ++ [e] } := by
  refine ⟨?_, ?_⟩
  · intro before e' after v' split visited
    rcases snoc_split split with ⟨_, rfl, rfl⟩ | ⟨rest, _, old⟩
    · obtain rfl := Option.some.inj (enters.visit.symm.trans visited)
      exact ⟨enters.sound, enters.apart⟩
    · exact history.visits before e' rest v' old visited
  · intro rd outcome member
    rcases List.mem_append.mp member with old | new
    · obtain ⟨w, job, n, grant, noted, owned⟩ := history.settled rd outcome old
      exact ⟨w, job, n, grant, noted, owner_append owned⟩
    · have visited := enters.visit
      rw [← List.mem_singleton.mp new] at visited
      cases visited

theorem History.advance (history : History crates configs s)
    (taken : Cluster.Step crates (configs w) (s.workers w) action next) :
    History crates configs (s.advance configs w next) := by
  have unseen : ∀ {e notes}, e ∈ settlements s.past (configs w).issuer notes → e.visit = none := by
    intro e notes member
    obtain ⟨job, n, outcome, grant, rd, _, _, rfl⟩ := mem_settlements.mp member
    rfl
  refine ⟨?_, ?_⟩
  · intro before e after v split visited
    rcases append_split split with ⟨rest, old⟩ | new
    · exact history.visits before e rest v old visited
    · rw [unseen new] at visited
      cases visited
  · intro rd outcome member
    rcases List.mem_append.mp member with old | new
    · obtain ⟨w', job, n, grant, noted, owned⟩ := history.settled rd outcome old
      exact ⟨w', job, n, grant, log_mono taken w' noted, owner_append owned⟩
    · obtain ⟨job, n, outcome', grant, rd', noted, owned, same⟩ := mem_settlements.mp new
      cases same
      refine ⟨w, job, n, grant, ?_, owner_append owned⟩
      have : (s.advance configs w next).workers w = next := Function.update_self _ _ _
      rw [this]
      exact List.mem_of_mem_drop noted

theorem step_history (history : History crates configs s) (taken : Step crates configs s act t) :
    History crates configs t := by
  cases taken with
  | visit enters => exact history.visit enters
  | redeem enters _ taken =>
    have entered := history.visit enters
    exact entered.advance taken
  | act _ taken => exact history.advance taken
  | dial _ _ taken =>
    have advanced := history.advance taken
    exact ⟨advanced.visits, advanced.settled⟩
  | hear _ taken =>
    have advanced := history.advance taken
    exact ⟨advanced.visits, advanced.settled⟩
  | run => exact ⟨history.visits, history.settled⟩
  | check => exact ⟨history.visits, history.settled⟩
  | reject => exact ⟨history.visits, history.settled⟩
  | provision => exact ⟨history.visits, history.settled⟩
  | tick => exact ⟨history.visits, history.settled⟩
  | linger => exact ⟨history.visits, history.settled⟩

/-- Released contexts are context messages, as for a single server. -/
theorem History.entered (history : History crates configs s) : Entered crates s.past := by
  refine ⟨history.visits, ?_⟩
  intro rd member
  obtain ⟨_, _, _, _, _, owned⟩ := history.settled rd .accepted member
  obtain ⟨_, e, _, _, _, _, begins⟩ := owner_some.mp owned
  exact begins_message begins

end Requests

section Scripts

variable {wire : Wire} {primary : Redis.Primary}

theorem setWire_self (s : State) (w : Nat) (id : Id) (wire : Wire) : (s.setWire w id wire).wires w id = wire := by
  simp [State.setWire]

theorem setWire_other (s : State) (wire : Wire) (apart : ¬ (w' = w ∧ id' = id)) :
    (s.setWire w id wire).wires w' id' = s.wires w' id' := by
  by_cases here : w' = w
  · subst here
    have : id' ≠ id := fun same => apart ⟨rfl, same⟩
    simp [State.setWire,this]
  · simp [State.setWire,here]

theorem setPrimary_self (s : State) (space : Bytes) (primary : Redis.Primary) :
    (s.setPrimary space primary).primary space = primary := by
  simp [State.setPrimary]

/-- One wire changes, and no script is sent on it again. -/
theorem Markers.rewire (markers : Markers configs s) (w : Nat) (id : Id) (wire : Wire)
    (kept : (s.wires w id).output = none ∨ wire.output = (s.wires w id).output)
    (answered : ∀ args value, wire.output = some (.consume args) → wire.answer = some (.integer value) →
      ∃ r ∈ s.ran, r.worker = w ∧ r.job = id ∧ r.args = args ∧ r.reply = value) :
    Markers configs (s.setWire w id wire) := by
  refine ⟨markers.clock, ?_, ?_, markers.paid, markers.once⟩
  · intro r member
    obtain ⟨space, sent⟩ := markers.sent r member
    refine ⟨space, ?_⟩
    by_cases here : r.worker = w ∧ r.job = id
    · obtain ⟨rfl, rfl⟩ := here
      rw [setWire_self]
      rcases kept with none | same
      · rw [sent] at none
        cases none
      · rw [same,sent]
    · rw [setWire_other s _ here]
      exact sent
  · intro w' id' args value output answer
    by_cases here : w' = w ∧ id' = id
    · obtain ⟨rfl, rfl⟩ := here
      rw [setWire_self] at output answer
      exact answered args value output answer
    · rw [setWire_other s _ here] at output answer
      exact markers.replied w' id' args value output answer

/-- The primary changes in one namespace, and its markers only last longer. -/
theorem Markers.store (markers : Markers configs s)
    (clock : ∀ reading, primary.clock = some reading → reading ≤ s.time)
    (grown : ∀ marker deadline, (s.primary space).spent marker = some deadline →
      ∃ later, primary.spent marker = some later ∧ deadline ≤ later) :
    Markers configs (s.setPrimary space primary) := by
  have here := setPrimary_self s space primary
  have other : ∀ {space'}, space' ≠ space → (s.setPrimary space primary).primary space' = s.primary space' :=
    fun apart => Function.update_of_ne apart _ _
  refine ⟨?_, markers.sent, markers.replied, ?_, markers.once⟩
  · intro space' reading found
    by_cases same : space' = space
    · subst same
      rw [here] at found
      exact clock reading found
    · rw [other same] at found
      exact markers.clock space' reading found
  · intro r member one
    obtain ⟨stored, deadline, marked, covers⟩ := markers.paid r member one
    refine ⟨stored, ?_⟩
    by_cases same : r.space = space
    · subst same
      obtain ⟨later, marked', longer⟩ := grown _ _ marked
      exact ⟨later, by rw [here]; exact marked', Int.le_trans covers longer⟩
    · exact ⟨deadline, by rw [other same]; exact marked, covers⟩

/-- `clock_skew` is positive in whatever a worker sends. -/
theorem Books.skew (books : Books crates configs s) (sent : (s.wires w id).output = some (.consume args)) :
    0 ≤ args.skew := by
  obtain ⟨n, rd, clock, _, _, rfl⟩ := (books.links w id).sent args sent
  have low := Int64.le_iff_toInt_le.mp (configs w).skew_range.1
  have one : Int64.toInt 1 = 1 := by decide
  simp only [Cluster.consumeArgs]
  omega

/-- A run of `CONSUME` is the first to redeem its token, or redeems nothing. -/
theorem run_markers (books : Books crates configs s) (markers : Markers configs s)
    (sent : (s.wires w id).output = some (.consume args)) (waiting : (s.wires w id).answer = none)
    (evaluated : Redis.consume Redis.unrounded (s.primary (configs w).space) args s.time = (reply, primary)) :
    Markers configs { ((s.setPrimary (configs w).space primary).setWire w id
        { s.wires w id with answer := some (.integer reply) }) with
      ran := s.ran ++ [⟨w, id, (configs w).space, args, (s.primary (configs w).space).epoch, reply⟩] } := by
  have positive := books.skew sent
  have behind := markers.clock (configs w).space
  have ticked := Redis.consume_clock args behind
  have grown : ∀ marker deadline, (s.primary (configs w).space).spent marker = some deadline →
      ∃ later, primary.spent marker = some later ∧ deadline ≤ later := by
    intro marker deadline marked
    have kept := Redis.consume_marker Redis.unrounded s.time positive marked
    rwa [evaluated] at kept
  have redeemed : reply = 1 → (s.primary (configs w).space).epoch = some args.epoch ∧
      (∀ deadline, (s.primary (configs w).space).spent args.marker = some deadline → deadline < args.expires) ∧
      ∃ deadline, primary.spent args.marker = some deadline ∧ args.expires ≤ deadline := by
    intro one
    have facts := Redis.consume_one positive behind (by rw [evaluated]; exact one)
    rwa [evaluated] at facts
  rw [evaluated] at ticked
  have stored := markers.store ticked grown
  have here := setPrimary_self s (configs w).space primary
  refine ⟨stored.clock, ?_, ?_, ?_, ?_⟩
  · intro r member
    rcases List.mem_append.mp member with old | new
    · refine ⟨(markers.sent r old).1, ?_⟩
      by_cases same : r.worker = w ∧ r.job = id
      · obtain ⟨rfl, rfl⟩ := same
        exact (congrArg Wire.output (setWire_self _ _ _ _)).trans (markers.sent r old).2
      · exact (congrArg Wire.output (setWire_other _ _ same)).trans (markers.sent r old).2
    · rw [List.mem_singleton.mp new]
      exact ⟨rfl, (congrArg Wire.output (setWire_self _ _ _ _)).trans sent⟩
  · intro w' id' args' value output answer
    by_cases same : w' = w ∧ id' = id
    · obtain ⟨rfl, rfl⟩ := same
      have wired := setWire_self (s.setPrimary (configs w').space primary) w' id'
        { s.wires w' id' with answer := some (.integer reply) }
      have output' := (congrArg Wire.output wired).symm.trans output
      have answer' := (congrArg Wire.answer wired).symm.trans answer
      refine ⟨_, List.mem_append_right _ (List.mem_singleton_self _), rfl, rfl, ?_, ?_⟩
      · exact Cluster.Script.consume.inj (Option.some.inj (sent.symm.trans output'))
      · exact Cluster.Answer.integer.inj (Option.some.inj answer')
    · have wired := setWire_other (s.setPrimary (configs w).space primary)
        { s.wires w id with answer := some (.integer reply) } same
      obtain ⟨r, member, rest⟩ := markers.replied w' id' args' value ((congrArg Wire.output wired).symm.trans output)
        ((congrArg Wire.answer wired).symm.trans answer)
      exact ⟨r, List.mem_append_left _ member, rest⟩
  · intro r member one
    rcases List.mem_append.mp member with old | new
    · exact stored.paid r old one
    · rw [List.mem_singleton.mp new] at one ⊢
      obtain ⟨epoch, _, deadline, marked, covers⟩ := redeemed one
      exact ⟨epoch, deadline, (congrArg (Redis.Primary.spent · args.marker) here).trans marked, covers⟩
  · refine List.pairwise_append.mpr ⟨markers.once, List.pairwise_singleton _ _, ?_⟩
    intro r old r' new
    rw [List.mem_singleton.mp new]
    rintro ⟨one, one', space, marker, expires⟩
    simp only at one' space marker expires
    obtain ⟨_, deadline, marked, covers⟩ := markers.paid r old one
    rw [space,marker] at marked
    have early := (redeemed one').2.1 deadline marked
    omega

theorem step_markers (books : Books crates configs s) (markers : Markers configs s)
    (taken : Step crates configs s act t) : Markers configs t := by
  cases taken with
  | visit => exact ⟨markers.clock, markers.sent, markers.replied, markers.paid, markers.once⟩
  | redeem => exact ⟨markers.clock, markers.sent, markers.replied, markers.paid, markers.once⟩
  | act => exact ⟨markers.clock, markers.sent, markers.replied, markers.paid, markers.once⟩
  | @dial w rest job next id top alive taken =>
    obtain ⟨_, old, known, unconnected⟩ := (books.dials w).dialing id rest top
    have closed := (books.links w id).unopened old known unconnected
    have rewired := markers.rewire w id ⟨some job.output, none, 0⟩
      (.inl (by rw [closed]; rfl)) nofun
    exact ⟨rewired.clock, rewired.sent, rewired.replied, rewired.paid, rewired.once⟩
  | @hear w count clock next id =>
    have rewired := markers.rewire w id ((s.wires w id).hear count) (.inr rfl)
      (markers.replied w id)
    exact ⟨rewired.clock, rewired.sent, rewired.replied, rewired.paid, rewired.once⟩
  | run sent waiting evaluated => exact run_markers books markers sent waiting evaluated
  | check sent =>
    refine markers.rewire _ _ _ (.inr rfl) ?_
    intro args value output
    rw [sent] at output
    cases output
  | reject =>
    refine markers.rewire _ _ _ (.inr rfl) ?_
    intro args value _ answer
    cases answer
  | @provision space expected fresh =>
    rcases Redis.provision_cases (s.primary space) expected fresh s.time with same | renewed
    · rw [same]
      exact markers.store (markers.clock space) fun _ deadline marked => ⟨deadline, marked, Int.le_refl _⟩
    · rw [renewed]
      refine markers.store ?_ fun _ deadline marked => ⟨deadline, marked, Int.le_refl _⟩
      intro reading now
      rw [Option.some.inj now]
  | tick later =>
    refine ⟨?_, markers.sent, markers.replied, markers.paid, markers.once⟩
    intro space reading found
    exact Int.le_trans (markers.clock space reading found) later
  | @linger space marker deadline deadline' marked later =>
    refine markers.store (markers.clock space) ?_
    intro marker' old marked'
    by_cases here : marker' = marker
    · subst here
      obtain rfl := Option.some.inj (marked.symm.trans marked')
      exact ⟨deadline', Function.update_self _ _ _, later⟩
    · exact ⟨old, (Function.update_of_ne here _ _).trans marked', Int.le_refl _⟩

end Scripts

end PowGate.Fleet
