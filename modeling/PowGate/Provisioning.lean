import PowGate.Blocks
import PowGate.Rotation

/-! From the operator's tool to a healthy worker. `redis-epoch.py` writes the epoch it has provisioned
to a file, a `pow_gate_redis` block names that file, and the workers configured by it stay in agreement
with Redis until the epoch is rotated away. -/
namespace PowGate.Provisioning

open Text Blocks

def isLowerHex (c : UInt8) : Bool := isDigit c || (97 ≤ c && c ≤ 102)

def validEpoch (epoch : Bytes) : Bool := epoch.length = 64 && epoch.all isLowerHex

def validNamespace (space : Bytes) : Bool := 1 ≤ space.length && space.length ≤ 64 && space.all isNameByte

/-- `main` of `redis-epoch.py`: what it writes to its output, and the primary it leaves. An empty
`--rotate` is none; `policy` is the check of `maxmemory` and of the eviction policy. -/
def main (space rotate : Bytes) (policy : Bool) (primary : Redis.Primary) (fresh : Bytes) (time : Int) :
    Option Bytes × Redis.Primary :=
  if !validNamespace space then (none, primary)
  else if rotate ≠ [] && !validEpoch rotate then (none, primary)
  else if !policy then (none, primary)
  else
    let (epoch, primary) := Redis.provision primary (if rotate = [] then none else some rotate) fresh time
    match epoch with
    | some epoch => if validEpoch epoch then (some (epoch ++ [10]), primary) else (none, primary)
    | none => (none, primary)

section Files

variable {space rotate fresh epoch file : Bytes} {policy : Bool} {primary primary' : Redis.Primary} {time : Int}

theorem dropSpaceEnd_newline {s : Bytes} (visible : Visible s) : dropSpaceEnd (10 :: s) = some s := by
  cases s with
  | nil => rfl
  | cons d rest =>
    obtain ⟨low, high⟩ := visible d List.mem_cons_self
    unfold dropSpaceEnd
    split <;> grind

/-- The newline after a text is trimmed. -/
theorem trim_newline {s : Bytes} (visible : Visible s) (some_ : s ≠ []) : trim (s ++ [10]) = s := by
  have front : dropSpace (s ++ [10]) = none := by
    obtain ⟨c, rest, rfl⟩ := List.exists_cons_of_ne_nil some_
    obtain ⟨low, high⟩ := visible c List.mem_cons_self
    unfold dropSpace
    split <;> grind
  have backwards : Visible s.reverse := fun c member => visible c (List.mem_reverse.mp member)
  simp only [trim, dropWhileSome_none front, List.reverse_append, List.reverse_singleton, List.singleton_append]
  rw [List.length_append, List.length_singleton, dropWhileSome, dropSpaceEnd_newline backwards]
  simp only [dropWhileSome_none (dropSpaceEnd_visible backwards), List.reverse_reverse]

theorem validEpoch_iff : validEpoch epoch = true ↔ epoch.length = 64 ∧ ∀ c ∈ epoch, isLowerHex c = true := by
  simp [validEpoch]

/-- The module reads back the epoch that the tool has written. -/
theorem readEpoch_written {files : Files} (valid : validEpoch epoch = true)
    (written : files.readToString path = some (epoch ++ [10])) : readEpoch files path = some epoch := by
  obtain ⟨length, hex⟩ := validEpoch_iff.mp valid
  have each (c : UInt8) (digit : isLowerHex c = true) : (33 ≤ c ∧ c < 128) ∧ lowerByte c = c ∧ isHexDigit c = true := by
    simp only [isLowerHex, isDigit, isHexDigit, lowerByte] at digit ⊢
    grind
  have visible : Visible epoch := fun c member => (each c (hex c member)).1
  have some_ : epoch ≠ [] := by
    rintro rfl
    cases length
  have lowered : lower epoch = epoch := (List.map_congr_left fun c member => (each c (hex c member)).2.1).trans (List.map_id epoch)
  unfold readEpoch
  rw [written, Option.bind_eq_bind, Option.bind_some, trim_newline visible some_, lowered]
  exact if_pos ⟨length, List.all_eq_true.mpr fun c member => (each c (hex c member)).2.2⟩

/-- What a successful run of the tool has done. -/
structure Done (space file : Bytes) (before after : Redis.Primary) (time : Int) : Prop where
  space : validNamespace space = true
  epoch : ∃ epoch, file = epoch ++ [10] ∧ validEpoch epoch = true ∧ after.epoch = some epoch
  clock : after.clock.isSome = true
  script : ∃ expected fresh, after = (Redis.provision before expected fresh time).2

theorem provision_some (done : Redis.provision primary expected fresh time = (some epoch, primary')) :
    primary'.epoch = some epoch ∧ primary'.clock.isSome = true := by
  unfold Redis.provision at done
  split at done
  · next stored =>
    split at done
    · cases done
    · next ticking =>
      cases done
      exact ⟨stored, by simpa [Option.isSome_iff_ne_none] using ticking⟩
  · cases done
    exact ⟨rfl, rfl⟩
  · split at done
    · cases done
    · cases done
      exact ⟨rfl, rfl⟩

theorem main_done (wrote : main space rotate policy primary fresh time = (some file, primary')) :
    Done space file primary primary' time := by
  unfold main at wrote
  split at wrote
  · cases wrote
  next space_ =>
  split at wrote
  · cases wrote
  split at wrote
  · cases wrote
  generalize provisioned : Redis.provision primary _ fresh time = result at wrote
  obtain ⟨epoch, stored⟩ := result
  cases epoch with
  | none => cases wrote
  | some epoch =>
    simp only at wrote
    split at wrote
    · next valid =>
      cases wrote
      obtain ⟨same, clock⟩ := provision_some provisioned
      exact ⟨by simpa using space_, ⟨epoch, rfl, valid, same⟩, clock, _, _, by rw [provisioned]⟩
    · cases wrote

/-- The configuration of an accepted block has the namespace and the epoch it names, and their digest. -/
theorem configure_agrees {crates : Crates} {files : Files} {lines : List (List Bytes)} {setting : Setting}
    (accepted : configure crates files none lines = some setting) (named : given lines (ascii "namespace") = some space)
    (located : given lines (ascii "epoch_file") = some path) (read : readEpoch files path = some epoch) :
    setting.config.space = space ∧ setting.config.epoch = epoch ∧
      setting.config.issuer = crates.sha256 setting.config.identity := by
  rw [configure_eq] at accepted
  split at accepted
  · simp only [meaning, named, located, read, Option.bind_eq_bind, Option.bind_some, Option.bind_eq_some_iff] at accepted
    obtain ⟨_, _, _, _, _, _, _, _, _, _, _, _, accepted⟩ := accepted
    split at accepted
    · cases accepted
      exact ⟨rfl, rfl, rfl⟩
    · cases accepted
  · cases accepted

/-- A block with nothing but what is required. -/
def plainBlock (address space path : Bytes) : List (List Bytes) :=
  [[ascii "address", address], [ascii "namespace", space], [ascii "epoch_file", path]]

theorem plainBlock_accepted (crates : Crates) {files : Files} (space_ : validNamespace space = true)
    (read : readEpoch files path = some epoch) (parsed : (SocketAddr.parse address).isSome = true) :
    (configure crates files none (plainBlock address space path)).isSome = true := by
  have formed : WellFormed (plainBlock address space path) := by
    refine ⟨?_, ?_, ?_⟩
    · simp [plainBlock]
    · simp +decide [plainBlock, nameOf]
    · simp +decide [plainBlock, nameOf]
  obtain ⟨socket, parsed⟩ := Option.isSome_iff_exists.mp parsed
  have plain : Valid space [] [] 500 4 64 5 := by
    simp only [validNamespace, Bool.and_eq_true, decide_eq_true_eq] at space_
    refine ⟨⟨?_, space_.1.2, space_.2⟩, by simp, by decide⟩
    rintro rfl
    exact absurd space_.1.1 (by decide)
  rw [configure_eq, if_pos formed]
  simp +decide [meaning, given, plainBlock, nameOf, valueOf, parsed, read, readPassword, number, plain]

end Files

end PowGate.Provisioning

namespace PowGate.Redis

variable {primary : Primary} {args : Args} {epoch : Bytes}

theorem consume_ticking (stored : Int → Int) (args : Args) (time : Int) (ticking : primary.clock.isSome = true) :
    (consume stored primary args time).2.clock.isSome = true := by
  rcases consume_cases stored primary args time with ⟨_, _, same⟩ | ⟨_, _, _, _, _, ⟨_, same⟩ | ⟨_, same⟩⟩
  all_goals rw [same]
  · exact ticking
  · exact Primary.advance_ticking ticking
  · exact Primary.advance_ticking ticking

/-- Under the epoch in force no script is fenced. -/
theorem consume_current (stored : Int → Int) (time : Int) (current : primary.epoch = some args.epoch) (ticking : primary.clock.isSome = true) :
    (consume stored primary args time).1 ≠ -2 := by
  obtain ⟨previous, clock⟩ := Option.isSome_iff_exists.mp ticking
  unfold consume
  rw [if_neg (not_not_intro current), clock]
  simp only
  repeat' split
  all_goals simp

theorem provision_current (fresh : Bytes) (time : Int) (current : primary.epoch = some epoch)
    (other : expected ≠ some epoch) : (provision primary expected fresh time).2 = primary := by
  unfold provision
  cases expected with
  | none =>
    rw [current]
    simp only
    split <;> rfl
  | some asked =>
    simp only [current]
    rw [if_pos fun same => other same.symm]

end PowGate.Redis

namespace PowGate.Fleet

open Cluster (Id Config Wire)

/-- Since `mid`, the epoch has been in force in the namespace. -/
structure Current (configs : Nat → Config) (space epoch : Bytes) (mid s : State) : Prop where
  stored : (s.primary space).epoch = some epoch
  ticking : (s.primary space).clock.isSome = true
  ran : ∃ later, s.ran = mid.ran ++ later ∧
    ∀ r ∈ later, (configs r.worker).space = space → (configs r.worker).epoch = epoch → r.reply ≠ -2

section Steps

variable {crates : Crates} {configs : Nat → Config} {s t mid : State} {w : Nat} {id : Id} {space epoch : Bytes}

theorem Current.store (current : Current configs space epoch mid s) (space' : Bytes) (primary : Redis.Primary)
    (kept : space' = space → primary.epoch = some epoch ∧ primary.clock.isSome = true) :
    Current configs space epoch mid (s.setPrimary space' primary) := by
  by_cases here : space' = space
  · subst here
    refine ⟨?_, ?_, current.ran⟩
    · rw [setPrimary_self]
      exact (kept rfl).1
    · rw [setPrimary_self]
      exact (kept rfl).2
  · refine ⟨?_, ?_, current.ran⟩
    · rw [setPrimary_other s primary here]
      exact current.stored
    · rw [setPrimary_other s primary here]
      exact current.ticking

theorem run_current (books : Books crates configs s) (current : Current configs space epoch mid s)
    (sent : (s.wires w id).output = some (.consume args))
    (evaluated : Redis.consume Redis.unrounded (s.primary (configs w).space) args s.time = (reply, primary)) :
    Current configs space epoch mid { ((s.setPrimary (configs w).space primary).setWire w id
        { s.wires w id with answer := some (.integer reply) }) with
      ran := s.ran ++ [⟨w, id, (configs w).space, args, (s.primary (configs w).space).epoch, reply⟩] } := by
  have saved := current.store (configs w).space primary (by
    rintro rfl
    have same := Redis.consume_epoch Redis.unrounded (s.primary (configs w).space) args s.time
    have ticking := Redis.consume_ticking Redis.unrounded args s.time current.ticking
    rw [evaluated] at same ticking
    exact ⟨same.trans current.stored, ticking⟩)
  refine ⟨saved.stored, saved.ticking, ran_snoc current.ran ?_⟩
  rintro rfl rfl
  obtain ⟨n, rd, clock, _, _, rfl⟩ := (books.links w id).sent args sent
  have fine : (Redis.consume Redis.unrounded (s.primary (configs w).space) (Cluster.consumeArgs crates (configs w) rd clock) s.time).1 ≠ -2 :=
    Redis.consume_current Redis.unrounded s.time current.stored current.ticking
  rwa [evaluated] at fine

theorem step_current (books : Books crates configs s) (current : Current configs space epoch mid s)
    (unrotated : ∀ fresh, act ≠ .provision space (some epoch) fresh) (taken : Step crates configs s act t) :
    Current configs space epoch mid t := by
  cases taken with
  | run sent _ evaluated => exact run_current books current sent evaluated
  | @provision space' expected fresh =>
    apply current.store
    rintro rfl
    rw [Redis.provision_current fresh s.time current.stored fun same => unrotated fresh (by rw [same])]
    exact ⟨current.stored, current.ticking⟩
  | linger =>
    apply current.store
    rintro rfl
    exact ⟨current.stored, current.ticking⟩
  | visit | redeem | act | dial | hear | check | reject | tick => exact ⟨current.stored, current.ticking, current.ran⟩

end Steps

end PowGate.Fleet

namespace PowGate.Provisioning

open Text Blocks

/-- Once the tool has written its file, a block of an address, the namespace and this file is accepted
if only the address can be read, and every configuration with that namespace and file agrees with Redis: in each run of the fleet
that follows and does not rotate the epoch away, its health check succeeds and none of its scripts is
fenced. -/
theorem provisioned_until_rotated (crates : Crates) (configs : Nat → Cluster.Config) (files : Files)
    (msec : Nat → UInt64) (time : Int) (before after : List Fleet.Act) (mid final : Fleet.State)
    (reached : Runs.Run (Fleet.Step crates configs) (Fleet.start msec time) before mid)
    (space rotate fresh file path : Bytes) (policy : Bool) (primary : Redis.Primary)
    (wrote : main space rotate policy (mid.primary space) fresh mid.time = (some file, primary))
    (saved : files.readToString path = some file)
    (run : Runs.Run (Fleet.Step crates configs) (mid.setPrimary space primary) after final) :
    (∀ address, (SocketAddr.parse address).isSome = true →
      (configure crates files none (plainBlock address space path)).isSome = true) ∧
    ∀ lines setting, configure crates files none lines = some setting →
      given lines (ascii "namespace") = some space → given lines (ascii "epoch_file") = some path →
      (∀ successor, .provision space (some setting.config.epoch) successor ∉ after) →
        Redis.health (final.primary setting.config.space) setting.config.epoch = 1 ∧
        ∀ r ∈ final.ran.drop mid.ran.length, configs r.worker = setting.config → r.reply ≠ -2 := by
  obtain ⟨space_, ⟨epoch, rfl, valid, stored⟩, ticking, expected, drawn, rfl⟩ := main_done wrote
  have read : readEpoch files path = some epoch := readEpoch_written valid saved
  refine ⟨fun address parsed => plainBlock_accepted crates space_ read parsed, ?_⟩
  intro lines setting accepted named located unrotated
  obtain ⟨same_space, same_epoch, -⟩ := configure_agrees accepted named located read
  have inv : Fleet.Inv crates configs mid := reached.invariant (Fleet.Inv crates configs)
    (fun _ _ _ inv taken => Fleet.step_inv inv taken) (Fleet.start_inv msec time)
  have provisioned : Fleet.Inv crates configs
      (mid.setPrimary space (Redis.provision (mid.primary space) expected drawn mid.time).2) := Fleet.step_inv inv .provision
  have initial : Fleet.Current configs space epoch mid
      (mid.setPrimary space (Redis.provision (mid.primary space) expected drawn mid.time).2) := by
    refine ⟨?_, ?_, [], (List.append_nil _).symm, nofun⟩
    · rw [Fleet.setPrimary_self]
      exact stored
    · rw [Fleet.setPrimary_self]
      exact ticking
  obtain ⟨-, current⟩ : Fleet.Inv crates configs final ∧ Fleet.Current configs space epoch mid final := by
    refine run.invariant_of (fun s => Fleet.Inv crates configs s ∧ Fleet.Current configs space epoch mid s)
      (fun act => ∀ successor, act ≠ .provision space (some epoch) successor) ?_ ?_ ⟨provisioned, initial⟩
    · rintro s act t ⟨inv, current⟩ other taken
      exact ⟨Fleet.step_inv inv taken, Fleet.step_current inv.books current other taken⟩
    · rintro act member successor rfl
      rw [← same_epoch] at member
      exact unrotated successor member
  refine ⟨?_, ?_⟩
  · obtain ⟨reading, clock⟩ := Option.isSome_iff_exists.mp current.ticking
    rw [same_space, same_epoch]
    simp [Redis.health, current.stored, clock]
  · obtain ⟨later, split, all⟩ := current.ran
    intro r member here
    rw [split, List.drop_left] at member
    exact all r member (here ▸ same_space) (here ▸ same_epoch)

/-- The files of a machine with one file. -/
def oneFile (path content : Bytes) : Files where
  read asked := if asked = path then some content else none
  readToString asked := if asked = path then some content else none

/-- A block that configures the reference deployment. -/
def siteBlock : List (List Bytes) :=
  plainBlock (ascii "127.0.0.1:6379") (ascii "pow") (ascii "/e") ++ [[ascii "connections", ascii "1"], [ascii "queue", ascii "1"]]

def siteFiles : Files := oneFile (ascii "/e") (List.replicate 64 102 ++ [10])

theorem siteBlock_accepted : ∃ setting, configure Reference.crates siteFiles none siteBlock = some setting ∧
    setting.config = Reference.site := by
  have fields : (configure Reference.crates siteFiles none siteBlock).map (fun setting =>
      (setting.config.auth, setting.config.connections, setting.config.queue, setting.config.skew)) = some (false, 1, 1, 5) := by
    decide +kernel
  obtain ⟨setting, accepted, fields⟩ := Option.map_eq_some_iff.mp fields
  simp only [Prod.mk.injEq] at fields
  obtain ⟨auth, connections, queue, skew⟩ := fields
  obtain ⟨space, epoch, issuer⟩ := configure_agrees accepted rfl rfl (readEpoch_written (by decide) rfl)
  refine ⟨setting, accepted, Cluster.Config.ext space epoch ?_ auth connections queue skew⟩
  rw [issuer, Reference.site, Reference.named_issuer, Cluster.Config.identity, space, epoch]
  rfl

/-- A namespace is provisioned, the block is accepted, and a client gets its clearance. -/
theorem provisioned_until_rotated_first : ∃ setting acts final,
    configure Reference.crates siteFiles none siteBlock = some setting ∧
    Runs.Run (Fleet.Step Reference.crates fun _ => setting.config) (Fleet.start (fun _ => 5000) 1010)
      (.provision (ascii "pow") none (List.replicate 64 102) :: acts) final ∧
    Redis.health (final.primary setting.config.space) setting.config.epoch = 1 ∧
    (∃ r ∈ final.ran, r.reply = 1) ∧ ∀ r ∈ final.ran, r.reply ≠ -2 := by
  obtain ⟨setting, accepted, same⟩ := siteBlock_accepted
  obtain ⟨acts, final, run, settled, undrawn⟩ := Fleet.site_cleared
  let mid := Fleet.start (fun _ => 5000) 1010
  let primary : Redis.Primary := ⟨some (List.replicate 64 102), some 1010, fun _ => none⟩
  have wrote : main (ascii "pow") [] true (mid.primary (ascii "pow")) (List.replicate 64 102) mid.time =
      (some (List.replicate 64 102 ++ [10]), primary) := rfl
  have rest : Runs.Run (Fleet.Step Reference.crates fun _ => setting.config) (mid.setPrimary (ascii "pow") primary) acts final := by
    rw [same]
    exact run
  obtain ⟨healthy, current⟩ := (provisioned_until_rotated Reference.crates (fun _ => setting.config) siteFiles
    (fun _ => 5000) 1010 [] acts mid final .nil (ascii "pow") [] (List.replicate 64 102) (List.replicate 64 102 ++ [10])
    (ascii "/e") true primary wrote rfl rest).2 siteBlock setting accepted rfl rfl fun successor => undrawn _ _ _
  have whole : Runs.Run (Fleet.Step Reference.crates fun _ => setting.config) mid
      (.provision (ascii "pow") none (List.replicate 64 102) :: acts) final := .cons .provision rest
  have inv : Fleet.Inv Reference.crates (fun _ => setting.config) final :=
    whole.invariant (Fleet.Inv Reference.crates (fun _ => setting.config)) (fun _ _ _ inv taken => Fleet.step_inv inv taken)
      (Fleet.start_inv _ _)
  obtain ⟨w, job, n, grant, noted, owned⟩ := inv.history.settled _ _ settled
  obtain ⟨id, -, -, paid⟩ := inv.paid noted owned
  obtain ⟨r, member, -, -, one, -⟩ := paid.ran
  exact ⟨setting, acts, final, accepted, whole, healthy, ⟨r, member, one⟩, fun r member => current r member rfl⟩

end PowGate.Provisioning
