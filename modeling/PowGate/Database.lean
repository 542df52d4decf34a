import PowGate.Commands
import PowGate.Reference

/-! The scripts on an actual Redis database, where every namespace keeps its epoch, its clock and
its markers under text keys next to everybody else's. Keys say which namespace they are of, so
one database behaves as a primary of its own for each of them. -/
namespace PowGate.Redis

open Text

/-- A key that is set: its text and, when set with `EX`, the reading it is gone at. -/
structure Cell where
  text : Bytes
  deadline : Option Int

abbrev Database := Bytes → Option Cell

/-- `tonumber` of the texts the scripts store and are sent, which are integers. -/
def tonumber : Bytes → Option Int
  | 45 :: rest => (parseDigits rest).map fun n => -(n : Int)
  | text => (parseDigits text).map fun n => (n : Int)

def Database.get (db : Database) (key : Bytes) (time : Int) : Option Bytes :=
  match db key with
  | some ⟨text, none⟩ => some text
  | some ⟨text, some deadline⟩ => if time < deadline then some text else none
  | none => none

/-- `SET`, which also takes an expiry away. -/
def Database.set (db : Database) (key text : Bytes) : Database := Function.update db key (some ⟨text, none⟩)

def Database.setNew (db : Database) (key text : Bytes) (seconds time : Int) : Option Database :=
  if (db.get key time).isSome then none
  else some (Function.update db key (some ⟨text, some (time + seconds)⟩))

inductive Result where
  | integer (value : Int)
  | text (value : Bytes)
  | error
  deriving DecidableEq

/-- `CONSUME` with its `KEYS` and `ARGV`, at a reading `tostring` keeps. A comparison with `nil` is
an error. -/
def evalConsume (db : Database) (epochKey marker clockKey epoch expires skew caller : Bytes) (time : Int) :
    Result × Database :=
  if db.get epochKey time ≠ some epoch then (.integer (-2), db)
  else match (db.get clockKey time).bind tonumber with
  | none => (.integer (-2), db)
  | some previous => match tonumber skew, tonumber caller, tonumber expires with
    | some skew, some caller, some expires =>
      if skew < |time - caller| then (.integer (-3), db)
      else
        let now := max time previous
        if expires ≤ now then (.integer (-1), db)
        else
          let raised := if previous < now then db.set clockKey (integer now) else db
          match raised.setNew marker (ascii "1") (expires - now + skew + 1) time with
          | some marked => (.integer 1, marked)
          | none => (.integer 0, raised)
    | _, _, _ => (.error, db)

def evalHealth (db : Database) (epochKey clockKey epoch : Bytes) (time : Int) : Result :=
  if db.get epochKey time ≠ some epoch ∨ ((db.get clockKey time).bind tonumber).isNone then .integer (-2)
  else .integer 1

/-- The script of `redis-epoch.py`. -/
def evalProvision (db : Database) (epochKey clockKey action expected fresh : Bytes) (time : Int) : Result × Database :=
  let old := db.get epochKey time
  if action = ascii "init" ∧ old.isSome then
    if (db.get clockKey time).isNone then (.error, db) else (.text (old.getD []), db)
  else if action = ascii "rotate" ∧ old ≠ some expected then (.error, db)
  else (.text fresh, (db.set clockKey (integer time)).set epochKey fresh)

def provisionText : Bytes := ascii ("local old=redis.call('GET',KEYS[1])\n" ++
  "if ARGV[1]=='init' and old then\n" ++
  " if not redis.call('GET',KEYS[2]) then return redis.error_reply('missing clock: fence nodes and rotate epoch') end\n" ++
  " return old\n" ++
  "end\n" ++
  "if ARGV[1]=='rotate' and old~=ARGV[2] then return redis.error_reply('epoch changed or missing; refusing rotation') end\n" ++
  "local now=redis.call('TIME')[1]\n" ++
  "redis.call('SET',KEYS[2],now)\n" ++
  "redis.call('SET',KEYS[1],ARGV[3])\n" ++
  "return ARGV[3]")

/-- `EVAL` of the scripts of the repository. -/
def Database.eval (db : Database) (time : Int) : List Bytes → Result × Database
  | [_, text, _, epochKey, marker, clockKey, epoch, expires, skew, caller] =>
    if text = Cluster.consumeText then evalConsume db epochKey marker clockKey epoch expires skew caller time
    else (.error, db)
  | [_, text, _, epochKey, clockKey, epoch] =>
    if text = Cluster.healthText then (evalHealth db epochKey clockKey epoch time, db) else (.error, db)
  | [_, text, _, epochKey, clockKey, action, expected, fresh] =>
    if text = provisionText then evalProvision db epochKey clockKey action expected fresh time else (.error, db)
  | _ => (.error, db)

def key (space tail : Bytes) : Bytes := ascii "powgate:\x7b" ++ space ++ 125 :: tail

def markerTail (epoch name : Bytes) : Bytes := 58 :: epoch ++ ascii ":spent:" ++ name

inductive Call where
  | consume (space epoch token : Bytes) (expires skew caller : Int)
  | health (space epoch : Bytes)
  | provision (space : Bytes) (expected : Option Bytes) (fresh : Bytes)

namespace Call

def space : Call → Bytes
  | .consume space _ _ _ _ _ => space
  | .health space _ => space
  | .provision space _ _ => space

def parts (crates : Crates) : Call → List Bytes
  | .consume space epoch token expires skew caller =>
    Cluster.eval space (.consume ⟨epoch, (keys crates space epoch token).2.1, expires, skew, caller⟩)
  | .health space epoch => Cluster.eval space (.health epoch)
  | .provision space expected fresh =>
    [ascii "EVAL", provisionText, ascii "2", key space (ascii ":epoch"), key space (ascii ":clock"),
      if expected.isSome then ascii "rotate" else ascii "init", expected.getD [], fresh]

def apply (crates : Crates) (primary : Primary) (time : Int) : Call → Result × Primary
  | .consume space epoch token expires skew caller =>
    let result := Redis.consume unrounded primary ⟨epoch, (keys crates space epoch token).2.1, expires, skew, caller⟩ time
    (.integer result.1, result.2)
  | .health _ epoch => (.integer (Redis.health primary epoch), primary)
  | .provision _ expected fresh =>
    let result := Redis.provision primary expected fresh time
    (match result.1 with | some epoch => .text epoch | none => .error, result.2)

end Call

/-- Calls in order, each at a reading of Redis' clock, on one database. -/
def Database.run (crates : Crates) (db : Database) : List (Int × Call) → List Result × Database
  | [] => ([], db)
  | (time, call) :: calls =>
    let first := db.eval time (call.parts crates)
    let rest := Database.run crates first.2 calls
    (first.1 :: rest.1, rest.2)

/-- The same calls on a primary of its own for each namespace. -/
def runApart (crates : Crates) (primaries : Bytes → Primary) : List (Int × Call) → List Result × (Bytes → Primary)
  | [] => ([], primaries)
  | (time, call) :: calls =>
    let first := call.apply crates (primaries call.space) time
    let rest := runApart crates (Function.update primaries call.space first.2) calls
    (first.1 :: rest.1, rest.2)

/-- What a namespace's keys hold, read as a primary. -/
structure Represents (db : Database) (space : Bytes) (primary : Primary) : Prop where
  epoch : db (key space (ascii ":epoch")) = primary.epoch.map fun epoch => ⟨epoch, none⟩
  clock : db (key space (ascii ":clock")) = primary.clock.map fun now => ⟨integer now, none⟩
  spent : ∀ epoch name, db (key space (markerTail epoch name)) =
    (primary.spent (key space (markerTail epoch name))).map fun deadline => ⟨ascii "1", some deadline⟩

section Keys

theorem tonumber_integer (n : Int) : tonumber (integer n) = some n := by
  cases n with
  | ofNat n =>
    obtain ⟨c, rest, cut, _, minus⟩ := decimal_unsigned n
    have plain : tonumber (decimal n) = (parseDigits (decimal n)).map fun n => (n : Int) := by
      rw [cut]
      unfold tonumber
      split
      · next same => exact absurd (List.cons.inj same).1 minus
      · rfl
    rw [integer,plain,parseDigits_decimal]
    rfl
  | negSucc n =>
    rw [integer,tonumber,parseDigits_decimal]
    rfl

theorem key_inj (plain : 125 ∉ space) (plain' : 125 ∉ space') (same : key space tail = key space' tail') :
    space = space' ∧ tail = tail' := by
  unfold key at same
  rw [List.append_assoc,List.append_assoc] at same
  have cut := congrArg (splitOnce 125) (List.append_cancel_left same)
  rw [splitOnce_append _ _ plain,splitOnce_append _ _ plain'] at cut
  exact Prod.mk.inj (Option.some.inj cut)

theorem marker_ne (short : tail.length < 8) (epoch name : Bytes) : markerTail epoch name ≠ tail := by
  rintro rfl
  have : (ascii ":spent:").length = 7 := by decide
  simp only [markerTail,List.length_append,List.length_cons] at short
  omega

theorem keys_eq (crates : Crates) (space epoch token : Bytes) : (keys crates space epoch token).2.1 =
    key space (markerTail epoch (hex (crates.sha256 token).toList)) := by
  simp only [keys,key,markerTail,List.append_assoc,List.cons_append]
  rfl

end Keys

def Within (space : Bytes) (db db' : Database) : Prop :=
  ∀ other tail, 125 ∉ other → other ≠ space → db' (key other tail) = db (key other tail)

section Namespaces

variable {db db' : Database} {space : Bytes} {primary : Primary} {time : Int}

theorem Within.refl (db : Database) : Within space db db := fun _ _ _ _ => rfl

theorem Within.trans (first : Within space db db') (second : Within space db' db'') : Within space db db'' :=
  fun other tail plain apart => (second other tail plain apart).trans (first other tail plain apart)

theorem Within.update (plain : 125 ∉ space) (tail : Bytes) (cell : Option Cell) :
    Within space db (Function.update db (key space tail) cell) := by
  intro other tail' plain' apart
  apply Function.update_of_ne
  intro same
  exact apart (key_inj plain' plain same).1

theorem Represents.frame (represents : Represents db other primary) (within : Within space db db') (plain : 125 ∉ other)
    (apart : other ≠ space) : Represents db' other primary := by
  refine ⟨?_, ?_, ?_⟩
  · rw [within other _ plain apart]
    exact represents.epoch
  · rw [within other _ plain apart]
    exact represents.clock
  · intro epoch name
    rw [within other _ plain apart]
    exact represents.spent epoch name

theorem Represents.get_epoch (represents : Represents db space primary) (time : Int) :
    db.get (key space (ascii ":epoch")) time = primary.epoch := by
  unfold Database.get
  rw [represents.epoch]
  cases primary.epoch <;> rfl

theorem Represents.get_clock (represents : Represents db space primary) (time : Int) :
    db.get (key space (ascii ":clock")) time = primary.clock.map integer := by
  unfold Database.get
  rw [represents.clock]
  cases primary.clock <;> rfl

theorem Represents.read_clock (represents : Represents db space primary) (time : Int) :
    (db.get (key space (ascii ":clock")) time).bind tonumber = primary.clock := by
  rw [represents.get_clock]
  cases primary.clock with
  | none => rfl
  | some now => exact tonumber_integer now

theorem Represents.get_marker (represents : Represents db space primary) (time : Int) (epoch name : Bytes) :
    (db.get (key space (markerTail epoch name)) time).isSome = primary.present (key space (markerTail epoch name)) time := by
  unfold Database.get Primary.present
  rw [represents.spent]
  cases primary.spent (key space (markerTail epoch name)) with
  | none => rfl
  | some deadline => by_cases live : time < deadline <;> simp [live]

theorem key_tail (apart : tail ≠ tail') : key space tail ≠ key space tail' := by
  intro same
  have cut := List.append_cancel_left same
  exact apart (List.cons.inj cut).2

theorem Represents.raise (represents : Represents db space primary) (now : Int) :
    Represents (db.set (key space (ascii ":clock")) (integer now)) space (primary.raise now) := by
  refine ⟨?_, Function.update_self .., ?_⟩
  · exact (Function.update_of_ne (key_tail (by decide)) ..).trans represents.epoch
  · intro epoch name
    exact (Function.update_of_ne (key_tail (marker_ne (by decide) epoch name)) ..).trans (represents.spent epoch name)

theorem Represents.renew (represents : Represents db space primary) (fresh : Bytes) :
    Represents (db.set (key space (ascii ":epoch")) fresh) space { primary with epoch := some fresh } := by
  refine ⟨Function.update_self .., ?_, ?_⟩
  · exact (Function.update_of_ne (key_tail (by decide)) ..).trans represents.clock
  · intro epoch name
    exact (Function.update_of_ne (key_tail (marker_ne (by decide) epoch name)) ..).trans (represents.spent epoch name)

theorem Represents.mark (represents : Represents db space primary) (epoch name : Bytes) (deadline : Int) :
    Represents (Function.update db (key space (markerTail epoch name)) (some ⟨ascii "1", some deadline⟩)) space
      (primary.setMarker (key space (markerTail epoch name)) deadline) := by
  have apart : ∀ {tail}, tail.length < 8 → key space tail ≠ key space (markerTail epoch name) := fun short =>
    key_tail (marker_ne short epoch name).symm
  refine ⟨?_, ?_, ?_⟩
  · exact (Function.update_of_ne (apart (by decide)) ..).trans represents.epoch
  · exact (Function.update_of_ne (apart (by decide)) ..).trans represents.clock
  · intro epoch' name'
    by_cases same : key space (markerTail epoch' name') = key space (markerTail epoch name)
    · simp [same,Primary.setMarker]
    · simpa [Function.update_of_ne same,Primary.setMarker] using represents.spent epoch' name'

end Namespaces

/-- A call does on the database what it does on the primary of its namespace, and nothing else. -/
def Simulates (crates : Crates) (db : Database) (primary : Primary) (time : Int) (call : Call) : Prop :=
  ∃ db', db.eval time (call.parts crates) = ((call.apply crates primary time).1, db') ∧
    Represents db' call.space (call.apply crates primary time).2 ∧ Within call.space db db'

section Calls

variable {crates : Crates} {db : Database} {space : Bytes} {primary : Primary} {time : Int}

theorem evalConsume_simulates (represents : Represents db space primary) (plain : 125 ∉ space)
    (epoch name : Bytes) (expires skew caller time : Int) :
    ∃ db', evalConsume db (key space (ascii ":epoch")) (key space (markerTail epoch name)) (key space (ascii ":clock")) epoch
        (integer expires) (integer skew) (integer caller) time =
      (.integer (consume unrounded primary ⟨epoch, key space (markerTail epoch name), expires, skew, caller⟩ time).1, db') ∧
      Represents db' space (consume unrounded primary ⟨epoch, key space (markerTail epoch name), expires, skew, caller⟩ time).2 ∧
      Within space db db' := by
  unfold evalConsume consume Primary.advance unrounded
  rw [represents.get_epoch,represents.read_clock]
  by_cases current : primary.epoch = some epoch
  swap
  · rw [if_pos current,if_pos current]
    exact ⟨db, rfl, represents, .refl db⟩
  rw [if_neg (not_not_intro current),if_neg (not_not_intro current)]
  cases clock : primary.clock with
  | none => exact ⟨db, rfl, represents, .refl db⟩
  | some previous =>
    simp only [tonumber_integer]
    by_cases skewed : skew < |time - caller|
    · rw [if_pos skewed,if_pos skewed]
      exact ⟨db, rfl, represents, .refl db⟩
    rw [if_neg skewed,if_neg skewed]
    by_cases late : expires ≤ max time previous
    · rw [if_pos late,if_pos late]
      exact ⟨db, rfl, represents, .refl db⟩
    rw [if_neg late,if_neg late]
    -- From here on the clock key holds the larger reading on both sides.
    obtain ⟨raised, same, represents', within⟩ : ∃ raised : Database,
        (if previous < max time previous then db.set (key space (ascii ":clock")) (integer (max time previous)) else db) =
          raised ∧ Represents raised space
            (if previous < max time previous then primary.raise (max time previous) else primary) ∧ Within space db raised := by
      by_cases later : previous < max time previous
      · rw [if_pos later,if_pos later]
        exact ⟨_, rfl, represents.raise _, .update plain _ _⟩
      · rw [if_neg later,if_neg later]
        exact ⟨db, rfl, represents, .refl db⟩
    rw [same]
    generalize (if previous < max time previous then primary.raise (max time previous) else primary) = after at represents' ⊢
    have found := represents'.get_marker time epoch name
    unfold Database.setNew
    rw [found]
    by_cases present : after.present (key space (markerTail epoch name)) time = true
    · rw [if_pos present,if_pos present]
      exact ⟨raised, rfl, represents', within⟩
    · rw [if_neg present,if_neg present]
      exact ⟨_, rfl, represents'.mark epoch name _, within.trans (.update plain _ _)⟩

theorem evalHealth_simulates (represents : Represents db space primary) (epoch : Bytes) :
    evalHealth db (key space (ascii ":epoch")) (key space (ascii ":clock")) epoch time = .integer (health primary epoch) := by
  unfold evalHealth health
  rw [represents.get_epoch,represents.read_clock]
  split <;> rfl

theorem evalProvision_simulates (represents : Represents db space primary) (plain : 125 ∉ space) (expected : Option Bytes)
    (fresh : Bytes) (time : Int) :
    ∃ db', evalProvision db (key space (ascii ":epoch")) (key space (ascii ":clock"))
        (if expected.isSome then ascii "rotate" else ascii "init") (expected.getD []) fresh time =
      ((match (provision primary expected fresh time).1 with | some epoch => .text epoch | none => .error), db') ∧
      Represents db' space (provision primary expected fresh time).2 ∧ Within space db db' := by
  have words : ascii "rotate" ≠ ascii "init" ∧ ascii "init" ≠ ascii "rotate" := by decide
  have written : Represents ((db.set (key space (ascii ":clock")) (integer time)).set (key space (ascii ":epoch")) fresh) space
      { primary with epoch := some fresh, clock := some time } := (represents.raise time).renew fresh
  have within : Within space db ((db.set (key space (ascii ":clock")) (integer time)).set (key space (ascii ":epoch")) fresh) :=
    .trans (.update plain _ _) (.update plain _ _)
  unfold evalProvision provision
  rw [represents.get_epoch,represents.get_clock]
  cases expected with
  | none =>
    cases primary.epoch with
    | none => exact ⟨_, by simp [words], written, within⟩
    | some old =>
      cases clock : primary.clock with
      | none => exact ⟨db, by simp, represents, .refl db⟩
      | some now => exact ⟨db, by simp, represents, .refl db⟩
  | some expected =>
    by_cases current : primary.epoch = some expected
    · exact ⟨_, by simp [words,current], by simpa [current] using written, within⟩
    · exact ⟨db, by simp [words,current], by simpa [current] using represents, .refl db⟩

theorem call_simulates (crates : Crates) (time : Int) (call : Call) (represents : Represents db call.space primary)
    (plain : 125 ∉ call.space) : Simulates crates db primary time call := by
  have ends : ∀ space : Bytes, ascii "powgate:\x7b" ++ space ++ ascii "\x7d:epoch" = key space (ascii ":epoch") ∧
      ascii "powgate:\x7b" ++ space ++ ascii "\x7d:clock" = key space (ascii ":clock") := fun space => ⟨rfl, rfl⟩
  cases call with
  | consume space epoch token expires skew caller =>
    change Represents db space primary at represents
    obtain ⟨db', evaluated, rest⟩ := evalConsume_simulates represents plain epoch (hex (crates.sha256 token).toList)
      expires skew caller time
    rw [← keys_eq crates space epoch token] at evaluated rest
    refine ⟨db', ?_, rest⟩
    simp only [Call.parts,Cluster.eval,(ends space).1,(ends space).2,Database.eval]
    exact evaluated
  | health space epoch =>
    refine ⟨db, ?_, represents, .refl db⟩
    change Represents db space primary at represents
    simp only [Call.parts,Cluster.eval,(ends space).1,(ends space).2,Database.eval,if_true]
    rw [evalHealth_simulates represents]
    rfl
  | provision space expected fresh =>
    obtain ⟨db', evaluated, rest⟩ := evalProvision_simulates represents plain expected fresh time
    refine ⟨db', ?_, rest⟩
    simp only [Call.parts,Database.eval,if_true]
    exact evaluated

def Held (db : Database) (primaries : Bytes → Primary) : Prop := ∀ space, 125 ∉ space → Represents db space (primaries space)

theorem Held.update (held : Held db primaries) (represents : Represents db' space primary) (within : Within space db db') :
    Held db' (Function.update primaries space primary) := by
  intro other plain
  by_cases here : other = space
  · subst here
    rwa [Function.update_self]
  · rw [Function.update_of_ne here]
    exact (held other plain).frame within plain here

end Calls

/-- Whatever scripts run in whatever namespaces of one database, and whatever its clock shows,
every reply is the one that a primary with only this namespace on it would give. -/
theorem database_separates_namespaces (crates : Crates) (db : Database) (primaries : Bytes → Primary)
    (held : Held db primaries) (calls : List (Int × Call)) (plain : ∀ call ∈ calls, 125 ∉ call.2.space) :
    (db.run crates calls).1 = (runApart crates primaries calls).1 ∧
      Held (db.run crates calls).2 (runApart crates primaries calls).2 := by
  induction calls generalizing db primaries with
  | nil => exact ⟨rfl, held⟩
  | cons first calls ih =>
    obtain ⟨time, call⟩ := first
    obtain ⟨named, rest⟩ := List.forall_mem_cons.mp plain
    obtain ⟨db', evaluated, represents, within⟩ := call_simulates crates time call (held call.space named) named
    obtain ⟨same, final⟩ := ih db' _ (held.update represents within) rest
    simp only [Database.run,runApart,evaluated]
    exact ⟨congrArg _ same, final⟩

/-- Two deployments on one database: the same token is spent in each on its own. -/
def sampleCalls : List (Int × Call) :=
  [(1000, .provision (ascii "a") none (ascii "e")), (1001, .provision (ascii "b") none (ascii "f")),
    (1002, .consume (ascii "a") (ascii "e") (ascii "t") 1100 5 1002),
    (1003, .consume (ascii "b") (ascii "f") (ascii "t") 1100 5 1003),
    (1004, .consume (ascii "a") (ascii "e") (ascii "t") 1100 5 1004), (1005, .health (ascii "b") (ascii "e"))]

theorem database_separates_two : (Database.run Reference.crates (fun _ => none) sampleCalls).1 =
    [.text (ascii "e"), .text (ascii "f"), .integer 1, .integer 1, .integer 0, .integer (-2)] := by
  have plain : ∀ call ∈ sampleCalls, 125 ∉ call.2.space := by
    have all : sampleCalls.all (fun call => !call.2.space.contains 125) = true := by decide
    intro call member held
    have := List.all_eq_true.mp all call member
    simp [held] at this
  have held : Held (fun _ => none) (fun _ => ⟨none, none, fun _ => none⟩) := fun space _ => ⟨rfl, rfl, fun _ _ => rfl⟩
  rw [(database_separates_namespaces Reference.crates _ _ held sampleCalls plain).1]
  decide +kernel

end PowGate.Redis
