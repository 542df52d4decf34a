import Mathlib.Algebra.Order.Group.Unbundled.Int
import Mathlib.Data.Nat.Log
import Mathlib.Logic.Function.Basic
import PowGate.Crates
import PowGate.Runs

/-! The Redis transaction `CONSUME`, run atomically on one primary. Lua computes exactly with
the integers below `2 ^ 53`, so numbers are integers here; only the clock key goes through
`tostring`, which rounds a reading from `10 ^ 14` on. -/
namespace PowGate.Redis

open Text

/-- What the scripts read and write in one namespace: the epoch key, the clock key
as `tonumber` reads it, and for each marker key the reading it expires at. -/
structure Primary where
  epoch : Option Bytes
  clock : Option Int
  spent : Bytes → Option Int

/-- `redis::keys`: the epoch, marker and clock keys. -/
def keys (crates : Crates) (space epoch token : Bytes) : Bytes × Bytes × Bytes :=
  let base := ascii "powgate:\x7b" ++ space ++ ascii "\x7d"
  (base ++ ascii ":epoch", base ++ 58 :: epoch ++ ascii ":spent:" ++ hex (crates.sha256 token).toList,
    base ++ ascii ":clock")

/-- `KEYS[2]` and `ARGV` of one `CONSUME` call. -/
structure Args where
  epoch : Bytes
  marker : Bytes
  expires : Int
  skew : Int
  caller : Int

/-- A marker set with `EX n` at reading `c` is absent exactly from reading `c + n` on. -/
def Primary.present (primary : Primary) (marker : Bytes) (time : Int) : Bool :=
  match primary.spent marker with
  | some deadline => time < deadline
  | none => false

def Primary.raise (primary : Primary) (now : Int) : Primary := { primary with clock := some now }

/-- The clock key is written only when it falls behind. -/
def Primary.advance (stored : Int → Int) (primary : Primary) (previous now : Int) : Primary :=
  if previous < now then primary.raise (stored now) else primary

def Primary.setMarker (primary : Primary) (marker : Bytes) (deadline : Int) : Primary :=
  { primary with spent := Function.update primary.spent marker (some deadline) }

/-- The number that is read back from what Lua's `tostring` writes. Its format `%.14g` keeps
fourteen significant digits and rounds a tie to the even one. -/
def tostring (n : Int) : Int :=
  if n.natAbs < 10 ^ 14 then n
  else
    let unit : Int := 10 ^ (Nat.log 10 n.natAbs - 13)
    let low := n / unit
    let rest := n % unit
    if 2 * rest < unit ∨ 2 * rest = unit ∧ low % 2 = 0 then low * unit else (low + 1) * unit

/-- `tostring` on the numbers that it keeps. -/
def unrounded (n : Int) : Int := n

/-- The script `CONSUME` at the reading `time` of Redis' own clock. It stores the clock key with
`tostring`, which is `unrounded` for every reading below `10 ^ 14`. -/
def consume (stored : Int → Int) (primary : Primary) (args : Args) (time : Int) : Int × Primary :=
  if primary.epoch ≠ some args.epoch then (-2, primary)
  else match primary.clock with
  | none => (-2, primary)
  | some previous =>
    if args.skew < |time - args.caller| then (-3, primary)
    else
      let now := max time previous
      if args.expires ≤ now then (-1, primary)
      else
        let raised := primary.advance stored previous now
        if raised.present args.marker time then (0, raised)
        else (1, raised.setMarker args.marker (time + (args.expires - now + args.skew + 1)))

/-- The script `HEALTH`. -/
def health (primary : Primary) (epoch : Bytes) : Int :=
  if primary.epoch ≠ some epoch ∨ primary.clock.isNone then -2 else 1

/-- The script of `redis-epoch.py`: `init` when no epoch is expected, else `rotate`. An error
reply is nothing. -/
def provision (primary : Primary) (expected : Option Bytes) (fresh : Bytes) (time : Int) :
    Option Bytes × Primary :=
  match expected, primary.epoch with
  | none, some old => if primary.clock.isNone then (none, primary) else (some old, primary)
  | none, none => (some fresh, { primary with epoch := some fresh, clock := some time })
  | some expected, old =>
    if old ≠ some expected then (none, primary)
    else (some fresh, { primary with epoch := some fresh, clock := some time })

/-- The integers the scripts return. -/
def replies : List Int := [1, 0, -1, -2, -3]

theorem tostring_small (small : n.natAbs < 10 ^ 14) : tostring n = n :=
  if_pos small

example : tostring 100000000000015 = 100000000000020 := by decide

/-- The clock key is exact as long as Redis' readings have at most fourteen digits. -/
theorem consume_unrounded (primary : Primary) (args : Args) (small : time.natAbs < 10 ^ 14) :
    consume tostring primary args time = consume unrounded primary args time := by
  have same : ∀ previous, primary.advance tostring previous (max time previous) =
      primary.advance unrounded previous (max time previous) := by
    intro previous
    unfold Primary.advance
    split
    · next later =>
      have reading : max time previous = time := by omega
      rw [reading,tostring_small small]
      rfl
    · rfl
  unfold consume
  simp only [same]

section Primary

variable {stored : Int → Int} {primary : Primary} {args : Args} {time previous now : Int} {marker : Bytes}

@[simp] theorem Primary.advance_epoch : (primary.advance stored previous now).epoch = primary.epoch := by
  unfold Primary.advance
  split <;> rfl

@[simp] theorem Primary.advance_spent : (primary.advance stored previous now).spent = primary.spent := by
  unfold Primary.advance
  split <;> rfl

@[simp] theorem Primary.advance_present :
    (primary.advance stored previous now).present marker time = primary.present marker time := by
  simp [Primary.present]

theorem Primary.advance_ticking (ticking : primary.clock.isSome = true) :
    (primary.advance stored previous now).clock.isSome = true := by
  unfold Primary.advance
  split
  · rfl
  · exact ticking

theorem Primary.advance_unrounded (clock : primary.clock = some previous) (ahead : previous ≤ now) :
    primary.advance unrounded previous now = primary.raise now := by
  unfold Primary.advance
  split
  · rfl
  · have same : now = previous := by omega
    cases primary
    simp_all [Primary.raise]

/-- Everything one execution can do. -/
theorem consume_cases (stored : Int → Int) (primary : Primary) (args : Args) (time : Int) :
    (∃ reply ∈ [-1, -2, -3], consume stored primary args time = (reply, primary)) ∨
    (∃ previous, primary.epoch = some args.epoch ∧ primary.clock = some previous ∧
      |time - args.caller| ≤ args.skew ∧ max time previous < args.expires ∧
      ((primary.present args.marker time = true ∧
        consume stored primary args time = (0, primary.advance stored previous (max time previous))) ∨
       (primary.present args.marker time = false ∧
        consume stored primary args time =
          (1, (primary.advance stored previous (max time previous)).setMarker args.marker
            (time + (args.expires - max time previous + args.skew + 1)))))) := by
  by_cases rotated : primary.epoch = some args.epoch
  swap
  · exact .inl ⟨-2, by decide, by simp [consume,rotated]⟩
  cases clock : primary.clock with
  | none => exact .inl ⟨-2, by decide, by simp [consume,rotated,clock]⟩
  | some previous =>
    by_cases skewed : args.skew < |time - args.caller|
    · exact .inl ⟨-3, by decide, by simp [consume,rotated,clock,skewed]⟩
    by_cases late : args.expires ≤ max time previous
    · exact .inl ⟨-1, by decide, by
        simp only [consume,rotated,clock,skewed,late]; simp⟩
    refine .inr ⟨previous, rotated, rfl, by omega, by omega, ?_⟩
    have body : consume stored primary args time =
        if primary.present args.marker time then (0, primary.advance stored previous (max time previous))
        else (1, (primary.advance stored previous (max time previous)).setMarker args.marker
          (time + (args.expires - max time previous + args.skew + 1))) := by
      unfold consume
      rw [if_neg (not_not_intro rotated)]
      simp only [clock]
      rw [if_neg skewed,if_neg late,Primary.advance_present]
    cases found : primary.present args.marker time with
    | true => exact .inl ⟨rfl, by rw [body,found]; rfl⟩
    | false => exact .inr ⟨rfl, by rw [body,found]; rfl⟩

theorem consume_reply (stored : Int → Int) (primary : Primary) (args : Args) (time : Int) :
    (consume stored primary args time).1 ∈ replies := by
  rcases consume_cases stored primary args time with ⟨reply, refused, h⟩ | ⟨_, _, _, _, _, ⟨_, h⟩ | ⟨_, h⟩⟩
  · rw [h]
    exact List.mem_cons_of_mem _ (List.mem_cons_of_mem _ refused)
  · simp [h,replies]
  · simp [h,replies]

theorem health_reply (primary : Primary) (epoch : Bytes) : health primary epoch ∈ replies := by
  unfold health
  split <;> decide

/-- A clock key that is kept exactly never gets ahead of a clock that does not go back. -/
theorem consume_clock (args : Args) (behind : ∀ reading, primary.clock = some reading → reading ≤ time) :
    ∀ reading, (consume unrounded primary args time).2.clock = some reading → reading ≤ time := by
  rcases consume_cases unrounded primary args time with ⟨_, _, h⟩ | ⟨previous, _, clock, _, _, ⟨_, h⟩ | ⟨_, h⟩⟩
  · rw [h]
    exact behind
  all_goals
    intro reading found
    rw [h,Primary.advance_unrounded clock (le_max_right _ _)] at found
    obtain rfl := Option.some.inj found
    have := behind previous clock
    omega

/-- A marker is replaced only by one that lasts longer. -/
theorem consume_marker (stored : Int → Int) (time : Int) (positive : 0 ≤ args.skew) (marked : primary.spent marker = some deadline) :
    ∃ later, (consume stored primary args time).2.spent marker = some later ∧ deadline ≤ later := by
  rcases consume_cases stored primary args time with ⟨_, _, h⟩ | ⟨previous, _, _, _, early, ⟨_, h⟩ | ⟨absent, h⟩⟩
  · rw [h]
    exact ⟨deadline, marked, Int.le_refl _⟩
  · rw [h]
    exact ⟨deadline, by simpa using marked, Int.le_refl _⟩
  · rw [h]
    by_cases mine : marker = args.marker
    · subst mine
      simp only [Primary.present,marked,decide_eq_false_iff_not] at absent
      exact ⟨_, Function.update_self _ _ _, by omega⟩
    · exact ⟨deadline, by simpa [Primary.setMarker,Function.update_of_ne mine] using marked, Int.le_refl _⟩

/-- What the reply 1 means as long as the clock key is not ahead: the epoch is the stored one,
no marker covers the token yet, and now one does. -/
theorem consume_one (positive : 0 ≤ args.skew) (behind : ∀ reading, primary.clock = some reading → reading ≤ time)
    (one : (consume stored primary args time).1 = 1) :
    primary.epoch = some args.epoch ∧
      (∀ deadline, primary.spent args.marker = some deadline → deadline < args.expires) ∧
      ∃ deadline, (consume stored primary args time).2.spent args.marker = some deadline ∧ args.expires ≤ deadline := by
  rcases consume_cases stored primary args time with ⟨reply, refused, h⟩ |
    ⟨previous, current, clock, _, early, ⟨_, h⟩ | ⟨absent, h⟩⟩
  · simp only [h] at one
    simp [one] at refused
  · simp [h] at one
  · refine ⟨current, ?_, ?_⟩
    · intro deadline marked
      simp only [Primary.present,marked,decide_eq_false_iff_not] at absent
      omega
    · have := behind previous clock
      rw [h]
      exact ⟨_, Function.update_self _ _ _, by omega⟩

/-- The reply is 1 exactly for a token in time, at a clock near the caller's, that no live marker covers. -/
theorem consume_one_iff : (consume stored primary args time).1 = 1 ↔
    ∃ previous, primary.epoch = some args.epoch ∧ primary.clock = some previous ∧
      |time - args.caller| ≤ args.skew ∧ max time previous < args.expires ∧
      primary.present args.marker time = false := by
  constructor
  · intro one
    rcases consume_cases stored primary args time with ⟨reply, refused, h⟩ |
      ⟨previous, current, clock, near, early, ⟨_, h⟩ | ⟨absent, _⟩⟩
    · simp only [h] at one
      simp [one] at refused
    · simp [h] at one
    · exact ⟨previous, current, clock, near, early, absent⟩
  · rintro ⟨previous, current, clock, near, early, absent⟩
    unfold consume
    rw [if_neg (not_not_intro current)]
    simp only [clock]
    rw [if_neg (by omega),if_neg (by omega),Primary.advance_present,absent]
    rfl

/-- What an accepted call leaves behind. -/
theorem consume_redeems (one : (consume stored primary args time).1 = 1) (clock : primary.clock = some previous) :
    (consume stored primary args time).2 = (primary.advance stored previous (max time previous)).setMarker args.marker
      (time + (args.expires - max time previous + args.skew + 1)) := by
  rcases consume_cases stored primary args time with ⟨reply, refused, h⟩ |
    ⟨previous', _, clock', _, _, ⟨_, h⟩ | ⟨_, h⟩⟩
  · simp only [h] at one
    simp [one] at refused
  · simp [h] at one
  · obtain rfl := Option.some.inj (clock.symm.trans clock')
    rw [h]

/-- An unspent token in time is accepted. -/
theorem consume_accepts (current : primary.epoch = some args.epoch) (clock : primary.clock = some previous)
    (near : |time - args.caller| ≤ args.skew) (early : max time previous < args.expires)
    (unspent : primary.spent args.marker = none) : (consume stored primary args time).1 = 1 :=
  consume_one_iff.mpr ⟨previous, current, clock, near, early, by simp [Primary.present,unspent]⟩

/-- Provisioning moves the clock key to the present, and touches no marker. -/
theorem provision_cases (primary : Primary) (expected : Option Bytes) (fresh : Bytes) (time : Int) :
    (provision primary expected fresh time).2 = primary ∨
      (provision primary expected fresh time).2 = { primary with epoch := some fresh, clock := some time } := by
  unfold provision
  split
  · split
    · exact .inl rfl
    · exact .inl rfl
  · exact .inr rfl
  · split
    · exact .inl rfl
    · exact .inr rfl

end Primary

/-- One execution of the script for a token, with the reply it sent. A token is
its marker key and always comes with its own expiry. -/
structure Execution where
  epoch : Bytes
  token : Bytes
  skew : Int
  caller : Int
  time : Int
  reply : Int

def Execution.args (expiry : Bytes → Int) (call : Execution) : Args :=
  ⟨call.epoch, call.token, expiry call.token, call.skew, call.caller⟩

def Execution.accepts (token : Bytes) (call : Execution) : Bool :=
  call.token = token && call.reply = 1

/-- `clock_skew` is configured in 1..60; the reading and the caller's clock are arbitrary. -/
def Executes (expiry : Bytes → Int) (primary : Primary) (call : Execution) (next : Primary) : Prop :=
  1 ≤ call.skew ∧ call.skew ≤ 60 ∧ consume tostring primary (call.args expiry) call.time = (call.reply, next)

/-- No call that would redeem its token finds the clock key more than `skew + 1` ahead of the
reading. -/
def Steady (expiry : Bytes → Int) (primary : Primary) (call : Execution) : Prop :=
  ∀ previous, primary.clock = some previous → primary.epoch = some call.epoch →
    |call.time - call.caller| ≤ call.skew → max call.time previous < expiry call.token →
    primary.present call.token call.time = false → previous ≤ call.time + call.skew + 1

/-- The token's marker outlives the token. -/
def Covered (expiry : Bytes → Int) (token : Bytes) (primary : Primary) : Prop :=
  ∃ deadline, primary.spent token = some deadline ∧ expiry token ≤ deadline

section OneUse

variable {expiry : Bytes → Int} {token : Bytes} {primary next : Primary} {call : Execution}

/-- Only an accepted call is asked for anything. -/
theorem steady_iff_accepted (taken : Executes expiry primary call next) :
    Steady expiry primary call ↔
      (call.reply = 1 → ∀ previous, primary.clock = some previous → previous ≤ call.time + call.skew + 1) := by
  have answer : (consume tostring primary (call.args expiry) call.time).1 = call.reply :=
    congrArg Prod.fst taken.2.2
  constructor
  · intro steady one previous clock
    obtain ⟨previous', current, clock', near, early, absent⟩ := consume_one_iff.mp (answer.trans one)
    obtain rfl := Option.some.inj (clock.symm.trans clock')
    exact steady previous clock current near early absent
  · intro accepted previous clock current near early absent
    exact accepted (answer.symm.trans (consume_one_iff.mpr ⟨previous, current, clock, near, early, absent⟩))
      previous clock

theorem Covered.never (covered : Covered expiry token primary)
    (taken : Executes expiry primary call next) : call.accepts token = false := by
  obtain ⟨deadline, marker, outlives⟩ := covered
  by_contra accepts
  simp only [Bool.not_eq_false,Execution.accepts,Bool.and_eq_true,decide_eq_true_eq] at accepts
  obtain ⟨rfl, one⟩ := accepts
  obtain ⟨previous, _, _, _, early, absent⟩ :=
    consume_one_iff.mp ((congrArg Prod.fst taken.2.2).trans one)
  -- An expired marker would put the reading past the token's own expiry.
  simp only [Primary.present,Execution.args,marker,decide_eq_false_iff_not] at absent
  simp only [Execution.args] at early
  omega

theorem Covered.kept (covered : Covered expiry token primary)
    (taken : Executes expiry primary call next) : Covered expiry token next := by
  obtain ⟨deadline, marker, outlives⟩ := covered
  have positive : 0 ≤ (call.args expiry).skew := by
    have := taken.1
    simp only [Execution.args]
    omega
  obtain ⟨later, marked, longer⟩ := consume_marker tostring call.time positive marker
  rw [taken.2.2] at marked
  exact ⟨later, marked, outlives.trans longer⟩

theorem accepted_covered (steady : Steady expiry primary call)
    (taken : Executes expiry primary call next) (accepted : call.accepts token = true) :
    Covered expiry token next := by
  simp only [Execution.accepts,Bool.and_eq_true,decide_eq_true_eq] at accepted
  obtain ⟨rfl, accepted⟩ := accepted
  have lead := (steady_iff_accepted taken).mp steady accepted
  obtain ⟨positive, _, run⟩ := taken
  have one := (congrArg Prod.fst run).trans accepted
  obtain ⟨previous, _, clock, _, early, _⟩ := consume_one_iff.mp one
  have left := consume_redeems one clock
  rw [run] at left
  have ahead := lead previous clock
  refine ⟨_, (congrFun (congrArg Primary.spent left) _).trans (Function.update_self _ _ _), ?_⟩
  simp only [Execution.args] at early ⊢
  omega

/-- A call that is accepted with the clock key further ahead can be repeated: its marker is gone
while the token is in time. -/
theorem unsteady_reopens (taken : Executes expiry primary call next) (unsteady : ¬ Steady expiry primary call) :
    ∃ again final, Executes expiry next again final ∧ call.accepts call.token = true ∧
      again.accepts call.token = true := by
  have accepted := mt (steady_iff_accepted taken).mpr unsteady
  push Not at accepted
  obtain ⟨accepted, previous, clock, ahead⟩ := accepted
  obtain ⟨positive, small, run⟩ := taken
  have one := (congrArg Prod.fst run).trans accepted
  obtain ⟨previous', current, clock', _, early, _⟩ := consume_one_iff.mp one
  obtain rfl := Option.some.inj (clock.symm.trans clock')
  have left := consume_redeems one clock
  rw [run] at left
  -- The clock key stays, and the token is presented at the reading its marker is gone at.
  have same : max call.time previous = previous := by omega
  simp only [same,Primary.advance,lt_irrefl,if_false,Execution.args] at left early
  let back := call.time + (expiry call.token - previous + call.skew + 1)
  have reopened : (consume tostring next ⟨call.epoch, call.token, expiry call.token, call.skew, back⟩ back).1 = 1 := by
    rw [left]
    refine consume_one_iff.mpr ⟨previous, current, clock, ?_, ?_, ?_⟩
    · simp only [sub_self,abs_zero]
      omega
    · simp only [back]
      omega
    · simp [Primary.present,Primary.setMarker,back]
  exact ⟨⟨call.epoch, call.token, call.skew, back, back, 1⟩, _, ⟨positive, small, Prod.ext reopened rfl⟩,
    by simp [Execution.accepts,accepted], by simp [Execution.accepts]⟩

end OneUse

/-- Each token is accepted at most once in every run, whatever the clocks do, as long
as no accepted call finds the clock key more than `skew + 1` ahead of Redis' reading. -/
theorem steady_runs_accept_once (expiry : Bytes → Int) (primary final : Primary)
    (calls : List Execution)
    (run : Runs.Run (fun p call next => Steady expiry p call ∧ Executes expiry p call next)
      primary calls final) (token : Bytes) :
    calls.countP (Execution.accepts token) ≤ 1 := by
  refine run.at_most_once (fun _ => True) (Covered expiry token) (Execution.accepts token)
    ?_ ?_ ?_ ?_ trivial
  · intro _ _ _ _ _; trivial
  · intro p call next _ taken accepted
    exact accepted_covered taken.1 taken.2 accepted
  · intro p call next _ covered taken
    exact covered.kept taken.2
  · intro p call next _ covered taken
    exact covered.never taken.2

/-- A token is redeemed at a reading one second behind the clock key, and presented again at 900
after the clock was set back: that call is refused, so nothing is asked of it. -/
theorem steady_runs_accept_once_small_step :
    let token := ascii "spent:a"
    let first : Execution := ⟨ascii "e", token, 5, 999, 999, 1⟩
    let again : Execution := ⟨ascii "e", token, 5, 900, 900, 0⟩
    [first,again].countP (Execution.accepts token) = 1 ∧
      [first,again].countP (Execution.accepts token) ≤ 1 := by
  refine ⟨by decide, steady_runs_accept_once (fun _ => 1110) ⟨some (ascii "e"), some 1000, fun _ => none⟩
    _ _ (.cons ⟨?_, by decide, by decide, rfl⟩ (.cons ⟨?_, by decide, by decide, rfl⟩ .nil)) _⟩
  · intro previous clock _ _ _ _
    obtain rfl := Option.some.inj clock
    decide
  · intro previous clock _ _ _ absent
    exact absurd absent (by decide)

/-- The clock key stands at 1000 when Redis' clock is set back to 900. A token that
expires at 1110 is accepted there, its marker lasts until the reading 1016, and at
that reading the same token is accepted again. -/
theorem rolled_back_clock_reopens :
    let token := ascii "spent:a"
    let first : Execution := ⟨ascii "e", token, 5, 900, 900, 1⟩
    let again : Execution := ⟨ascii "e", token, 5, 1016, 1016, 1⟩
    (∃ final, Runs.Run (Executes fun _ => 1110) ⟨some (ascii "e"), some 1000, fun _ => none⟩
      [first,again] final) ∧ ¬ [first,again].countP (Execution.accepts token) ≤ 1 :=
  ⟨⟨_, .cons ⟨by decide, by decide, rfl⟩ (.cons ⟨by decide, by decide, rfl⟩ .nil)⟩, by decide⟩

end PowGate.Redis
