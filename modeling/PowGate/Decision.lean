import PowGate.Text

/-! Parsing of the per-request decision string. Only the exact words open the gate:
whatever does not parse is the default challenge. -/
namespace PowGate

open Text

def nojsDefaultDelay : Int64 := 2
def nojsMinDelay : Int64 := 1
def nojsMaxDelay : Int64 := 30

inductive Decision where
  | challenge (difficulty : Option UInt64)
  | challengeNoJs (delay : Int64)
  | allow
  | deny
  | verify (name : Bytes)
  deriving DecidableEq, Repr

/-- `Ord::clamp`. -/
def clampDelay (delay : Int64) : Int64 :=
  if delay < nojsMinDelay then nojsMinDelay
  else if nojsMaxDelay < delay then nojsMaxDelay else delay

/-- The argument of `challenge:`. -/
def Decision.parseChallenge (arg : Bytes) : Decision :=
  if arg = ascii "js" then .challenge (some 1)
  else if arg = ascii "nojs" then .challengeNoJs nojsDefaultDelay
  else match stripPrefix (ascii "nojs:") arg with
  | some secs => .challengeNoJs (clampDelay ((parseI64 secs).getD nojsDefaultDelay))
  | none => match parseU64 arg with
    | some n => .challenge (some (if n < 1 then 1 else n))
    | none => .challenge none

def Decision.parse (s : Bytes) : Decision :=
  if s = ascii "allow" then .allow
  else if s = ascii "deny" then .deny
  else if s = [] ∨ s = ascii "challenge" then .challenge none
  else match splitOnce 58 s with
  | some (kind, arg) =>
    if kind = ascii "verify" ∧ arg ≠ [] then .verify arg
    else if kind = ascii "challenge" then .parseChallenge arg
    else .challenge none
  | none => .challenge none

theorem clampDelay_range (delay : Int64) : 1 ≤ clampDelay delay ∧ clampDelay delay ≤ 30 := by
  unfold clampDelay nojsMinDelay nojsMaxDelay
  simp only [Int64.lt_iff_toInt_lt,Int64.le_iff_toInt_le]
  split
  · decide
  split
  · decide
  · have one : Int64.toInt 1 = 1 := by decide
    have top : Int64.toInt 30 = 30 := by decide
    omega

/-- A decision that demands something demands something positive. -/
def Decision.Positive : Decision → Prop
  | .challenge (some n) => 0 < n
  | .challengeNoJs delay => 1 ≤ delay ∧ delay ≤ 30
  | _ => True

theorem Decision.parseChallenge_positive (arg : Bytes) : (parseChallenge arg).Positive := by
  unfold parseChallenge
  split
  · simp [Positive]
  split
  · simp only [Positive,nojsDefaultDelay]
    decide
  split
  · exact clampDelay_range _
  split
  · simp only [Positive]
    split
    · decide
    · next n _ small =>
      simp only [UInt64.lt_iff_toNat_lt] at small ⊢
      have one : UInt64.toNat 1 = 1 := rfl
      have zero : UInt64.toNat 0 = 0 := rfl
      omega
  · trivial

theorem Decision.parse_positive (s : Bytes) : (parse s).Positive := by
  unfold parse
  split
  · trivial
  split
  · trivial
  split
  · trivial
  split
  · split
    · trivial
    split
    · exact parseChallenge_positive _
    · trivial
  · trivial

theorem Decision.parseChallenge_closed (arg : Bytes) :
    parseChallenge arg ≠ .allow ∧ ∀ name, parseChallenge arg ≠ .verify name := by
  unfold parseChallenge
  split
  · simp
  split
  · simp
  split
  · simp
  split <;> simp

/-- Nothing but the word itself parses to `allow`. -/
theorem Decision.parse_allow : parse s = .allow ↔ s = ascii "allow" := by
  constructor
  · intro parsed
    by_contra other
    rw [parse,if_neg other] at parsed
    split at parsed
    · cases parsed
    split at parsed
    · cases parsed
    split at parsed
    · split at parsed
      · cases parsed
      split at parsed
      · exact (parseChallenge_closed _).1 parsed
      · cases parsed
    · cases parsed
  · intro exact
    rw [parse,if_pos exact]

/-- A verifier is consulted exactly for `verify:` and a nonempty name. -/
theorem Decision.parse_verify : parse s = .verify name ↔ s = ascii "verify:" ++ name ∧ name ≠ [] := by
  constructor
  · intro parsed
    unfold parse at parsed
    split at parsed
    · cases parsed
    split at parsed
    · cases parsed
    split at parsed
    · cases parsed
    split at parsed
    · next kind arg cut =>
      split at parsed
      · next shape =>
        cases parsed
        obtain ⟨text, _⟩ := splitOnce_some cut
        rw [shape.1] at text
        exact ⟨by rw [text]; rfl, shape.2⟩
      split at parsed
      · exact absurd parsed ((parseChallenge_closed _).2 name)
      · cases parsed
    · cases parsed
  · rintro ⟨rfl, nonempty⟩
    have cut : splitOnce 58 (ascii "verify:" ++ name) = some (ascii "verify", name) :=
      splitOnce_append (ascii "verify") name (by decide)
    have first : (ascii "verify:" ++ name).head? = some 118 := rfl
    have word : ∀ {w}, w.head? ≠ some 118 → ascii "verify:" ++ name ≠ w := by
      rintro w head rfl
      exact head first
    rw [parse,if_neg (word (by decide)),if_neg (word (by decide)),
      if_neg (not_or.mpr ⟨word (by decide), word (by decide)⟩),cut]
    simp [nonempty]

end PowGate
