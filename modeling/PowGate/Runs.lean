import Mathlib.Data.List.Basic

/-! Finite executions of a labelled step relation, with the two rules every
state machine of the development is verified by: an invariant survives a whole
run, and an action that a persistent mark forbids happens at most once. -/
namespace PowGate.Runs

variable {S E : Type*}

/-- A finite execution together with the label of each of its steps, in order. -/
inductive Run (step : S → E → S → Prop) : S → List E → S → Prop where
  | nil : Run step s [] s
  | cons : step s label middle → Run step middle labels final →
      Run step s (label :: labels) final

variable {step : S → E → S → Prop}

theorem Run.append (first : Run step s front middle) (second : Run step middle back final) :
    Run step s (front ++ back) final := by
  induction first with
  | nil => exact second
  | cons taken _ ih => exact .cons taken (ih second)

/-- A run over a concatenation passes through an intermediate state. -/
theorem Run.split {front back : List E} (run : Run step s (front ++ back) final) :
    ∃ middle, Run step s front middle ∧ Run step middle back final := by
  induction front generalizing s with
  | nil => exact ⟨s, .nil, run⟩
  | cons label front ih =>
    cases run with
    | cons taken rest =>
      obtain ⟨middle, before, after⟩ := ih rest
      exact ⟨middle, .cons taken before, after⟩

/-- Where each step has one outcome, so has a run. -/
theorem Run.deterministic (run : Run step s labels final) (again : Run step s labels other)
    (single : ∀ s label t u, step s label t → step s label u → t = u) : final = other := by
  induction run with
  | nil =>
    cases again
    rfl
  | cons taken _ ih =>
    cases again with
    | cons taken' rest =>
      obtain rfl := single _ _ _ _ taken taken'
      exact ih rest

theorem Run.invariant (property : S → Prop)
    (preserved : ∀ s label t, property s → step s label t → property t)
    (run : Run step s labels final) (initial : property s) : property final := by
  induction run with
  | nil => exact initial
  | cons taken _ ih => exact ih (preserved _ _ _ initial taken)

theorem Run.snoc (run : Run step s labels middle) (taken : step middle label final) :
    Run step s (labels ++ [label]) final :=
  run.append (.cons taken .nil)

/-- An invariant of the runs whose labels are all of one kind. -/
theorem Run.invariant_of (property : S → Prop) (kind : E → Prop)
    (preserved : ∀ s label t, property s → kind label → step s label t → property t)
    (run : Run step s labels final) (all : ∀ label ∈ labels, kind label) (initial : property s) : property final := by
  induction run with
  | nil => exact initial
  | cons taken _ ih =>
    obtain ⟨first, rest⟩ := List.forall_mem_cons.mp all
    exact ih rest (preserved _ _ _ initial first taken)

/-- An invariant that also speaks of the labels so far. -/
theorem Run.history (property : List E → S → Prop) (initial : property [] s)
    (preserved : ∀ past s label t, property past s → step s label t → property (past ++ [label]) t)
    (run : Run step s labels final) : property labels final := by
  have extend : ∀ past middle rest, property past middle → Run step middle rest final →
      property (past ++ rest) final := by
    intro past middle rest known later
    induction later generalizing past with
    | nil => simpa using known
    | cons taken _ ih => simpa using ih run (past ++ [_]) (preserved _ _ _ _ known taken)
  simpa using extend [] s labels initial run

/-- Where a partial transition function gets with these labels. -/
def follow (next : S → E → Option S) (s : S) : List E → Option S
  | [] => some s
  | label :: labels => (next s label).bind fun middle => follow next middle labels

theorem follow_run {next : S → E → Option S} (followed : follow next s labels = some final) :
    Run (fun s label t => next s label = some t) s labels final := by
  induction labels generalizing s with
  | nil =>
    obtain rfl := Option.some.inj followed
    exact .nil
  | cons label labels ih =>
    obtain ⟨middle, taken, rest⟩ := Option.bind_eq_some_iff.mp followed
    exact .cons taken (ih rest)

section AtMostOnce

variable (property : S → Prop) (marked : S → Prop) (fires : E → Bool)

/-- Once the mark is set no later step fires. -/
theorem Run.marked_never
    (preserved : ∀ s label t, property s → step s label t → property t)
    (kept : ∀ s label t, property s → marked s → step s label t → marked t)
    (blocked : ∀ s label t, property s → marked s → step s label t → fires label = false)
    (run : Run step s labels final) (initial : property s) (mark : marked s) :
    labels.countP fires = 0 := by
  induction run with
  | nil => rfl
  | cons taken _ ih =>
    have quiet := blocked _ _ _ initial mark taken
    simpa [quiet] using ih (preserved _ _ _ initial taken) (kept _ _ _ initial mark taken)

/-- A firing step sets the mark, the mark is never lost, and a marked state
cannot fire: so a run fires at most once. -/
theorem Run.at_most_once
    (preserved : ∀ s label t, property s → step s label t → property t)
    (sets : ∀ s label t, property s → step s label t → fires label = true → marked t)
    (kept : ∀ s label t, property s → marked s → step s label t → marked t)
    (blocked : ∀ s label t, property s → marked s → step s label t → fires label = false)
    (run : Run step s labels final) (initial : property s) : labels.countP fires ≤ 1 := by
  induction run with
  | nil => simp
  | @cons _ label _ _ _ taken rest ih =>
    have next := preserved _ _ _ initial taken
    cases fired : fires label with
    | false => simpa [fired] using ih next
    | true =>
      have later := rest.marked_never property marked fires preserved kept blocked next
        (sets _ _ _ initial taken fired)
      simp [fired,later]

end AtMostOnce

end PowGate.Runs
