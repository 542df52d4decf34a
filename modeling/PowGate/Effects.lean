import Mathlib.Data.List.Basic

/-! Computations that work on a state and may throw. What such a computation does is said by a
relation between the states before and after it, or, for a state that keeps a log, by a property of
its result and the stretch of log that it adds. -/
namespace PowGate.Effects

variable {σ ε α β ev : Type}

/-- What was done to the state before something is thrown stays done. -/
def Effect (σ ε α : Type) := σ → Except ε α × σ

namespace Effect

protected def pure (a : α) : Effect σ ε α := fun s => (.ok a, s)

protected def bind (m : Effect σ ε α) (f : α → Effect σ ε β) : Effect σ ε β := fun s =>
  match m s with
  | (.ok a, t) => f a t
  | (.error e, t) => (.error e, t)

instance instMonad : Monad (Effect σ ε) where
  pure := Effect.pure
  bind := Effect.bind

def raise (e : ε) : Effect σ ε α := fun s => (.error e, s)

/-- The `try` around `m`: its outcome becomes the result. -/
def caught (m : Effect σ ε α) : Effect σ ε (Except ε α) := fun s => (.ok (m s).1, (m s).2)

def look (f : σ → α) : Effect σ ε α := fun s => (.ok (f s), s)

def change (f : σ → σ) : Effect σ ε Unit := fun s => (.ok (), f s)

theorem bind_ok {m : Effect σ ε α} {f : α → Effect σ ε β} {s t : σ} {a : α} (ran : m s = (.ok a, t)) : (m >>= f) s = f a t := by
  change Effect.bind m f s = f a t
  rw [Effect.bind, ran]

theorem bind_error {m : Effect σ ε α} {f : α → Effect σ ε β} {s t : σ} {e : ε} (ran : m s = (.error e, t)) :
    (m >>= f) s = (.error e, t) := by
  change Effect.bind m f s = (.error e, t)
  rw [Effect.bind, ran]

theorem of_bind_ok {m : Effect σ ε α} {f : α → Effect σ ε β} {s u : σ} {b : β} (ran : (m >>= f) s = (.ok b, u)) :
    ∃ a t, m s = (.ok a, t) ∧ f a t = (.ok b, u) := by
  change Effect.bind m f s = (.ok b, u) at ran
  unfold Effect.bind at ran
  split at ran
  next a t same => exact ⟨a, t, same, ran⟩
  · cases ran

theorem caught_eq {m : Effect σ ε α} {s t : σ} {r : Except ε α} (ran : m s = (r, t)) : caught m s = (.ok r, t) := by
  rw [caught, ran]

end Effect

/-- `m` moves the state along the relation, whatever comes out. -/
def Moves (R : σ → σ → Prop) (m : Effect σ ε α) : Prop := ∀ s, R s (m s).2

section Relations

variable {R : σ → σ → Prop} {m : Effect σ ε α}

theorem Moves.pure [Std.Refl R] (a : α) : Moves R (Pure.pure a : Effect σ ε α) := fun s => Std.Refl.refl s

theorem Moves.raise [Std.Refl R] (e : ε) : Moves R (Effect.raise e : Effect σ ε α) := fun s => Std.Refl.refl s

theorem Moves.look [Std.Refl R] (f : σ → α) : Moves R (Effect.look f : Effect σ ε α) := fun s => Std.Refl.refl s

theorem Moves.bind [IsTrans σ R] {f : α → Effect σ ε β} (first : Moves R m) (second : ∀ a, Moves R (f a)) :
    Moves R (m >>= f) := by
  intro s
  have before := first s
  change R s (Effect.bind m f s).2
  unfold Effect.bind
  rcases same : m s with ⟨e | a, t⟩
  · rwa [same] at before
  · rw [same] at before
    exact IsTrans.trans _ _ _ before (second a t)

theorem Moves.raise_bind [Std.Refl R] {f : α → Effect σ ε β} (e : ε) : Moves R (Effect.raise e >>= f) :=
  fun s => Std.Refl.refl s

theorem Moves.caught (moves : Moves R m) : Moves R (Effect.caught m) := moves

end Relations

/-- The stretch of log that `m` adds and its result have the property. -/
def Emits (log : σ → List ev) (property : List ev → Except ε α → Prop) (m : Effect σ ε α) : Prop :=
  ∀ s, ∃ added, log (m s).2 = log s ++ added ∧ property added (m s).1

section Logs

variable {log : σ → List ev} {m : Effect σ ε α} {S S' : List ev → Except ε α → Prop}

theorem Emits.mono (emits : Emits log S m) (weaker : ∀ added r, S added r → S' added r) : Emits log S' m := by
  intro s
  obtain ⟨added, grown, held⟩ := emits s
  exact ⟨added, grown, weaker _ _ held⟩

theorem Emits.pure {a : α} (nothing : S [] (.ok a)) : Emits log S (Pure.pure a : Effect σ ε α) :=
  fun _ => ⟨[], (List.append_nil _).symm, nothing⟩

theorem Emits.raise {e : ε} (nothing : S [] (.error e)) : Emits log S (Effect.raise e : Effect σ ε α) :=
  fun _ => ⟨[], (List.append_nil _).symm, nothing⟩

theorem Emits.bind {f : α → Effect σ ε β} {Q : List ev → Except ε β → Prop} (first : Emits log S m)
    (thrown : ∀ added e, S added (.error e) → Q added (.error e))
    (returned : ∀ added a, S added (.ok a) → Emits log (fun more r => Q (added ++ more) r) (f a)) :
    Emits log Q (m >>= f) := by
  intro s
  obtain ⟨added, grown, held⟩ := first s
  change ∃ added, log (Effect.bind m f s).2 = _ ∧ Q added (Effect.bind m f s).1
  unfold Effect.bind
  rcases same : m s with ⟨e | a, t⟩
  · rw [same] at grown held
    exact ⟨added, grown, thrown _ _ held⟩
  · rw [same] at grown held
    obtain ⟨more, grown', held'⟩ := returned added a held t
    exact ⟨added ++ more, by rw [grown', grown, List.append_assoc], held'⟩

theorem Emits.look_bind {f : α → Effect σ ε β} {Q : List ev → Except ε β → Prop} {g : σ → α}
    (later : ∀ s, Emits log Q (f (g s))) : Emits log Q (Effect.look g >>= f) := fun s => later s s

theorem Emits.raise_bind {f : α → Effect σ ε β} {Q : List ev → Except ε β → Prop} {e : ε} (nothing : Q [] (.error e)) :
    Emits log Q (Effect.raise e >>= f) := fun _ => ⟨[], (List.append_nil _).symm, nothing⟩

theorem Emits.caught (emits : Emits log S m) :
    Emits log (fun added r => ∃ outcome, r = .ok outcome ∧ S added outcome) (Effect.caught m) := by
  intro s
  obtain ⟨added, grown, held⟩ := emits s
  exact ⟨added, grown, _, rfl, held⟩

end Logs

end PowGate.Effects
