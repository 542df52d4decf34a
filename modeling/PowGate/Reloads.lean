import PowGate.Visits

/-! The loads of one tab after each other. A page that was cleared leaves, and if the page it leaves
for is challenged again the same happens once more; the marker that `navigationCount` keeps for the
tab bounds how often. -/
namespace PowGate.Visits

open Text Effects Effect

/-- The loads of a tab, each with what the one before has stored. -/
def visits (tab : Tab) : List Load → List World
  | [] => []
  | load :: rest =>
    let w := visit load tab
    w :: visits w.tab rest

/-- What `navigationCount` returns before it is asked to count. -/
def counted (load : Load) (now : Int) (tab : Tab) : Nat := ((marker load now tab).map Marker.count).getD 0

section Loads

variable {load : Load} {w u : World} {tab : Tab}

theorem navigationCount_false {n : Nat} (ran : navigationCount load false w = (.ok n, u)) (few : n < 3) :
    u = w ∧ counted load (load.turns w.pos).dateNow w.tab < 3 := by
  unfold navigationCount at ran
  unfold counted
  split at ran
  next none_ =>
    cases ran
    exact ⟨rfl, by rw [none_]; decide⟩
  next m some_ =>
    rw [if_neg (by decide)] at ran
    split at ran
    · cases ran
      omega
    · cases ran
      exact ⟨rfl, by rw [some_]; exact few⟩

/-- The tab stays as it is while time goes on. -/
def Keeps (s t : World) : Prop := t.tab = s.tab ∧ s.pos ≤ t.pos

instance instReflKeeps : Std.Refl Keeps := ⟨fun _ => ⟨rfl, Nat.le_refl _⟩⟩

instance instTransKeeps : IsTrans World Keeps :=
  ⟨fun _ _ _ first second => ⟨second.1.trans first.1, first.2.trans second.2⟩⟩

theorem steps_keep (load : Load) : Steps load Keeps where
  wait := fun w => by
    unfold wait
    dsimp only
    split <;> exact ⟨rfl, Nat.le_succ _⟩
  send := fun r w => by
    rw [send_eq]
    split <;> exact ⟨rfl, Nat.le_refl _⟩
  emit := fun event _ w => ⟨rfl, Nat.le_refl _⟩

/-- A load that gets through has found a count below three and left one more. -/
theorem verification_tab (done : verification load w = (.ok (), u)) :
    counted load (load.turns w.pos).dateNow w.tab < 3 ∧
      ∃ p, w.pos ≤ p ∧ u.tab = bump load (load.turns p).dateNow w.tab := by
  unfold verification at done
  obtain ⟨n, w₁, looked, rest⟩ := of_bind_ok done
  split at rest
  · cases rest
  next few =>
    obtain ⟨rfl, low⟩ := navigationCount_false looked (by omega)
    obtain ⟨turn, w₂, waited, rest⟩ := of_bind_ok rest
    have kept := (steps_keep load).wait w₁
    rw [waited] at kept
    rcases known : turn.key with e | pubRaw
    · rw [known] at rest
      cases rest
    · rw [known] at rest
      obtain ⟨ok, w₃, tried, rest⟩ := of_bind_ok rest
      have kept' := (steps_keep load).attempts pubRaw 3 w₂
      rw [tried] at kept'
      split at rest
      · obtain ⟨_, w₄, wrote, rest⟩ := of_bind_ok rest
        obtain ⟨m, written⟩ := navigationCount_true load w₃
        have last := congrArg Prod.snd (wrote.symm.trans written)
        dsimp only at last
        have kept'' := (steps_keep load).depart w₄
        rw [rest] at kept''
        refine ⟨low, w₃.pos, kept.2.trans kept'.2, ?_⟩
        rw [kept''.1, last, kept'.1, kept.1]
      · cases rest

/-- A page that did not get through is not left. -/
theorem verification_exits (load : Load) :
    Emits World.log (fun added result => result ≠ .ok () → exits added = []) (verification load) := by
  unfold verification
  refine Emits.bind (emits_navigationCount load false) (fun _ _ ⟨_, _, same⟩ => by cases same) ?_
  rintro added count ⟨rfl, -⟩
  split
  · exact Emits.raise fun _ => rfl
  refine wait_bind fun idle n quiet => ?_
  split
  · refine Emits.raise fun _ => ?_
    simpa using quiet.exits
  next pubRaw _ =>
    refine Emits.bind (emits_attempts load pubRaw 3) (fun tried e held _ => ?_) fun tried ok held => ?_
    · simp [quiet.exits, held.1.stays]
    · split
      · exact (emits_leave load).mono fun _ _ done undone => absurd done.2 undone
      · refine Emits.raise fun _ => ?_
        simp [quiet.exits, held.1.stays]

theorem visit_tab (left : exits (visit load tab).log ≠ []) :
    counted load (load.turns 0).dateNow tab < 3 ∧ ∃ p, (visit load tab).tab = bump load (load.turns p).dateNow tab := by
  obtain ⟨added, grown, stays⟩ := verification_exits load ⟨0, false, [], tab⟩
  rcases ran : verification load ⟨0, false, [], tab⟩ with ⟨e | ⟨⟩, u⟩
  · exfalso
    apply left
    rw [ran] at grown stays
    have none_ : exits u.log = [] := by
      rw [grown]
      exact stays nofun
    unfold visit run
    rw [bind_ok (caught_eq ran)]
    change exits ((if (!u.stopped) = true then emit (.failed e) else pure ()) u).2.log = []
    split
    · change exits (u.log ++ [.failed e]) = []
      rw [exits_append, none_]
      rfl
    · exact none_
  · obtain ⟨low, p, -, written⟩ := verification_tab ran
    refine ⟨low, p, ?_⟩
    unfold visit run
    rw [bind_ok (caught_eq ran)]
    exact written

end Loads

/-- The device's clock over the loads of a tab: between `first` and `last`, and never set back. -/
structure Ticking (first last : Int) (loads : List Load) : Prop where
  within : ∀ load ∈ loads, ∀ i, first ≤ (load.turns i).dateNow ∧ (load.turns i).dateNow ≤ last
  ordered : ∀ load ∈ loads, ∀ i j, i ≤ j → (load.turns i).dateNow ≤ (load.turns j).dateNow
  apart : loads.Pairwise fun a b => ∀ i j, (a.turns i).dateNow ≤ (b.turns j).dateNow

theorem Ticking.tail {first last : Int} {load : Load} {loads : List Load} (ticking : Ticking first last (load :: loads)) (p : Nat) :
    Ticking (load.turns p).dateNow last loads where
  within := fun later member i => ⟨List.rel_of_pairwise_cons ticking.apart member p i,
    (ticking.within later (List.mem_cons_of_mem _ member) i).2⟩
  ordered := fun later member => ticking.ordered later (List.mem_cons_of_mem _ member)
  apart := ticking.apart.of_cons

section Markers

variable {storage : Storage} {tab : Tab} {load : Load} {loads : List Load}

end Markers

/-- Storage that can be read but not written does not work in this sense: the count goes to
`window.name` and is never looked for there, and any number of loads leave within one moment. -/
theorem reloads_unrated (n : Nat) (name : WindowName) :
    ∀ w ∈ visits ⟨none, name⟩ (List.replicate n (tired ⟨true, false⟩)), exits w.log ≠ [] := by
  induction n generalizing name with
  | zero => nofun
  | succ n ih =>
    rw [List.replicate_succ, visits]
    have log := tired_visit ⟨true, false⟩ ⟨none, name⟩ rfl
    have left : exits (visit (tired ⟨true, false⟩) ⟨none, name⟩).log ≠ [] := by
      rw [log, exits_append]
      simp [Event.isExit]
    obtain ⟨-, p, written⟩ := visit_tab left
    have unread : ∃ name', (visit (tired ⟨true, false⟩) ⟨none, name⟩).tab = ⟨none, name'⟩ := by
      rw [written]
      cases name <;> exact ⟨_, rfl⟩
    obtain ⟨name', unread⟩ := unread
    intro w member
    rcases List.mem_cons.mp member with same | later
    · rw [same]
      exact left
    · apply ih name' w
      rw [← unread]
      exact later

end PowGate.Visits
