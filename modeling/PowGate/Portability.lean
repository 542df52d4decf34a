import Mathlib.Algebra.Order.Group.Abs
import Mathlib.Algebra.Order.Group.Int
import PowGate.ClearanceChecks
import PowGate.ClusterSafety
import PowGate.Flows

/-! Credentials in a fleet that shares its configuration and one Redis. The script compares a
node's clock with Redis TIME, but a clearance and a grant are dated by the node that made them
and checked against the clock of the node they are shown to. -/
namespace PowGate

open Text

/-- The clocks of a fleet, in whole seconds: what Redis and each node read at an instant. -/
structure Clocks (Instant Node : Type) (config : Cluster.Config) where
  redis : Instant → Int
  node : Node → Instant → Int64
  reading : ∀ n i, ClockReading (node n i)
  /-- The tolerance of the script. -/
  near : ∀ n i, |redis i - (node n i).toInt| ≤ config.skew.toInt

section Nodes

variable {Instant Node : Type} {config : Cluster.Config} (clocks : Clocks Instant Node config)

/-- Two nodes are at most twice the tolerance apart. -/
theorem Clocks.apart (a b : Node) (i j : Instant) :
    clocks.redis j - clocks.redis i - 2 * config.skew.toInt ≤ (clocks.node b j).toInt - (clocks.node a i).toInt ∧
      (clocks.node b j).toInt - (clocks.node a i).toInt ≤ clocks.redis j - clocks.redis i + 2 * config.skew.toInt := by
  have first := abs_le.mp (clocks.near a i)
  have second := abs_le.mp (clocks.near b j)
  omega

end Nodes

namespace Nojs

/-- An issued token of acceptable length is refused before its time and after its grace, and at no other time. -/
theorem verify_issue_bad {crates : Crates} (lawful : crates.Lawful) (ascii : IsAscii context)
    (range : 1 ≤ delay ∧ delay ≤ 30) (short : (issue crates key random path delay iat context).length ≤ 8192) :
    verify crates key (issue crates key random path delay iat context) now context = .bad ↔
      now.toInt < iat.toInt ∨ iat.toInt + 120 ≤ now.toInt := by
  constructor
  · intro refused
    by_contra inside
    rw [verify_issue lawful ascii range short (by omega) (by omega)] at refused
    split at refused
    · cases refused
    · cases refused
  · intro outside
    rw [verify_eq (issue_authentic lawful ascii short)]
    by_contra passed
    have admissible := judge_admissible passed
    have begun : iat.toInt ≤ now.toInt := Int64.le_iff_toInt_le.mp admissible.begun
    have fresh : now.toInt - iat.toInt < 120 := admissible.fresh
    omega

end Nojs

/-- Between two clock readings, an expiry that has not passed is no wrapped sum. -/
theorem lifetime_young (issued : ClockReading iat) (checked : ClockReading now) (unexpired : now < iat + ttl) :
    now.toInt - iat.toInt < ttl.toInt := by
  have low := issued.range
  have high := checked.range
  have bounds := Int64.le_toInt ttl
  have limit := Int64.toInt_lt ttl
  rw [Int64.lt_iff_toInt_lt,Int64.toInt_add] at unexpired
  by_cases within : iat.toInt + ttl.toInt < 2 ^ 63
  · rw [Int.bmod_eq_of_le (by omega) (by omega)] at unexpired
    omega
  · omega

section Portability

variable {Instant Node : Type} {config : Cluster.Config} (clocks : Clocks Instant Node config) (crates : Crates)
  (lawful : crates.Lawful) (issuer : Option Digest) (r : Request) (cfg : Cfg) (context : Bytes)
  (bound : clientContext crates issuer r cfg = some context) (a b : Node)

include lawful bound

/-- Until it expires, a clearance of another node is refused only while this node's clock is behind the issue. -/
theorem clearance_portable {pk : Bytes} {assurance required : Assurance} {minted checked : Instant}
    (shape : Clearance.KeyShape pk assurance) (satisfied : assurance.satisfies required = true)
    (unexpired : clocks.node b checked < clocks.node a minted + cfg.clearanceTtl) :
    (Clearance.verify crates cfg.key
      (Clearance.issue crates cfg.key pk context assurance (clocks.node a minted) cfg.clearanceTtl) context required
      (clocks.node b checked) cfg.clearanceTtl).isSome ↔ clocks.node a minted ≤ clocks.node b checked := by
  have plain := clientContext_plain bound
  have text : IsText context := IsAscii.isText fun c member => (plain c member).2
  have young := lifetime_young (clocks.reading a minted) (clocks.reading b checked) unexpired
  have size : pk.length ≤ 65 := by
    cases assurance with
    | pow difficulty => exact Nat.le_of_eq shape.1
    | noJs delay =>
      rw [shape]
      exact Nat.zero_le 65
  have short : (Clearance.issue crates cfg.key pk context assurance (clocks.node a minted) cfg.clearanceTtl).length ≤
      4096 := Clearance.issue_short size (clientContext_length bound) fun c member => (plain c member).1
  rw [Clearance.verify_issue_isSome lawful text]
  constructor
  · intro accepted
    exact accepted.2.2.2.1.1
  · intro begun
    have order := Int64.le_iff_toInt_le.mp begun
    have zero : Int64.toInt 0 = 0 := by decide
    have positive : 0 < cfg.clearanceTtl := Int64.lt_iff_toInt_lt.mpr (by rw [zero]; omega)
    exact ⟨short, rfl, satisfied, ⟨begun, unexpired⟩, positive, young, shape⟩

/-- The grace of a grant, less what the two clocks can differ, is left on every node. -/
theorem grant_portable {random : Vector UInt8 16} {path : Bytes} {delay : Int64} {issued checked : Instant}
    (range : 1 ≤ delay ∧ delay ≤ 30)
    (short : (Nojs.issue crates cfg.key random path delay (clocks.node a issued) context).length ≤ 8192)
    (soon : clocks.redis checked < clocks.redis issued + (120 - 2 * config.skew.toInt)) :
    Nojs.verify crates cfg.key (Nojs.issue crates cfg.key random path delay (clocks.node a issued) context)
      (clocks.node b checked) context = .bad ↔ clocks.node b checked < clocks.node a issued := by
  have ascii : IsAscii context := fun c member => (clientContext_plain bound c member).2
  have apart := clocks.apart a b issued checked
  rw [Nojs.verify_issue_bad lawful ascii range short,Int64.lt_iff_toInt_lt]
  omega

/-- Credentials of one node hold on another from the moment its clock has reached their date, at the latest twice
the tolerance after they were made. -/
theorem credentials_portable :
    (∀ made checked, clocks.redis made + 2 * config.skew.toInt ≤ clocks.redis checked →
      clocks.node a made ≤ clocks.node b checked) ∧
    (∀ pk assurance required minted checked, Clearance.KeyShape pk assurance →
      assurance.satisfies required = true → clocks.node a minted ≤ clocks.node b checked →
      clocks.node b checked < clocks.node a minted + cfg.clearanceTtl →
      (Clearance.verify crates cfg.key
        (Clearance.issue crates cfg.key pk context assurance (clocks.node a minted) cfg.clearanceTtl) context required
        (clocks.node b checked) cfg.clearanceTtl).isSome = true) ∧
    ∀ random path delay issued checked, 1 ≤ delay ∧ delay ≤ 30 →
      (Nojs.issue crates cfg.key random path delay (clocks.node a issued) context).length ≤ 8192 →
      clocks.node a issued ≤ clocks.node b checked →
      clocks.redis checked < clocks.redis issued + (120 - 2 * config.skew.toInt) →
      Nojs.verify crates cfg.key (Nojs.issue crates cfg.key random path delay (clocks.node a issued) context)
        (clocks.node b checked) context ≠ .bad := by
  refine ⟨?_, ?_, ?_⟩
  · intro made checked later
    have apart := clocks.apart a b made checked
    rw [Int64.le_iff_toInt_le]
    omega
  · intro pk assurance required minted checked shape satisfied begun unexpired
    exact (clearance_portable clocks crates lawful issuer r cfg context bound a b shape satisfied unexpired).mpr begun
  · intro random path delay issued checked range short begun soon refused
    have behind := (grant_portable clocks crates lawful issuer r cfg context bound a b range short soon).mp refused
    rw [Int64.le_iff_toInt_le] at begun
    rw [Int64.lt_iff_toInt_lt] at behind
    omega

end Portability

section Drift

/-- Two instants ten seconds apart, a node that is five seconds fast and one that is five seconds slow. -/
def drifted : Clocks Bool Bool Cluster.narrow where
  redis later := if later then 1700000010 else 1700000000
  node fast later := Runtime.now (some ((if later then 1700000010 else 1700000000) + (if fast then 5 else 0) -
    (if fast then 0 else 5)))
  reading fast later := by
    refine ⟨some _, ?_, rfl⟩
    rintro _ ⟨⟩
    cases fast <;> cases later <;> decide
  near fast later := by cases fast <;> cases later <;> decide

theorem reference_grant_short
    (bound : clientContext Reference.crates Reference.worker.issuer (Reference.request (ascii "/")) Reference.cfg =
      some context) (fast later : Bool) :
    (Nojs.issue Reference.crates Reference.cfg.key (Vector.replicate 16 0) (ascii "/") 2 (drifted.node fast later)
      context).length ≤ 8192 := by
  rw [Nojs.issue_length (clientContext_length bound) fun c member => (clientContext_plain bound c member).1]
  cases fast <;> cases later <;> decide +kernel

/-- At the moment they are made by the fast node, the slow one refuses a clearance and judges a grant bad. -/
theorem credentials_refused_behind : ∃ context,
    clientContext Reference.crates Reference.worker.issuer (Reference.request (ascii "/")) Reference.cfg =
      some context ∧
    drifted.node false false < drifted.node true false + Reference.cfg.clearanceTtl ∧
    Clearance.verify Reference.crates Reference.cfg.key
      (Clearance.issue Reference.crates Reference.cfg.key [] context (.noJs 2) (drifted.node true false)
        Reference.cfg.clearanceTtl) context (.noJs 2) (drifted.node false false) Reference.cfg.clearanceTtl = none ∧
    Nojs.verify Reference.crates Reference.cfg.key
      (Nojs.issue Reference.crates Reference.cfg.key (Vector.replicate 16 0) (ascii "/") 2 (drifted.node true false)
        context) (drifted.node false false) context = .bad := by
  obtain ⟨context, bound⟩ := reference_context
  have behind : ¬drifted.node true false ≤ drifted.node false false := by decide
  have unexpired : drifted.node false false < drifted.node true false + Reference.cfg.clearanceTtl := by decide
  have shape : Clearance.KeyShape [] (.noJs 2) := rfl
  have short := reference_grant_short bound true false
  have soon : drifted.redis false < drifted.redis false + (120 - 2 * Cluster.narrow.skew.toInt) := by decide
  refine ⟨context, bound, unexpired, ?_, ?_⟩
  · rw [← Option.not_isSome_iff_eq_none,clearance_portable drifted Reference.crates Reference.lawful _ _ _ context bound
      true false shape (by decide) unexpired]
    exact behind
  · exact (grant_portable drifted Reference.crates Reference.lawful _ _ _ context bound true false
      ⟨by decide, by decide⟩ short soon).mpr (Int64.not_le.mp behind)

/-- Ten seconds later the slow node has caught up and takes both. -/
theorem credentials_portable_later : ∃ context,
    clientContext Reference.crates Reference.worker.issuer (Reference.request (ascii "/")) Reference.cfg =
      some context ∧
    (Clearance.verify Reference.crates Reference.cfg.key
      (Clearance.issue Reference.crates Reference.cfg.key [] context (.noJs 2) (drifted.node true false)
        Reference.cfg.clearanceTtl) context (.noJs 2) (drifted.node false true)
        Reference.cfg.clearanceTtl).isSome = true ∧
    Nojs.verify Reference.crates Reference.cfg.key
      (Nojs.issue Reference.crates Reference.cfg.key (Vector.replicate 16 0) (ascii "/") 2 (drifted.node true false)
        context) (drifted.node false true) context ≠ .bad := by
  obtain ⟨context, bound⟩ := reference_context
  obtain ⟨caught, cleared, granted⟩ := credentials_portable drifted Reference.crates Reference.lawful _ _ _ context bound
    true false
  have begun := caught false true (by decide)
  refine ⟨context, bound, ?_, ?_⟩
  · exact cleared [] (.noJs 2) (.noJs 2) false true rfl (by decide) begun (by decide)
  · exact granted _ _ _ _ _ ⟨by decide, by decide⟩ (reference_grant_short bound true false) begun (by decide)

end Drift

end PowGate
