import PowGate.NojsPages

/-! A location whose HMAC key is missing or too short. Every endpoint refuses to work with such a
key, and no clearance is trusted; the no-JS branch of the gate is the one place that does not look
whether the key is usable. -/
namespace PowGate

open Text

section Closed

variable {w : Worker} {r : Request} {cfg : Cfg} {t : Readings} {lc : LocationConf}

theorem checkClearance_unusable (unusable : cfg.keyOk = false) (required : Assurance) (now : Int64) :
    checkClearance w r cfg required now = .invalid := by
  rw [checkClearance,if_pos unusable]

theorem clientContext_isSome : (clientContext w.crates w.issuer r cfg).isSome = true ↔
    w.issuer.isSome = true ∧ r.ip.isSome = true ∧ (cfg.scope.forHost r.server).isSome = true ∧
      cfg.address.valid = true := by
  unfold clientContext
  cases w.issuer with
  | none => simp
  | some issuer =>
    cases r.ip with
    | none => simp
    | some ip =>
      cases cfg.scope.forHost r.server with
      | none => simp
      | some scope => simp [Crates.binding,AddressPolicy.network]

/-- The request comes to the no-JS branch of the gate, and the client can be told apart. -/
structure AsksForWait (w : Worker) (r : Request) (cfg : Cfg) (lc : LocationConf) : Prop where
  outside : endpointSuffix r cfg = none
  untrusted : r.isTrusted lc.trusted = false
  decided : ∃ delay, Decision.parse (r.evalComplexValue lc.decision) = .challengeNoJs delay
  up : ¬ (w.clusterEnabled = true ∧ ¬ w.clusterAvailable = true)
  client : w.issuer.isSome = true ∧ r.ip.isSome = true ∧ (cfg.scope.forHost r.server).isSome = true ∧
    cfg.address.valid = true

/-- With an unusable key the branch serves a page with a fresh grant. -/
theorem AsksForWait.served (asks : AsksForWait w r cfg lc) (enabled : lc.enabled = true) (unusable : cfg.keyOk = false) :
    ∃ delay context, Decision.parse (r.evalComplexValue lc.decision) = .challengeNoJs delay ∧
      powGateAccess w r cfg t lc = .nojsPage lc.nojsPageCache (Nojs.newGrant t.random r.unparsedUri delay t.last context)
        (passUrl cfg (Nojs.text w.crates cfg.key (Nojs.newGrant t.random r.unparsedUri delay t.last context))) delay
        (noStore []) := by
  obtain ⟨delay, decided⟩ := asks.decided
  obtain ⟨context, bound⟩ := Option.isSome_iff_exists.mp (clientContext_isSome.mpr asks.client)
  have unseen := checkClearance_unusable (w := w) (r := r) unusable (.noJs delay) t.clock
  exact ⟨delay, context, decided, access_waits enabled asks.outside asks.untrusted decided unseen asks.up bound rfl⟩

theorem b64url_no_brace (bytes : Bytes) : 123 ∉ b64url bytes := by
  intro member
  obtain ⟨n, small, symbol⟩ := Base64.encode_alphabet bytes 123 member
  have other : ∀ k : Fin 64, Base64.symbol k.val ≠ 123 := by decide
  exact other ⟨n, small⟩ symbol.symm

end Closed

section Sample

/-- The key file of the location cannot be read, so the key is empty. -/
def unreadable : Cfg := buildCfg (fun _ => none) Reference.location

end Sample

end PowGate
