import PowGate.Address
import PowGate.ClearanceToken
import PowGate.Nojs
import PowGate.Pow
import PowGate.Reference

/-! What is authenticated under the server key. The four texts that are MACed are told apart by
their first byte and determine their arguments; a client context determines the client's
network, its User-Agent and the policy it was made for. -/
namespace PowGate

open Text

/-- A byte string in memory: no slice is longer than the largest signed size. -/
structure Slice where
  bytes : Bytes
  fits : bytes.length < 2 ^ 63

theorem Slice.ext {a b : Slice} (same : a.bytes = b.bytes) : a = b := by
  cases a
  cases b
  cases same
  rfl

section Framing

/-- A length within 64 bits is recovered from its eight bytes. -/
theorem be64_injective (small : n < 2 ^ 64) (small' : m < 2 ^ 64) (same : be64 n = be64 m) : n = m := by
  have digit : ∀ i < 8, n / 256 ^ i % 256 = m / 256 ^ i % 256 := by
    intro i inside
    have found := congrArg (fun bytes => (bytes[7 - i]?).map UInt8.toNat) same
    simpa [be64,show 7 - i < 8 by omega,show 7 - (7 - i) = i by omega] using found
  have upper : ∀ i ≤ 8, n / 256 ^ (8 - i) = m / 256 ^ (8 - i) := by
    intro i
    induction i with
    | zero =>
      intro _
      have wide : 256 ^ (8 - 0) = 2 ^ 64 := by decide
      rw [wide,Nat.div_eq_of_lt small,Nat.div_eq_of_lt small']
    | succ i ih =>
      intro inside
      have above := ih (by omega)
      have here := digit (8 - (i + 1)) (by omega)
      rw [show 8 - i = 8 - (i + 1) + 1 by omega,Nat.pow_succ,← Nat.div_div_eq_div_mul,
        ← Nat.div_div_eq_div_mul] at above
      omega
  simpa using upper 8 (Nat.le_refl 8)

/-- The first field is read off by its length. -/
theorem framed_cons_inj {a b : Bytes} {rest more : List Bytes} (fits : a.length < 2 ^ 64) (fits' : b.length < 2 ^ 64)
    (same : framed (a :: rest) = framed (b :: more)) : a = b ∧ framed rest = framed more := by
  simp only [framed,List.flatMap_cons,List.append_assoc] at same
  obtain ⟨lengths, same⟩ := List.append_inj same (by rw [be64_length,be64_length])
  exact List.append_inj same (be64_injective fits fits' lengths)

theorem contextMessage_injective {network network' : IpAddr} {userAgent userAgent' scope scope' issuer issuer' : Slice}
    {policy policy' : AddressPolicy}
    (same : contextMessage network userAgent.bytes scope.bytes issuer.bytes policy =
      contextMessage network' userAgent'.bytes scope'.bytes issuer'.bytes policy') :
    network = network' ∧ userAgent = userAgent' ∧ scope = scope' ∧ issuer = issuer' ∧ policy = policy' := by
  have text : ∀ ip : IpAddr, ip.text.length < 2 ^ 64 := fun ip => Nat.lt_of_le_of_lt ip.text_length (by decide)
  have slice : ∀ s : Slice, s.bytes.length < 2 ^ 64 := fun s => Nat.lt_trans s.fits (by decide)
  have pair : ∀ a b : UInt8, [a, b].length < 2 ^ 64 := fun _ _ => by simp
  have label : (ascii "pow-gate-context-v2").length < 2 ^ 64 := by decide
  obtain ⟨_, same⟩ := framed_cons_inj label label same
  obtain ⟨networks, same⟩ := framed_cons_inj (text network) (text network') same
  obtain ⟨agents, same⟩ := framed_cons_inj (slice userAgent) (slice userAgent') same
  obtain ⟨scopes, same⟩ := framed_cons_inj (slice scope) (slice scope') same
  obtain ⟨issuers, same⟩ := framed_cons_inj (slice issuer) (slice issuer') same
  obtain ⟨prefixes, _⟩ := framed_cons_inj (pair _ _) (pair _ _) same
  simp only [List.cons.injEq,and_true] at prefixes
  refine ⟨IpAddr.text_injective networks, Slice.ext agents, Slice.ext scopes, Slice.ext issuers, ?_⟩
  cases policy
  cases policy'
  simpa using prefixes

end Framing

/-- An input of the MAC under the server key, by the function that makes it. -/
inductive MacInput where
  | challenge (salt : Bytes) (exp : Int64) (difficulty : UInt64) (pk bound : Bytes)
  | clearance (payload : Bytes)
  | grant (payload : Bytes)
  | context (network : IpAddr) (userAgent scope issuer : Slice) (address : AddressPolicy)

def MacInput.encode : MacInput → Bytes
  | .challenge salt exp difficulty pk bound => Pow.binding salt exp difficulty pk bound
  | .clearance payload => Clearance.macInput payload
  | .grant payload => Nojs.macInput payload
  | .context network userAgent scope issuer address =>
    contextMessage network userAgent.bytes scope.bytes issuer.bytes address

/-- The first byte tells the four encoders apart. -/
def MacInput.label : MacInput → UInt8
  | .challenge .. => 91
  | .clearance _ => 112
  | .grant _ => 110
  | .context .. => 0

theorem MacInput.encode_head (input : MacInput) : input.encode.head? = some input.label := by
  cases input with
  | challenge => rfl
  | clearance payload => rfl
  | grant payload => rfl
  | context network userAgent scope issuer address => exact contextMessage_head _ _ _ _ _

theorem MacInput.encode_injective {a b : MacInput} (same : a.encode = b.encode) : a = b := by
  have labels : a.label = b.label := by
    have heads := congrArg List.head? same
    rw [a.encode_head,b.encode_head] at heads
    exact Option.some.inj heads
  cases a with
  | challenge salt exp difficulty pk bound =>
    cases b with
    | challenge salt' exp' difficulty' pk' bound' =>
      obtain ⟨rfl, rfl, rfl, rfl, rfl⟩ := Pow.binding_injective same
      rfl
    | clearance | grant | context => cases labels
  | clearance payload =>
    cases b with
    | clearance payload' => rw [List.append_cancel_left same]
    | challenge | grant | context => cases labels
  | grant payload =>
    cases b with
    | grant payload' => rw [List.append_cancel_left same]
    | challenge | clearance | context => cases labels
  | context network userAgent scope issuer address =>
    cases b with
    | context network' userAgent' scope' issuer' address' =>
      obtain ⟨rfl, rfl, rfl, rfl, rfl⟩ := contextMessage_injective same
      rfl
    | challenge | clearance | grant => cases labels

/-- Two inputs of the MAC are the same bytes only when one encoder made both from the same fields. -/
theorem mac_inputs_injective (a b : MacInput) : a.encode = b.encode ↔ a = b :=
  ⟨MacInput.encode_injective, congrArg MacInput.encode⟩

section Networks

/-- Two addresses agree on their first bits. -/
def Agree (length : Nat) (x y : BitVec w) : Prop := ∀ i < length, x.getMsbD i = y.getMsbD i

/-- The clients a policy does not tell apart: one family, and the bits its prefix keeps. -/
def AddressPolicy.SameNetwork (policy : AddressPolicy) (a b : IpAddr) : Prop :=
  match a.unmap, b.unmap with
  | .v4 x, .v4 y => Agree policy.ipv4Prefix.toNat x y
  | .v6 x, .v6 y => Agree policy.ipv6Prefix.toNat x y
  | _, _ => False

/-- What masking keeps. -/
theorem getMsbD_mask (bits : BitVec w) (length i : Nat) :
    (bits &&& BitVec.allOnes w <<< (w - length)).getMsbD i = (decide (i < length) && bits.getMsbD i) := by
  by_cases inside : i < w
  · by_cases low : i < length
    · have kept : i + (w - length) < w := by omega
      simp [low,kept]
    · have lost : ¬i + (w - length) < w := by omega
      simp [low,lost]
  · simp [BitVec.getMsbD_of_ge _ _ (Nat.le_of_not_lt inside)]

theorem mask_eq_iff (bits bits' : BitVec w) (length : Nat) :
    bits &&& BitVec.allOnes w <<< (w - length) = bits' &&& BitVec.allOnes w <<< (w - length) ↔
      Agree length bits bits' := by
  constructor
  · intro same i low
    have bit := congrArg (fun b => BitVec.getMsbD b i) same
    simp only [getMsbD_mask,low,decide_true,Bool.true_and] at bit
    exact bit
  · intro agree
    apply BitVec.eq_of_getMsbD_eq
    intro i _
    rw [getMsbD_mask,getMsbD_mask]
    by_cases low : i < length
    · rw [agree i low]
    · simp [low]

theorem mask_mask (bits : BitVec w) (length : Nat) :
    bits &&& BitVec.allOnes w <<< (w - length) &&& BitVec.allOnes w <<< (w - length) =
      bits &&& BitVec.allOnes w <<< (w - length) := by
  rw [BitVec.and_assoc,BitVec.and_self]

/-- A short prefix clears a bit of the `ffff` group, a long one keeps the group and all before it. -/
theorem mask_unmapped (unmapped : toIpv4Mapped bits = none) (length : Nat) :
    toIpv4Mapped (bits &&& BitVec.allOnes 128 <<< (128 - length)) = none := by
  have other : bits >>> 32 ≠ 0xffff := by
    intro mapped
    simp [toIpv4Mapped,mapped] at unmapped
  refine if_neg fun mapped => ?_
  by_cases long : 96 ≤ length
  · apply other
    rw [← mapped]
    apply BitVec.eq_of_getMsbD_eq
    intro i inside
    rw [BitVec.getMsbD_ushiftRight,BitVec.getMsbD_ushiftRight,getMsbD_mask]
    simp [show i - 32 < length by omega]
  · have bit := congrArg (fun b => BitVec.getMsbD b 127) mapped
    simp only [BitVec.getMsbD_ushiftRight,getMsbD_mask,show ¬127 - 32 < length by omega,decide_false,
      Bool.false_and,Bool.and_false] at bit
    exact absurd bit (by decide)

theorem unmap_network {policy : AddressPolicy} (found : policy.network ip = some network) : network.unmap = network := by
  unfold AddressPolicy.network at found
  split at found
  · cases found
    cases shape : ip.unmap with
    | v4 bits => rfl
    | v6 bits =>
      have unmapped : toIpv4Mapped bits = none := by
        cases ip with
        | v4 => simp [IpAddr.unmap] at shape
        | v6 original =>
          simp only [IpAddr.unmap] at shape
          split at shape
          · cases shape
          · next unmapped =>
            cases shape
            exact unmapped
      simp only [IpAddr.unmap,mask_unmapped unmapped]
  · cases found

/-- A network is its own network. -/
theorem AddressPolicy.network_idempotent (policy : AddressPolicy) (ip : IpAddr) :
    (policy.network ip).bind policy.network = policy.network ip := by
  cases found : policy.network ip with
  | none => rfl
  | some network =>
    have fixed := unmap_network found
    unfold AddressPolicy.network at found ⊢
    split at found
    · next valid =>
      rw [Option.bind_some,if_pos valid,fixed]
      cases found
      cases ip.unmap with
      | v4 bits => simp only [mask_mask]
      | v6 bits => simp only [mask_mask]
    · cases found

theorem AddressPolicy.network_none {policy : AddressPolicy} : policy.network ip = none ↔ policy.valid = false := by
  unfold AddressPolicy.network
  cases policy.valid <;> simp

/-- A valid policy keeps at least one bit, so each mask shifts by less than the width. -/
theorem AddressPolicy.shifts {policy : AddressPolicy} (valid : policy.valid = true) :
    (policy.ipv4Prefix.toNat ≤ 32 ∧ 32 - policy.ipv4Prefix.toNat < 32) ∧
      policy.ipv6Prefix.toNat ≤ 128 ∧ 128 - policy.ipv6Prefix.toNat < 128 := by
  simp only [AddressPolicy.valid,Bool.and_eq_true,decide_eq_true_eq,UInt8.le_iff_toNat_le,UInt8.toNat_ofNat] at valid
  omega

theorem AddressPolicy.network_eq_iff {policy : AddressPolicy} (valid : policy.valid = true) :
    policy.network ip = policy.network ip' ↔ policy.SameNetwork ip ip' := by
  unfold AddressPolicy.network AddressPolicy.SameNetwork
  rw [if_pos valid,if_pos valid,Option.some.injEq]
  cases ip.unmap with
  | v4 bits =>
    cases ip'.unmap with
    | v4 bits' => rw [IpAddr.v4.injEq,mask_eq_iff]
    | v6 bits' => simp
  | v6 bits =>
    cases ip'.unmap with
    | v4 bits' => simp
    | v6 bits' => rw [IpAddr.v6.injEq,mask_eq_iff]

theorem AddressPolicy.network_unmapped {policy : AddressPolicy} (valid : policy.valid = true)
    (unmapped : toIpv4Mapped bits = none) :
    ∃ masked, policy.network (.v6 bits) = some (.v6 masked) ∧ toIpv4Mapped masked = none := by
  refine ⟨_, ?_, mask_unmapped unmapped policy.ipv6Prefix.toNat⟩
  simp only [AddressPolicy.network,IpAddr.unmap,unmapped,valid,if_true]

end Networks

section Context

variable (crates : Crates) (key : Bytes) (ip ip' : IpAddr) (userAgent userAgent' scope scope' issuer issuer' : Slice)
  (policy policy' : AddressPolicy)

/-- Contexts are MACs, so they are compared under the assumption that these two messages do not collide. -/
def Collides (message message' : Bytes) : Prop :=
  message ≠ message' ∧ crates.hmacSha256 key message = crates.hmacSha256 key message'

theorem binding_none : crates.binding key ip userAgent.bytes scope.bytes issuer.bytes policy = none ↔
    policy.valid = false := by
  rw [Crates.binding,Option.map_eq_none_iff,AddressPolicy.network_none]

theorem binding_eq_iff (valid : policy.valid = true) (valid' : policy'.valid = true)
    (secure : ∀ network ∈ policy.network ip, ∀ network' ∈ policy'.network ip', ¬Collides crates key
      (contextMessage network userAgent.bytes scope.bytes issuer.bytes policy)
      (contextMessage network' userAgent'.bytes scope'.bytes issuer'.bytes policy')) :
    crates.binding key ip userAgent.bytes scope.bytes issuer.bytes policy =
        crates.binding key ip' userAgent'.bytes scope'.bytes issuer'.bytes policy' ↔
      userAgent = userAgent' ∧ scope = scope' ∧ issuer = issuer' ∧ policy = policy' ∧ policy.SameNetwork ip ip' := by
  constructor
  · intro same
    cases found : policy.network ip with
    | none => simp [AddressPolicy.network_none.mp found] at valid
    | some network =>
      cases found' : policy'.network ip' with
      | none => simp [AddressPolicy.network_none.mp found'] at valid'
      | some network' =>
        simp only [Crates.binding,found,found',Option.map_some,Option.some.injEq] at same
        have digests := crates.tag_inj same
        have messages := not_not.mp fun differ => secure network found network' found' ⟨differ, digests⟩
        obtain ⟨networks, rfl, rfl, rfl, rfl⟩ := contextMessage_injective messages
        refine ⟨rfl, rfl, rfl, rfl, (AddressPolicy.network_eq_iff valid).mp ?_⟩
        rw [found,found',networks]
  · rintro ⟨rfl, rfl, rfl, rfl, near⟩
    rw [Crates.binding,Crates.binding,(AddressPolicy.network_eq_iff valid).mpr near]

/-- A context stands for one User-Agent, one scope, one issuer and one network under one policy. -/
theorem context_binding_exact (valid : policy.valid = true) (valid' : policy'.valid = true)
    (secure : ∀ network ∈ policy.network ip, ∀ network' ∈ policy'.network ip', ¬Collides crates key
      (contextMessage network userAgent.bytes scope.bytes issuer.bytes policy)
      (contextMessage network' userAgent'.bytes scope'.bytes issuer'.bytes policy')) :
    (crates.binding key ip userAgent.bytes scope.bytes issuer.bytes policy =
        crates.binding key ip' userAgent'.bytes scope'.bytes issuer'.bytes policy' ↔
      userAgent = userAgent' ∧ scope = scope' ∧ issuer = issuer' ∧ policy = policy' ∧ policy.SameNetwork ip ip') ∧
    (∀ (policy : AddressPolicy) (ip : IpAddr), (policy.network ip).bind policy.network = policy.network ip) ∧
    (∀ policy : AddressPolicy, policy.valid = true → ∀ bits, toIpv4Mapped bits = none →
      ∃ masked, policy.network (.v6 bits) = some (.v6 masked) ∧ toIpv4Mapped masked = none) ∧
    (∀ policy : AddressPolicy, policy.valid = true →
      (policy.ipv4Prefix.toNat ≤ 32 ∧ 32 - policy.ipv4Prefix.toNat < 32) ∧
        policy.ipv6Prefix.toNat ≤ 128 ∧ 128 - policy.ipv6Prefix.toNat < 128) ∧
    ∀ (ip : IpAddr) (userAgent scope issuer : Slice) (policy : AddressPolicy),
      crates.binding key ip userAgent.bytes scope.bytes issuer.bytes policy = none ↔ policy.valid = false := by
  refine ⟨?_, ?_, ?_, ?_, ?_⟩
  · exact binding_eq_iff crates key ip ip' userAgent userAgent' scope scope' issuer issuer' policy policy' valid valid'
      secure
  · exact AddressPolicy.network_idempotent
  · exact fun policy valid bits unmapped => AddressPolicy.network_unmapped valid unmapped
  · exact fun policy valid => AddressPolicy.shifts valid
  · exact fun ip userAgent scope issuer policy => binding_none crates key ip userAgent scope issuer policy

/-- Two hosts of `192.0.2.0/24` are one client, also when one comes through a dual-stack socket. -/
theorem context_binding_exact_mapped :
    let client : Slice := ⟨ascii "agent", by decide⟩
    let policy : AddressPolicy := ⟨24, 64⟩
    Reference.crates.binding [1] (.v4 0xc0000207) client.bytes client.bytes client.bytes policy =
      Reference.crates.binding [1] (.v6 0xffffc0000209) client.bytes client.bytes client.bytes policy := by
  intro client policy
  have one : policy.network (.v4 0xc0000207) = policy.network (.v6 0xffffc0000209) := by decide
  refine (context_binding_exact Reference.crates [1] (.v4 0xc0000207) (.v6 0xffffc0000209) client client client client
    client client policy policy (by decide) (by decide) ?_).1.mpr ⟨rfl, rfl, rfl, rfl, ?_⟩
  · intro network found network' found' collides
    rw [one,found'] at found
    cases found
    exact collides.1 rfl
  · exact (AddressPolicy.network_eq_iff (by decide)).mp one

end Context

end PowGate
