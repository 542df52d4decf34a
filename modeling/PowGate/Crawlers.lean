import PowGate.Feeds
import PowGate.Crates

/-! Who counts as a verified crawler: the reverse name of the address lies in an allowed
domain and resolves back, or a fresh feed lists the address. Names are compared as texts,
which is a comparison of their labels. Addresses are compared in the form they arrive in,
so a client that comes through a dual-stack socket is not the one the lists name. -/
namespace PowGate

open Text Verdicts

/-- `trim_end_matches` and `trim_matches` with one byte. -/
def trimEndMatches (c : UInt8) (s : Bytes) : Bytes := (s.reverse.dropWhile (· = c)).reverse

def trimMatches (c : UInt8) (s : Bytes) : Bytes := trimEndMatches c (s.dropWhile (· = c))

def hostMatchesSuffix (host suffix : Bytes) : Bool :=
  let host := lower (trimEndMatches 46 (trim host))
  let suffix := lower (trimMatches 46 (trim suffix))
  if host = [] ∨ suffix = [] then false
  else host == suffix || (46 :: suffix).isSuffixOf host

/-- One name has to satisfy both the suffix and the forward check. -/
def fcrdnsConfirms (host : Bytes) (suffixes : List Bytes) (ip : IpAddr) (forward : Bytes → List IpAddr) : Bool :=
  suffixes.any (hostMatchesSuffix host) && (forward host).contains ip

/-- The resolver's job: the name of the address, then the check of that name. -/
def fcrdnsConfirm (reverse : IpAddr → Option Bytes) (forward : Bytes → List IpAddr) (ip : IpAddr)
    (suffixes : List Bytes) : Bool :=
  match reverse ip with
  | none => false
  | some host => fcrdnsConfirms host suffixes ip forward

section Labels

/-- The labels of a name end with those of another exactly when it is that name, or ends
with a dot and that name. -/
theorem labels_suffix_iff (sep : UInt8) (name domain : Bytes) :
    domain.splitOn sep <:+ name.splitOn sep ↔ name = domain ∨ sep :: domain <:+ name := by
  constructor
  · rintro ⟨front, parts⟩
    have joined := congrArg [sep].intercalate parts
    rw [List.intercalate_splitOn] at joined
    by_cases whole : front = []
    · subst whole
      rw [List.nil_append,List.intercalate_splitOn] at joined
      exact .inl joined.symm
    · rw [intercalate_append whole (List.splitOn_ne_nil _ _),List.intercalate_splitOn] at joined
      exact .inr ⟨[sep].intercalate front, by simpa using joined⟩
  · rintro (rfl | ⟨front, rfl⟩)
    · exact List.suffix_refl _
    · rw [List.splitOn_append_cons_self]
      exact List.suffix_append _ _

theorem hostMatchesSuffix_iff (host suffix : Bytes) : hostMatchesSuffix host suffix = true ↔
    lower (trimEndMatches 46 (trim host)) ≠ [] ∧ lower (trimMatches 46 (trim suffix)) ≠ [] ∧
    (lower (trimMatches 46 (trim suffix))).splitOn 46 <:+ (lower (trimEndMatches 46 (trim host))).splitOn 46 := by
  rw [labels_suffix_iff,hostMatchesSuffix]
  split
  · next missing =>
    simp only [Bool.false_eq_true,false_iff]
    rintro ⟨named, allowed, -⟩
    exact missing.elim named allowed
  · next present =>
    simp only [not_or] at present
    simp [present]

/-- Matching a name against a suffix is comparing lists of labels, and a confirmed address has
one name that lies in an allowed domain and resolves to it. -/
theorem suffix_respects_labels (host : Bytes) :
    (∀ suffix, hostMatchesSuffix host suffix = true ↔
      lower (trimEndMatches 46 (trim host)) ≠ [] ∧ lower (trimMatches 46 (trim suffix)) ≠ [] ∧
      (lower (trimMatches 46 (trim suffix))).splitOn 46 <:+
        (lower (trimEndMatches 46 (trim host))).splitOn 46) ∧
    ∀ suffixes ip forward, fcrdnsConfirms host suffixes ip forward = true →
      (∃ suffix ∈ suffixes, lower (trimEndMatches 46 (trim host)) ≠ [] ∧
        lower (trimMatches 46 (trim suffix)) ≠ [] ∧
        (lower (trimMatches 46 (trim suffix))).splitOn 46 <:+
          (lower (trimEndMatches 46 (trim host))).splitOn 46) ∧
      ip ∈ forward host := by
  refine ⟨hostMatchesSuffix_iff host, ?_⟩
  intro suffixes ip forward confirmed
  simp only [fcrdnsConfirms,Bool.and_eq_true,List.any_eq_true,List.contains_iff_mem] at confirmed
  obtain ⟨⟨suffix, allowed, matched⟩, answered⟩ := confirmed
  exact ⟨⟨suffix, allowed, (hostMatchesSuffix_iff host suffix).mp matched⟩, answered⟩

/-- The name of one crawler, with its only address. -/
theorem suffix_respects_labels_crawler :
    (ascii "googlebot.com").splitOn 46 <:+ (ascii "crawl.googlebot.com").splitOn 46 ∧
    IpAddr.v4 0x42f94201 ∈ [IpAddr.v4 0x42f94201] := by
  have confirmed : fcrdnsConfirms (ascii "crawl.googlebot.com") [ascii "googlebot.com"] (.v4 0x42f94201)
      (fun _ => [.v4 0x42f94201]) = true := by decide
  have labels := (suffix_respects_labels (ascii "crawl.googlebot.com")).1 (ascii "googlebot.com")
  exact ⟨(labels.mp (by decide)).2.2, ((suffix_respects_labels _).2 _ _ _ confirmed).2⟩

example : hostMatchesSuffix (ascii "Bot.GoogleBot.Com.") (ascii ".googlebot.com") = true ∧
    hostMatchesSuffix (ascii "evilgooglebot.com") (ascii "googlebot.com") = false := by decide

end Labels

section Families

/-- `::ffff:a.b.c.d`. -/
def IpAddr.mapped (a : BitVec 32) : IpAddr := .v6 (0xffff#128 <<< 32 ||| a.setWidth 128)

theorem unmap_mapped (a : BitVec 32) : (IpAddr.mapped a).unmap = .v4 a := by
  have high : (0xffff#128 <<< 32 ||| a.setWidth 128) >>> 32 = 0xffff := by
    apply BitVec.eq_of_getLsbD_eq
    intro i inside
    rw [BitVec.getLsbD_ushiftRight,BitVec.getLsbD_or,BitVec.getLsbD_shiftLeft,BitVec.getLsbD_setWidth,
      BitVec.getLsbD_of_ge a _ (by omega)]
    by_cases small : 32 + i < 128
    · simp [small]
    · have beyond : ∀ k : Fin 128, 96 ≤ k.val → (0xffff#128).getLsbD k.val = false := by decide
      have zero := beyond ⟨i, inside⟩ (by simp; omega)
      simp [small,zero]
  have low : (0xffff#128 <<< 32 ||| a.setWidth 128).setWidth 32 = a := by
    apply BitVec.eq_of_getLsbD_eq
    intro i inside
    rw [BitVec.getLsbD_setWidth,BitVec.getLsbD_or,BitVec.getLsbD_shiftLeft,BitVec.getLsbD_setWidth]
    simp [inside,show i < 128 by omega]
  simp only [IpAddr.mapped,IpAddr.unmap,toIpv4Mapped,high,low,if_true]

theorem network_mapped (policy : AddressPolicy) (a : BitVec 32) :
    policy.network (.mapped a) = policy.network (.v4 a) := by
  rw [AddressPolicy.network,AddressPolicy.network,unmap_mapped]
  rfl

namespace Feeds

/-- The range check of a verifier on the published snapshots. -/
def rangeCheck (v : Verifier) (loaded : List (Option FeedSnapshot)) (ip : IpAddr) (now : Nat) : Bool :=
  loaded.any fun feed => feed.any fun feed => feed.contains ip now v.maxStale

/-- Snapshots come from the answers of the sources; a source without a good answer has none. -/
def published (readFeed : Bytes → Option (List FeedPrefix)) (answers : List (Option (Response × Nat))) :
    List (Option FeedSnapshot) :=
  answers.map fun answer => answer.bind fun (response, at_) => fetch readFeed response at_

/-- Some answer that is still fresh lists a block around the address. -/
def Listed (readFeed : Bytes → Option (List FeedPrefix)) (v : Verifier) (answers : List (Option (Response × Nat)))
    (ip : IpAddr) (now : Nat) : Prop :=
  ∃ response at_, some (response, at_) ∈ answers ∧ now - at_ < v.maxStale ∧
    ∃ cidrs, response.listed readFeed = some cidrs ∧ ∃ cidr ∈ cidrs, cidr.Matches ip

theorem fetch_contains {readFeed : Bytes → Option (List FeedPrefix)} {v : Verifier} :
    ((fetch readFeed response at_).any fun feed => feed.contains ip now v.maxStale) = true ↔
      now - at_ < v.maxStale ∧ ∃ cidrs, response.listed readFeed = some cidrs ∧ ∃ cidr ∈ cidrs, cidr.Matches ip := by
  have spec := fetch_spec readFeed response at_
  cases found : response.listed readFeed with
  | none =>
    rw [found] at spec
    simp [spec]
  | some cidrs =>
    rw [found] at spec
    obtain ⟨ranges, parsed, denotes⟩ := spec
    simp only [parsed,Option.any_some,FeedSnapshot.contains,FeedSnapshot.fresh,FeedSnapshot.age,
      Bool.and_eq_true,denotes.contains_iff,Option.some.injEq,exists_eq_left']
    exact and_congr decide_eq_true_iff Iff.rfl

theorem rangeCheck_iff {readFeed : Bytes → Option (List FeedPrefix)} {v : Verifier}
    {answers : List (Option (Response × Nat))} :
    rangeCheck v (published readFeed answers) ip now = true ↔ Listed readFeed v answers ip now := by
  simp only [rangeCheck,published,List.any_map,List.any_eq_true,Function.comp_apply,Listed]
  constructor
  · rintro ⟨answer, member, inside⟩
    cases answer with
    | none => simp at inside
    | some answer =>
      obtain ⟨response, at_⟩ := answer
      exact ⟨response, at_, member, fetch_contains.mp inside⟩
  · rintro ⟨response, at_, member, inside⟩
    exact ⟨some (response, at_), member, fetch_contains.mpr inside⟩

/-- Once the lookup of the address has been answered, the verdict is the range check or the
confirmation. -/
theorem verifierResult_answered {v : Verifier} {verdicts : VerdictCache IpAddr}
    (answered : (begin verdicts ip begun).1 = .cached (fcrdnsConfirm reverse forward ip v.fcrdnsSuffixes)) :
    (verifierResult (some v) loaded reloaded verdicts ip now begun queued).1.1 =
      (rangeCheck v loaded ip now || fcrdnsConfirm reverse forward ip v.fcrdnsSuffixes) := by
  have cached : (fcrdnsCached verdicts ip begun queued).1 = fcrdnsConfirm reverse forward ip v.fcrdnsSuffixes := by
    unfold fcrdnsCached
    split
    · next looked => simpa [looked] using answered
    · next looked => simp [looked] at answered
    · next looked => simp [looked] at answered
  have looked : (if v.fcrdnsSuffixes ≠ [] then fcrdnsCached verdicts ip begun queued else (false, verdicts)).1 =
      fcrdnsConfirm reverse forward ip v.fcrdnsSuffixes := by
    split
    · exact cached
    · next none =>
      rw [Decidable.not_not] at none
      rw [none,fcrdnsConfirm]
      split <;> rfl
  unfold verifierResult
  change (if rangeCheck v loaded ip now = true then _ else _ : (Bool × Reason) × VerdictCache IpAddr).1.1 = _
  cases rangeCheck v loaded ip now with
  | true => rfl
  | false =>
    rw [Bool.false_or,← looked]
    rcases (if v.fcrdnsSuffixes ≠ [] then fcrdnsCached verdicts ip begun queued else (false, verdicts)) with
      ⟨confirmed, after⟩
    cases confirmed with
    | true => rfl
    | false =>
      simp only [Bool.false_eq_true,if_false]
      split <;> rfl

/-- What has to hold for an IPv4 client to be judged alike in both forms: a fresh feed lists the
one exactly when a fresh feed lists the other, and so do the answers for an allowed name. -/
structure Alike (readFeed : Bytes → Option (List FeedPrefix)) (v : Verifier)
    (answers : List (Option (Response × Nat))) (ptr : Option Bytes) (forward : Bytes → List IpAddr)
    (a : BitVec 32) (now : Nat) : Prop where
  feeds : Listed readFeed v answers (.v4 a) now ↔ Listed readFeed v answers (.mapped a) now
  names : ∀ host ∈ ptr, v.fcrdnsSuffixes.any (hostMatchesSuffix host) = true →
    (IpAddr.v4 a ∈ forward host ↔ IpAddr.mapped a ∈ forward host)

theorem confirm_eq_iff {reverse : IpAddr → Option Bytes} (forward : Bytes → List IpAddr) (suffixes : List Bytes)
    (same : reverse (.mapped a) = reverse (.v4 a)) :
    fcrdnsConfirm reverse forward (.v4 a) suffixes = fcrdnsConfirm reverse forward (.mapped a) suffixes ↔
      ∀ host ∈ reverse (.v4 a), suffixes.any (hostMatchesSuffix host) = true →
        (IpAddr.v4 a ∈ forward host ↔ IpAddr.mapped a ∈ forward host) := by
  unfold fcrdnsConfirm
  rw [same]
  cases reverse (.v4 a) with
  | none => simp
  | some host =>
    simp only [fcrdnsConfirms,Option.mem_some_iff,forall_eq']
    cases suffixes.any (hostMatchesSuffix host) with
    | false => simp
    | true =>
      rw [Bool.true_and,Bool.true_and,Bool.eq_iff_iff]
      simp

/-- Binding, range check, confirmation and the verdict once the lookups are answered are the same
for both forms of an address exactly when the lists and the answers treat both forms alike. -/
theorem families_alike_iff (readFeed : Bytes → Option (List FeedPrefix)) (v : Verifier)
    (answers : List (Option (Response × Nat))) (reverse : IpAddr → Option Bytes) (forward : Bytes → List IpAddr)
    (a : BitVec 32) (now : Nat) (same : reverse (.mapped a) = reverse (.v4 a)) :
    ((∀ (crates : Crates) (key userAgent scope issuer : Bytes) (policy : AddressPolicy),
        crates.binding key (.v4 a) userAgent scope issuer policy =
          crates.binding key (.mapped a) userAgent scope issuer policy) ∧
      rangeCheck v (published readFeed answers) (.v4 a) now = rangeCheck v (published readFeed answers) (.mapped a) now ∧
      fcrdnsConfirm reverse forward (.v4 a) v.fcrdnsSuffixes = fcrdnsConfirm reverse forward (.mapped a) v.fcrdnsSuffixes ∧
      ∀ (verdicts : VerdictCache IpAddr) (reloaded : List (Option FeedSnapshot)) (begun : Nat) (queued : Bool),
        (begin verdicts (.v4 a) begun).1 = .cached (fcrdnsConfirm reverse forward (.v4 a) v.fcrdnsSuffixes) →
        (begin verdicts (.mapped a) begun).1 = .cached (fcrdnsConfirm reverse forward (.mapped a) v.fcrdnsSuffixes) →
        (verifierResult (some v) (published readFeed answers) reloaded verdicts (.v4 a) now begun queued).1.1 =
          (verifierResult (some v) (published readFeed answers) reloaded verdicts (.mapped a) now begun queued).1.1) ↔
    Alike readFeed v answers (reverse (.v4 a)) forward a now := by
  have ranges : rangeCheck v (published readFeed answers) (.v4 a) now =
      rangeCheck v (published readFeed answers) (.mapped a) now ↔
      (Listed readFeed v answers (.v4 a) now ↔ Listed readFeed v answers (.mapped a) now) := by
    rw [← rangeCheck_iff,← rangeCheck_iff,Bool.eq_iff_iff]
  have names := confirm_eq_iff forward v.fcrdnsSuffixes same
  constructor
  · rintro ⟨-, listed, confirmed, -⟩
    exact ⟨ranges.mp listed, names.mp confirmed⟩
  · rintro ⟨feeds, answered⟩
    have listed := ranges.mpr feeds
    have confirmed := names.mpr answered
    refine ⟨?_, listed, confirmed, ?_⟩
    · intro crates key userAgent scope issuer policy
      rw [Crates.binding,Crates.binding,network_mapped]
    · intro verdicts reloaded begun queued first second
      rw [verifierResult_answered first,verifierResult_answered second,listed,confirmed]

/-- The feed of the sample, read at 1000. -/
def sampleAnswers : List (Option (Response × Nat)) := [some (.body sampleFeed, 1000)]

/-- 198.51.100.1 is on no list and has no name, in either form. -/
theorem families_alike_unlisted :
    rangeCheck sampleVerifier (published readSample sampleAnswers) (.v4 0xc6336401) 1001 =
      rangeCheck sampleVerifier (published readSample sampleAnswers) (.mapped 0xc6336401) 1001 := by
  have alike : Alike readSample sampleVerifier sampleAnswers none (fun _ => []) 0xc6336401 1001 := by
    refine ⟨?_, by simp⟩
    rw [← rangeCheck_iff,← rangeCheck_iff]
    decide +kernel
  exact ((families_alike_iff readSample sampleVerifier sampleAnswers (fun _ => none) (fun _ => []) 0xc6336401 1001
    rfl).mpr alike).2.1

/-- 192.0.2.7 is listed, and so verified on an IPv4 socket but not on a dual-stack one. The same
goes for a name whose address record is the IPv4 address. -/
theorem families_differ_listed :
    (verifierResult (some sampleVerifier) (published readSample sampleAnswers) [] (new 1 1 0) (.v4 0xc0000207)
      1001 1001 true).1.1 = true ∧
    (verifierResult (some sampleVerifier) (published readSample sampleAnswers) [] (new 1 1 0) (.mapped 0xc0000207)
      1001 1001 true).1.1 = false ∧
    fcrdnsConfirm (fun _ => some (ascii "crawl.googlebot.com")) (fun _ => [.v4 0xc0000207]) (.v4 0xc0000207)
      [ascii "googlebot.com"] = true ∧
    fcrdnsConfirm (fun _ => some (ascii "crawl.googlebot.com")) (fun _ => [.v4 0xc0000207]) (.mapped 0xc0000207)
      [ascii "googlebot.com"] = false := by
  decide +kernel

end Feeds

end Families

end PowGate
