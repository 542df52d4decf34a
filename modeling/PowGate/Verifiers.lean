import Mathlib.Data.Finmap
import PowGate.Feeds

/-! The `pow_gate_verifier` blocks of a configuration. A block is read line by line into a builder,
checked and registered under its name; what it means is what its lines say, directive by directive. -/
namespace PowGate.Verifiers

open Text

/-- A duration that `parse_time` accepts, in seconds. -/
abbrev Span := { seconds : Nat // 0 < seconds ∧ seconds ≤ 365 * 86400 }

def hours (n : Nat) (positive : 0 < n * 3600) (small : n * 3600 ≤ 365 * 86400) : Span := ⟨n * 3600, positive, small⟩

/-- The seconds of a unit, by its letter. -/
def unitOf : Option UInt8 → Option Nat
  | some 115 => some 1
  | some 109 => some 60
  | some 104 => some 3600
  | some 100 => some 86400
  | _ => none

def parseTime (text : Bytes) : Option Span := do
  let s := trim text
  let num := if (unitOf s.getLast?).isSome then s.dropLast else s
  let n ← parseU64 (trim num)
  let seconds := n.toNat * (unitOf s.getLast?).getD 1
  -- `checked_mul`
  if 2 ^ 64 ≤ seconds then none
  else if range : 0 < seconds ∧ seconds ≤ 365 * 86400 then some ⟨seconds, range⟩
  else none

example : (parseTime (ascii " 12h")).map Subtype.val = some 43200 ∧ parseTime (ascii "366d") = none := by decide

def arg (args : List Bytes) (i : Nat) : Option Bytes := args[i]?.map lossy

structure Builder where
  name : Bytes
  urls : List Bytes
  refresh : Span
  suffixes : List Bytes
  fcrdnsTtl : Span
  maxStale : Span

def Builder.new (name : Bytes) : Builder where
  name := name
  urls := []
  refresh := hours 12 (by decide) (by decide)
  suffixes := []
  fcrdnsTtl := hours 1 (by decide) (by decide)
  maxStale := hours 48 (by decide) (by decide)

def verifierInner (b : Builder) (args : List Bytes) : Option Builder :=
  match arg args 0 with
  | none => some b
  | some directive =>
    if directive = ascii "ip_ranges_url" then
      match arg args 1 with
      | some u => some { b with urls := b.urls ++ [u] }
      | none => some b
    else if directive = ascii "ip_ranges_max_stale" then
      ((arg args 1).bind parseTime).map fun t => { b with maxStale := t }
    else if directive = ascii "ip_ranges_refresh" then
      ((arg args 1).bind parseTime).map fun t => { b with refresh := t }
    else if directive = ascii "fcrdns_suffix" then
      some { b with suffixes := b.suffixes ++ (args.drop 1).map lossy }
    else if directive = ascii "fcrdns_ttl" then
      ((arg args 1).bind parseTime).map fun t => { b with fcrdnsTtl := t }
    else none

/-- The `Verifier` that is registered, without its snapshots and verdicts. -/
structure Settings where
  urls : List Bytes
  refresh : Span
  maxStale : Span
  suffixes : List Bytes
  fcrdnsTtl : Span
  few : urls.length ≤ 32
  kept : refresh.val ≤ maxStale.val

/-- What `verifier_result` reads of it, with the duration in nanoseconds. -/
def Settings.verifier (settings : Settings) : Feeds.Verifier where
  maxStale := settings.maxStale.val * 10 ^ 9
  urls := settings.urls
  fcrdnsSuffixes := settings.suffixes
  positive := Nat.mul_pos settings.maxStale.property.1 (by decide)

abbrev Registry := Finmap fun _ : Bytes => Settings

def Builder.build (b : Builder) : Option Settings :=
  if valid : b.urls.length ≤ 32 ∧ b.refresh.val ≤ b.maxStale.val then
    some ⟨b.urls, b.refresh, b.maxStale, b.suffixes, b.fcrdnsTtl, valid.1, valid.2⟩
  else none

def register (registry : Registry) (b : Builder) : Option Registry := b.build.map (registry.insert b.name)

/-- The words before the brace, and those of each line after it. -/
structure Block where
  args : List Bytes
  lines : List (List Bytes)

def powGateVerifierBlock (registry : Registry) (block : Block) : Option Registry := do
  let name ← arg block.args 1
  let b ← block.lines.foldlM verifierInner (.new name)
  register registry b

/-- The verifiers of a configuration. -/
def configured (blocks : List Block) : Option Registry := blocks.foldlM powGateVerifierBlock ∅

section Meaning

def hasDirective (directive : Bytes) (line : List Bytes) : Bool := arg line 0 = some directive

def timeOf (line : List Bytes) : Option Span := (arg line 1).bind parseTime

/-- A line that a block may have. -/
def readable (line : List Bytes) : Bool :=
  (arg line 0).isNone || hasDirective (ascii "ip_ranges_url") line || hasDirective (ascii "fcrdns_suffix") line ||
    [ascii "ip_ranges_max_stale", ascii "ip_ranges_refresh", ascii "fcrdns_ttl"].any fun directive =>
      hasDirective directive line && (timeOf line).isSome

/-- The last duration given for a directive, or its default. -/
def lastTime (directive : Bytes) (lines : List (List Bytes)) (default : Span) : Span :=
  ((lines.filter (hasDirective directive)).filterMap timeOf).getLastD default

def urlsOf (lines : List (List Bytes)) : List Bytes :=
  (lines.filter (hasDirective (ascii "ip_ranges_url"))).filterMap (arg · 1)

def suffixesOf (lines : List (List Bytes)) : List Bytes :=
  (lines.filter (hasDirective (ascii "fcrdns_suffix"))).flatMap fun line => (line.drop 1).map lossy

/-- A builder after these lines. -/
def Builder.extend (b : Builder) (lines : List (List Bytes)) : Builder where
  name := b.name
  urls := b.urls ++ urlsOf lines
  refresh := lastTime (ascii "ip_ranges_refresh") lines b.refresh
  suffixes := b.suffixes ++ suffixesOf lines
  fcrdnsTtl := lastTime (ascii "fcrdns_ttl") lines b.fcrdnsTtl
  maxStale := lastTime (ascii "ip_ranges_max_stale") lines b.maxStale

/-- What a block says, if it may be registered. -/
def Block.settings (block : Block) : Option Settings := do
  let name ← arg block.args 1
  if block.lines.all readable then ((Builder.new name).extend block.lines).build else none

/-- The same header, and the same lines for each directive in the same order. -/
structure Block.Alike (block block' : Block) : Prop where
  args : block.args = block'.args
  lines : ∀ directive, block.lines.filter (fun line => arg line 0 = directive) =
    block'.lines.filter fun line => arg line 0 = directive

variable {b c : Builder} {line : List Bytes} {lines : List (List Bytes)} {registry : Registry} {block block' : Block}

theorem lastTime_cons (directive : Bytes) (default : Span) : lastTime directive (line :: lines) default =
    lastTime directive lines (lastTime directive [line] default) := by
  unfold lastTime
  by_cases here : hasDirective directive line
  · simp only [List.filter_cons, here, if_true, List.filter_nil]
    cases timed : timeOf line with
    | none => simp [timed]
    | some t =>
      rw [List.filterMap_cons_some timed, List.filterMap_cons_some timed, List.getLastD_cons]
      rfl
  · simp [here]

theorem extend_cons : b.extend (line :: lines) = (b.extend [line]).extend lines := by
  have urls : urlsOf (line :: lines) = urlsOf [line] ++ urlsOf lines := by
    rw [urlsOf, urlsOf, urlsOf, ← List.filterMap_append, ← List.filter_append, List.singleton_append]
  have suffixes : suffixesOf (line :: lines) = suffixesOf [line] ++ suffixesOf lines := by
    rw [suffixesOf, suffixesOf, suffixesOf, ← List.flatMap_append, ← List.filter_append, List.singleton_append]
  simp only [Builder.extend, urls, suffixes, List.append_assoc, Builder.mk.injEq, true_and]
  exact ⟨lastTime_cons _ _, lastTime_cons _ _, lastTime_cons _ _⟩

/-- One line does what it says, or is refused. -/
theorem verifierInner_eq (b : Builder) (line : List Bytes) :
    verifierInner b line = if readable line then some (b.extend [line]) else none := by
  unfold verifierInner
  cases found : arg line 0 with
  | none => simp [readable, found, Builder.extend, urlsOf, suffixesOf, lastTime, hasDirective]
  | some directive =>
    have named (other : Bytes) : hasDirective other line = decide (directive = other) := by simp [hasDirective, found]
    have one (other : Bytes) : [line].filter (hasDirective other) = if directive = other then [line] else [] := by
      rw [List.filter_singleton, named]
      simp
    simp only [readable, found, Builder.extend, urlsOf, suffixesOf, lastTime, one, named, List.any_cons, List.any_nil]
    by_cases url : directive = ascii "ip_ranges_url"
    · subst url
      cases value : arg line 1 <;> simp +decide [value]
    by_cases stale : directive = ascii "ip_ranges_max_stale"
    · subst stale
      cases timed : timeOf line <;> simp_all +decide [timeOf]
    by_cases refresh : directive = ascii "ip_ranges_refresh"
    · subst refresh
      cases timed : timeOf line <;> simp_all +decide [timeOf]
    by_cases suffix : directive = ascii "fcrdns_suffix"
    · subst suffix
      simp +decide
    by_cases ttl : directive = ascii "fcrdns_ttl"
    · subst ttl
      cases timed : timeOf line <;> simp_all +decide [timeOf]
    · simp [url, stale, refresh, suffix, ttl]

theorem collect_eq (b : Builder) (lines : List (List Bytes)) :
    lines.foldlM verifierInner b = if lines.all readable then some (b.extend lines) else none := by
  induction lines generalizing b with
  | nil => simp [Builder.extend, urlsOf, suffixesOf, lastTime]
  | cons line rest ih =>
    rw [List.foldlM_cons, verifierInner_eq, List.all_cons]
    by_cases here : readable line
    · rw [if_pos here, Option.bind_eq_bind, Option.bind_some, ih, ← extend_cons, here, Bool.true_and]
    · simp [here]

/-- A block registers what it says under its name. -/
theorem block_eq (registry : Registry) (block : Block) : powGateVerifierBlock registry block =
    (arg block.args 1).bind fun name => block.settings.map (registry.insert name) := by
  unfold powGateVerifierBlock Block.settings
  cases named : arg block.args 1 with
  | none => rfl
  | some name =>
    simp only [Option.bind_eq_bind, Option.bind_some, collect_eq]
    split <;> rfl

theorem settings_named (said : block.settings.isSome = true) : (arg block.args 1).isSome = true := by
  unfold Block.settings at said
  cases named : arg block.args 1 with
  | none => simp [named] at said
  | some name => rfl

theorem block_isSome (registry : Registry) (block : Block) :
    (powGateVerifierBlock registry block).isSome = block.settings.isSome := by
  rw [block_eq]
  cases said : block.settings with
  | none => cases arg block.args 1 <;> rfl
  | some settings =>
    have accepted : block.settings.isSome = true := by
      rw [said]
      rfl
    obtain ⟨name, named⟩ := Option.isSome_iff_exists.mp (settings_named accepted)
    rw [named]
    rfl

/-- The blocks are all accepted or none is registered. -/
theorem register_isSome (registry : Registry) (blocks : List Block) :
    (blocks.foldlM powGateVerifierBlock registry).isSome = blocks.all fun block => block.settings.isSome := by
  induction blocks generalizing registry with
  | nil => rfl
  | cons block rest ih =>
    rw [List.foldlM_cons, List.all_cons, ← block_isSome registry block]
    cases powGateVerifierBlock registry block with
    | none => rfl
    | some next => exact ih next

/-- The last block of a name is the one that stays. -/
theorem register_lookup (blocks : List Block) {final : Registry}
    (registered : blocks.foldlM powGateVerifierBlock registry = some final) (name : Bytes) :
    final.lookup name = ((blocks.filter fun block => arg block.args 1 = some name).getLast?.bind Block.settings).or
      (registry.lookup name) := by
  induction blocks generalizing registry with
  | nil =>
    obtain rfl := Option.some.inj registered
    rfl
  | cons block rest ih =>
    obtain ⟨middle, first, later⟩ := Option.bind_eq_some_iff.mp registered
    rw [ih later]
    rw [block_eq, Option.bind_eq_some_iff] at first
    obtain ⟨own, named, first⟩ := first
    obtain ⟨settings, said, rfl⟩ := Option.map_eq_some_iff.mp first
    by_cases here : own = name
    · subst here
      rw [List.filter_cons_of_pos (by simp [named]), Finmap.lookup_insert]
      cases others : rest.filter fun block => arg block.args 1 = some own with
      | nil => simp [said]
      | cons other more =>
        -- A later block of the name was accepted too, so what it says replaces this one.
        have inside : (other :: more).getLast (List.cons_ne_nil _ _) ∈ rest := by
          have among : ∀ block ∈ other :: more, block ∈ rest := by
            rw [← others]
            exact fun block member => (List.mem_filter.mp member).1
          exact among _ (List.getLast_mem (List.cons_ne_nil other more))
        have accepted := register_isSome (registry.insert own settings) rest
        rw [later] at accepted
        obtain ⟨newer, replaced⟩ := Option.isSome_iff_exists.mp (List.all_eq_true.mp accepted.symm _ inside)
        rw [List.getLast?_cons_cons, List.getLast?_eq_some_getLast (List.cons_ne_nil _ _), Option.bind_some, replaced]
        rfl
    · rw [List.filter_cons_of_neg (by simp [named, here]), Finmap.lookup_insert_of_ne _ (Ne.symm here)]

theorem Block.Alike.mem (alike : block.Alike block') (inside : line ∈ block.lines) : line ∈ block'.lines := by
  have picked : line ∈ block.lines.filter fun other => arg other 0 = arg line 0 :=
    List.mem_filter.mpr ⟨inside, by simp⟩
  rw [alike.lines] at picked
  exact (List.mem_filter.mp picked).1

theorem Block.Alike.symm (alike : block.Alike block') : block'.Alike block :=
  ⟨alike.args.symm, fun directive => (alike.lines directive).symm⟩

theorem Block.Alike.settings (alike : block.Alike block') : block.settings = block'.settings := by
  have same (directive : Bytes) : block.lines.filter (hasDirective directive) = block'.lines.filter (hasDirective directive) :=
    alike.lines (some directive)
  have all : block.lines.all readable = block'.lines.all readable := by
    rw [Bool.eq_iff_iff, List.all_eq_true, List.all_eq_true]
    exact ⟨fun fine line inside => fine line (alike.symm.mem inside), fun fine line inside => fine line (alike.mem inside)⟩
  have extended (b : Builder) : b.extend block.lines = b.extend block'.lines := by
    simp only [Builder.extend, urlsOf, suffixesOf, lastTime, same]
  unfold Block.settings
  rw [alike.args, all]
  simp only [extended]

theorem register_alike (alike : List.Forall₂ Block.Alike blocks blocks') (registry : Registry) :
    blocks'.foldlM powGateVerifierBlock registry = blocks.foldlM powGateVerifierBlock registry := by
  induction alike generalizing registry with
  | nil => rfl
  | cons here _ ih =>
    rw [List.foldlM_cons, List.foldlM_cons, block_eq, block_eq, here.args, here.settings]
    simp only [ih]

end Meaning

/-- Only a name that is not registered is an unknown one. -/
theorem verifierResult_unknown (found : Option Feeds.Verifier) (loaded reloaded : List (Option FeedSnapshot))
    (verdicts : Verdicts.VerdictCache IpAddr) (ip : IpAddr) (now begun : Nat) (queued : Bool) :
    (Feeds.verifierResult found loaded reloaded verdicts ip now begun queued).1.2 = .unknownVerifier ↔ found = none := by
  unfold Feeds.verifierResult
  cases found with
  | none => simp
  | some v =>
    simp only [reduceCtorEq, iff_false]
    repeat' split
    all_goals simp

/-- A configuration is accepted exactly if each of its blocks is, and the verifier of a name is then
what the last block of that name says, directive by directive: all its URLs and suffixes in order,
and of each duration the last one given. A name is unknown to a decision exactly if no block has it,
and lines of different directives can stand in any order. -/
theorem verifier_blocks_mean (blocks : List Block) :
    ((configured blocks).isSome = true ↔ ∀ block ∈ blocks, block.settings.isSome = true) ∧
    (∀ registry, configured blocks = some registry → ∀ name,
      registry.lookup name = (blocks.filter fun block => arg block.args 1 = some name).getLast?.bind Block.settings ∧
      ∀ loaded reloaded verdicts ip now begun queued,
        (Feeds.verifierResult ((registry.lookup name).map Settings.verifier) loaded reloaded verdicts ip now begun
          queued).1.2 = .unknownVerifier ↔ ∀ block ∈ blocks, arg block.args 1 ≠ some name) ∧
    ∀ blocks', List.Forall₂ Block.Alike blocks blocks' → configured blocks' = configured blocks := by
  have accepted : (configured blocks).isSome = true ↔ ∀ block ∈ blocks, block.settings.isSome = true := by
    rw [configured, register_isSome, List.all_eq_true]
  refine ⟨accepted, ?_, ?_⟩
  · intro registry registered name
    have last : registry.lookup name =
        (blocks.filter fun block => arg block.args 1 = some name).getLast?.bind Block.settings := by
      rw [register_lookup blocks registered name, Finmap.lookup_empty, Option.or_none]
    refine ⟨last, ?_⟩
    intro loaded reloaded verdicts ip now begun queued
    rw [verifierResult_unknown, Option.map_eq_none_iff, last]
    constructor
    · intro missing block inside named
      have picked : block ∈ blocks.filter fun block => arg block.args 1 = some name :=
        List.mem_filter.mpr ⟨inside, by simp [named]⟩
      have some_ := List.ne_nil_of_mem picked
      have said := accepted.mp (by rw [registered]; rfl) _ (List.mem_filter.mp (List.getLast_mem some_)).1
      rw [List.getLast?_eq_some_getLast some_, Option.bind_some] at missing
      rw [missing] at said
      cases said
    · intro absent
      have none_ : blocks.filter (fun block => arg block.args 1 = some name) = [] := by
        rw [List.filter_eq_nil_iff]
        intro block inside
        simpa using absent block inside
      rw [none_]
      rfl
  · exact fun blocks' alike => register_alike alike ∅

example : ((configured [⟨[ascii "pow_gate_verifier", ascii "bot"], [[ascii "ip_ranges_refresh", ascii "90m"],
    [ascii "ip_ranges_url", ascii "a"], [ascii "ip_ranges_refresh", ascii "2h"], [ascii "ip_ranges_url", ascii "b"]]⟩]).bind
      (·.lookup (ascii "bot"))).map (fun settings => (settings.urls, settings.refresh.val)) =
        some ([ascii "a", ascii "b"], 7200) := by decide +kernel

end PowGate.Verifiers
