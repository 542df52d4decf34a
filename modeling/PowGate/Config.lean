import PowGate.Rewriting
import PowGate.Runtime

/-! Location configuration: inheritance, validation at startup and the resolved
values a worker uses. An enabled gate starts only with a positive difficulty and
lifetime and a usable key. Memory for the merged values is always available here. -/
namespace PowGate

open Text

/-- The directives of one block; an unset number is `none`, an unset string empty. -/
structure Directives where
  enabled : Option Bool
  trusted : Option ComplexValue
  decision : Option ComplexValue
  pagePath : Bytes
  nojsPagePath : Bytes
  difficulty : Option UInt64
  hmacKeyFile : Bytes
  clearanceTtl : Option Int64
  proofSkew : Option Int64
  requireProof : Option Bool
  ipv4Prefix : Option UInt64
  ipv6Prefix : Option UInt64
  policy : Bytes
  endpoint : Bytes
  replay : Option Bool
  replayMaxBody : Option Nat
  cookieName : Bytes
  cookieScopeSuffix : Option Bool
  cookieDomain : Bytes
  cookiePath : Bytes
  cookieSamesite : Bytes
  cookieSecure : Option Bool
  cookieHttponly : Option Bool

/-- The merged configuration of a location. -/
structure LocationConf where
  enabled : Bool
  trusted : Option ComplexValue
  decision : Option ComplexValue
  pageCache : Bytes
  nojsPageCache : Bytes
  difficulty : UInt64
  hmacKeyFile : Bytes
  clearanceTtl : Int64
  proofSkew : Int64
  requireProof : Bool
  ipv4Prefix : UInt64
  ipv6Prefix : UInt64
  policy : Bytes
  endpoint : Bytes
  replay : Bool
  replayMaxBody : Nat
  cookieEffectiveName : Bytes
  cookieDomain : Bytes
  cookiePath : Bytes
  cookieSamesite : Bytes
  cookieSecure : Bool
  cookieHttponly : Bool

/-- What startup reads: files, and the assets compiled into the module. -/
structure Startup where
  readFile : Bytes → Option Bytes
  defaultPage : Bytes
  defaultNojsPage : Bytes
  solverJs : Bytes

def minHmacKeyLen : Nat := 16

/-- `merge_flag`, `merge_uint`, `merge_size` and `merge_sec`. -/
def mergeValue (conf prev : Option α) (default : α) : α := (conf.orElse fun _ => prev).getD default

/-- `merge_str`. -/
def mergeStr (conf prev default : Bytes) : Bytes :=
  if conf ≠ [] then conf else if prev ≠ [] then prev else default

/-- Replaces every occurrence, left to right. -/
def replaceAllFrom (needle replacement : Bytes) : Nat → Bytes → Bytes
  | 0, _ => []
  | _, [] => []
  | fuel + 1, c :: rest =>
    match stripPrefix needle (c :: rest) with
    | some after => replacement ++ replaceAllFrom needle replacement fuel after
    | none => c :: replaceAllFrom needle replacement fuel rest

def replaceAll (haystack needle replacement : Bytes) : Bytes :=
  replaceAllFrom needle replacement haystack.length haystack

theorem stripPrefix_eq (start s : Bytes) : stripPrefix start s = if start <+: s then some (s.drop start.length) else none := by
  split
  · next here =>
    obtain ⟨rest, rfl⟩ := here
    rw [stripPrefix_append,List.drop_left]
  · next absent =>
    cases found : stripPrefix start s with
    | none => rfl
    | some rest => exact absurd ⟨rest, (stripPrefix_some found).symm⟩ absent

theorem replaceAll_substitute (haystack needle replacement : Bytes) :
    replaceAll haystack needle replacement = Rewriting.substitute [(needle, replacement)] haystack := by
  have all : ∀ fuel haystack, replaceAllFrom needle replacement fuel haystack =
      Rewriting.substituteFrom [(needle, replacement)] fuel haystack := by
    intro fuel
    induction fuel with
    | zero => exact fun _ => rfl
    | succ fuel ih =>
      intro haystack
      cases haystack with
      | nil => rfl
      | cons c rest =>
        rw [replaceAllFrom,Rewriting.substituteFrom,stripPrefix_eq,Rewriting.first]
        dsimp only
        split
        · next after found =>
          split at found
          · next here =>
            obtain rfl := Option.some.inj found
            rw [if_pos here,ih]
          · cases found
        · next found =>
          split at found
          · cases found
          · next absent => rw [if_neg absent,Rewriting.first,ih]
  exact all haystack.length haystack

/-- `{{name}}`. -/
def placeholder (name : String) : Bytes := ascii "\x7b\x7b" ++ ascii name ++ ascii "\x7d\x7d"

/-- `CARGO_PKG_VERSION`. -/
def packageVersion : Bytes := ascii "0.6.0"

/-- The query of the solver's address changes with every byte of it. -/
def solverQuery (crates : Crates) (solverJs : Bytes) : Bytes :=
  ascii "v=" ++ packageVersion ++ 45 :: b64url (crates.sha256 solverJs).toList

/-- The challenge page, rendered once per location with a versioned solver. -/
def loadPage (crates : Crates) (startup : Startup) (path : Bytes) (difficulty : UInt64) (endpoint : Bytes) : Option Bytes := do
  let raw ← if path = [] then some startup.defaultPage else startup.readFile path
  let plain := placeholder "endpoint" ++ ascii "solver.js"
  let versioned := plain ++ 63 :: solverQuery crates startup.solverJs
  let raw := replaceAll raw (plain ++ [34]) (versioned ++ [34])
  let raw := replaceAll raw (plain ++ [39]) (versioned ++ [39])
  let rendered := replaceAll raw (placeholder "difficulty") (decimal difficulty.toNat)
  return replaceAll rendered (placeholder "endpoint") endpoint

def loadNojsPage (startup : Startup) (path : Bytes) : Option Bytes :=
  if path = [] then some startup.defaultNojsPage else startup.readFile path

/-- `cookie::scoped_name`: every field is length-prefixed. -/
def scopedName (crates : Crates) (base : Bytes) (fields : List Bytes) : Bytes :=
  let digest := crates.sha256 (ascii "pow-gate-cookie-scope-v2" ++ framed (base :: fields))
  base ++ 95 :: hex (digest.toList.take 12)

/-- The cookie name after inheritance. -/
def effectiveName (crates : Crates) (base domain path samesite endpoint policy : Bytes)
    (suffix secure httponly : Bool) (ipv4 ipv6 : UInt64) : Bytes :=
  if suffix then
    let sameSite := lower samesite
    scopedName crates base [lower (trimDots domain), path, sameSite,
      if secure ∨ sameSite = ascii "none" then ascii "secure" else ascii "http",
      if httponly then ascii "httponly" else ascii "readable",
      endpoint, policy, decimal ipv4.toNat, decimal ipv6.toNat]
  else base

/-- Inheritance without the checks and the files. -/
def inherit (crates : Crates) (prev conf : Directives) : LocationConf :=
  let endpoint := mergeStr conf.endpoint prev.endpoint (ascii "/.pow/")
  let policy := mergeStr conf.policy prev.policy (ascii "default")
  let ipv4 := mergeValue conf.ipv4Prefix prev.ipv4Prefix 32
  let ipv6 := mergeValue conf.ipv6Prefix prev.ipv6Prefix 128
  let domain := mergeStr conf.cookieDomain prev.cookieDomain []
  let path := mergeStr conf.cookiePath prev.cookiePath (ascii "/")
  let samesite := mergeStr conf.cookieSamesite prev.cookieSamesite (ascii "Lax")
  let secure := mergeValue conf.cookieSecure prev.cookieSecure true
  let httponly := mergeValue conf.cookieHttponly prev.cookieHttponly true
  { enabled := mergeValue conf.enabled prev.enabled false
    trusted := conf.trusted.orElse fun _ => prev.trusted
    decision := conf.decision.orElse fun _ => prev.decision
    pageCache := []
    nojsPageCache := []
    difficulty := mergeValue conf.difficulty prev.difficulty 50000
    hmacKeyFile := mergeStr conf.hmacKeyFile prev.hmacKeyFile []
    clearanceTtl := mergeValue conf.clearanceTtl prev.clearanceTtl 43200
    proofSkew := mergeValue conf.proofSkew prev.proofSkew 5
    requireProof := mergeValue conf.requireProof prev.requireProof false
    ipv4Prefix := ipv4
    ipv6Prefix := ipv6
    policy
    endpoint
    replay := mergeValue conf.replay prev.replay true
    replayMaxBody := mergeValue conf.replayMaxBody prev.replayMaxBody (1024 * 1024)
    cookieEffectiveName := effectiveName crates
      (mergeStr conf.cookieName prev.cookieName (ascii "pow_clearance")) domain path samesite endpoint
      policy (mergeValue conf.cookieScopeSuffix prev.cookieScopeSuffix true) secure httponly ipv4 ipv6
    cookieDomain := domain
    cookiePath := path
    cookieSamesite := samesite
    cookieSecure := secure
    cookieHttponly := httponly }

/-- `None` is `NGX_CONF_ERROR`. -/
def mergeLocationConf (crates : Crates) (startup : Startup) (prev conf : Directives) : Option LocationConf :=
  let merged := inherit crates prev conf
  if ¬ (1 ≤ merged.ipv4Prefix ∧ merged.ipv4Prefix ≤ 32) ∨
      ¬ (1 ≤ merged.ipv6Prefix ∧ merged.ipv6Prefix ≤ 128) then none
  else if merged.enabled then
    if merged.difficulty = 0 ∨ merged.clearanceTtl ≤ 0 then none
    else if ((startup.readFile merged.hmacKeyFile).all fun bytes => bytes.length < minHmacKeyLen) then none
    else do
      let page ← loadPage crates startup (mergeStr conf.pagePath prev.pagePath []) merged.difficulty merged.endpoint
      let nojsPage ← loadNojsPage startup (mergeStr conf.nojsPagePath prev.nojsPagePath [])
      return { merged with pageCache := page, nojsPageCache := nojsPage }
  else some merged

/-- An unreadable or short key file gives the empty key. -/
def loadKey (readFile : Bytes → Option Bytes) (path : Bytes) : Bytes :=
  match readFile path with
  | some bytes => if minHmacKeyLen ≤ bytes.length then bytes else []
  | none => []

def nonempty (s default : Bytes) : Bytes := if s = [] then default else s

/-- `runtime::build_cfg`: the worker reads the key file again. -/
def buildCfg (readFile : Bytes → Option Bytes) (lc : LocationConf) : Cfg :=
  let key := loadKey readFile lc.hmacKeyFile
  let domain := if lc.cookieDomain = [] then none else some lc.cookieDomain
  let name := nonempty lc.cookieEffectiveName (ascii "pow_clearance")
  let path := nonempty lc.cookiePath (ascii "/")
  { scope := Scope.new domain name path lc.endpoint lc.policy
    key
    keyOk := minHmacKeyLen ≤ key.length
    difficulty := lc.difficulty
    address := ⟨lc.ipv4Prefix.toUInt8, lc.ipv6Prefix.toUInt8⟩
    clearanceTtl := lc.clearanceTtl
    proofSkew := lc.proofSkew
    requireProof := lc.requireProof
    replay := lc.replay
    replayMaxBody := lc.replayMaxBody
    endpoint := lc.endpoint
    cookie :=
      { name, domain, path
        samesite := nonempty lc.cookieSamesite (ascii "Lax")
        secure := lc.cookieSecure
        httpOnly := lc.cookieHttponly
        maxAgeSecs := lc.clearanceTtl } }

/-- What startup guarantees of an enabled location. -/
structure LocationConf.Checked (lc : LocationConf) : Prop where
  difficulty : 0 < lc.difficulty
  ttl : 0 < lc.clearanceTtl
  ipv4 : 1 ≤ lc.ipv4Prefix ∧ lc.ipv4Prefix ≤ 32
  ipv6 : 1 ≤ lc.ipv6Prefix ∧ lc.ipv6Prefix ≤ 128

theorem mergeLocationConf_checked (merged : mergeLocationConf crates startup prev conf = some lc)
    (enabled : lc.enabled = true) : lc.Checked := by
  unfold mergeLocationConf at merged
  simp only at merged
  split at merged
  · cases merged
  next prefixes =>
  simp only [not_or,Decidable.not_not] at prefixes
  split at merged
  · split at merged
    · cases merged
    next positive =>
    simp only [not_or,Int64.not_le] at positive
    split at merged
    · cases merged
    obtain ⟨page, _, merged⟩ := Option.bind_eq_some_iff.mp merged
    obtain ⟨nojs, _, merged⟩ := Option.bind_eq_some_iff.mp merged
    obtain rfl := Option.some.inj merged
    exact ⟨UInt64.pos_iff_ne_zero.mpr positive.1, positive.2, prefixes.1, prefixes.2⟩
  · next off =>
    obtain rfl := Option.some.inj merged
    exact absurd enabled off

end PowGate
