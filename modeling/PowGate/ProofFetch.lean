import PowGate.ProofMessages

/-! The request proofs that the page's `fetch` wrapper attaches. The wrapper signs the
pathname of the URL as the browser writes it; the server rebuilds the message from the
decoded and normalized path that nginx has stored, so escapes set the two apart. So does an
input that is neither a string nor a request, since the wrapper reads its `url` property. -/
namespace PowGate.Solver

open Text

def upperByte (c : UInt8) : UInt8 := if 97 ≤ c ∧ c ≤ 122 then c - 32 else c

/-- `toUpperCase` on a method, which is ASCII. -/
def upper (s : Bytes) : Bytes := s.map upperByte

/-- A method has no spaces. -/
abbrev Verb := { verb : Bytes // 32 ∉ verb }

/-- What a page may pass to `fetch`. Any value but a string or a request, such as a `URL`, is
converted to a text; its properties `url` and `method`, if it has them, mean nothing to `fetch`. -/
inductive Input where
  | text (reference : Bytes)
  | request (url : Bytes) (verb : Verb)
  | object (reference : Bytes) (url : Option Bytes) (verb : Option Verb)

/-- The reference that is fetched. -/
def Input.reference : Input → Bytes
  | .text reference => reference
  | .request url _ => url
  | .object reference _ _ => reference

/-- The method that comes with it. -/
def Input.verb : Input → Option Bytes
  | .request _ verb => some verb
  | _ => none

/-- `typeof input === "string" ? input : input.url`, as `new URL` converts it to a text. -/
def Input.readUrl : Input → Bytes
  | .text reference => reference
  | .request url _ => url
  | .object _ url _ => url.getD (ascii "undefined")

/-- `typeof input !== "string" && input.method`. -/
def Input.readVerb : Input → Option Bytes
  | .text _ => none
  | .request _ verb => some verb
  | .object _ _ verb => verb.map Subtype.val

/-- What is looked at of a URL: whether its origin is that of the page, and its pathname. -/
structure Url where
  sameOrigin : Bool
  path : Bytes
  deriving DecidableEq

/-- The method the wrapper signs: of the init record, of the input, or the default. -/
def targetMethod (init input : Option Bytes) : Bytes :=
  upper (((init.filter (· ≠ [])).or (input.filter (· ≠ []))).getD (ascii "GET"))

/-- What `fetch` sends for them: it spells six methods in capitals and leaves the others. -/
def sentMethod (init input : Option Bytes) : Bytes :=
  let given := (init.or input).getD (ascii "GET")
  if upper given ∈ ["DELETE", "GET", "HEAD", "OPTIONS", "POST", "PUT"].map ascii then upper given
  else given

/-- The method and the path that `installProofFetch` signs; `parse` is `new URL(…, location.href)`.
A URL that cannot be inspected or is of another origin is passed through. -/
def target (parse : Bytes → Option Url) (init : Option Bytes) (input : Input) : Option (Bytes × Bytes) :=
  match parse input.readUrl with
  | some url => if url.sameOrigin then some (targetMethod init input.readVerb, url.path) else none
  | none => none

/-- The message and the header value of `signProof`. -/
def signedMessage (verb path : Bytes) (ts : Int64) : Bytes :=
  verb ++ (32 :: path) ++ (32 :: integer ts.toInt)

def signProof (sign : Bytes → Bytes) (verb path : Bytes) (ts : Int64) : Bytes :=
  b64url (sign (signedMessage verb path ts)) ++ 46 :: integer ts.toInt

/-- What `new URL(…).pathname` can be: rooted, printable ASCII, dot segments resolved. -/
structure Pathname (path : Bytes) : Prop where
  rooted : path.head? = some 47
  visible : Visible path
  resolved : ∀ segment ∈ path.splitOn 47, segment ≠ ascii "." ∧ segment ≠ ascii ".."

end PowGate.Solver

namespace PowGate.Nginx

open Text

/-- The methods nginx reads from a request line. -/
def acceptsMethod (verb : Bytes) : Bool :=
  verb ≠ [] && verb.all fun c => (65 ≤ c && c ≤ 90) || c = 95 || c = 45

def hexValue (c : UInt8) : Option UInt8 :=
  if 48 ≤ c ∧ c ≤ 57 then some (c - 48)
  else if 65 ≤ c ∧ c ≤ 70 then some (c - 55)
  else if 97 ≤ c ∧ c ≤ 102 then some (c - 87)
  else none

/-- A target with a broken escape is refused. -/
def percentDecode : Bytes → Option Bytes
  | [] => some []
  | c :: rest =>
    if c = 37 then match rest with
      | high :: low :: rest => do
        let byte := 16 * (← hexValue high) + (← hexValue low)
        return byte :: (← percentDecode rest)
      | _ => none
    else (percentDecode rest).map (c :: ·)

/-- Dot segments against the segments kept so far, the last of them first. -/
def resolve : List Bytes → List Bytes → List Bytes
  | kept, [] => kept.reverse
  | kept, segment :: rest =>
    let kept' := if segment = ascii "." then kept
      else if segment = ascii ".." then kept.drop 1
      else segment :: kept
    if rest = [] ∧ (segment = ascii "." ∨ segment = ascii "..") then (kept'.reverse ++ [[]])
    else resolve kept' rest

def removeDotSegments (path : Bytes) : Bytes :=
  match path.splitOn 47 with
  | [] => []
  | root :: segments => [47].intercalate (root :: resolve [] segments)

/-- `r->uri`: the target percent-decoded, then dot-segment-normalized. -/
def uri (target : Bytes) : Option Bytes := (percentDecode target).map removeDotSegments

end PowGate.Nginx

namespace PowGate.Nginx

open Text

theorem percentDecode_cons (other : c ≠ 37) : percentDecode (c :: rest) = (percentDecode rest).map (c :: ·) := by
  rw [percentDecode.eq_def]
  simp [other]

theorem percentDecode_plain (plain : 37 ∉ path) : percentDecode path = some path := by
  induction path with
  | nil => rfl
  | cons c rest ih =>
    simp only [List.mem_cons,not_or] at plain
    rw [percentDecode_cons (Ne.symm plain.1),ih plain.2]
    rfl

/-- Every escape costs two bytes. -/
theorem percentDecode_length (decoded : percentDecode path = some result) :
    result.length ≤ path.length ∧ (37 ∈ path → result.length < path.length) := by
  induction path using percentDecode.induct generalizing result with
  | case1 => simp_all [percentDecode]
  | case2 high low rest ih =>
    simp only [percentDecode,if_true,Option.bind_eq_bind,Option.bind_eq_some_iff] at decoded
    obtain ⟨_, _, _, _, tail, more, made⟩ := decoded
    obtain rfl := Option.some.inj made
    have := (ih more).1
    simp only [List.length_cons]
    omega
  | case3 rest short =>
    rw [percentDecode,if_pos rfl] at decoded
    · cases decoded
    · exact short
  | case4 c rest other ih =>
    rw [percentDecode_cons other] at decoded
    obtain ⟨tail, more, rfl⟩ := Option.map_eq_some_iff.mp decoded
    obtain ⟨shorter, escapes⟩ := ih more
    refine ⟨by simpa using shorter, fun member => ?_⟩
    have inside := (List.mem_cons.mp member).resolve_left (Ne.symm other)
    simpa using escapes inside

/-- The bytes of segments, each with its separator. -/
def weight (segments : List Bytes) : Nat := (segments.map (·.length + 1)).sum

theorem length_intercalate (first : Bytes) (rest : List Bytes) :
    ([47].intercalate (first :: rest)).length = first.length + weight rest := by
  induction rest generalizing first with
  | nil => simp [weight]
  | cons second rest ih =>
    rw [List.intercalate_cons_cons,List.length_append,List.length_append,ih]
    simp [weight]
    omega

theorem weight_drop_le (kept : List Bytes) : weight (kept.drop 1) ≤ weight kept := by
  cases kept with
  | nil => simp
  | cons first rest => simp [weight]

@[simp] theorem weight_append (front back : List Bytes) : weight (front ++ back) = weight front + weight back := by
  simp [weight]

@[simp] theorem weight_reverse (segments : List Bytes) : weight segments.reverse = weight segments := by
  simp [weight,List.sum_reverse]

@[simp] theorem weight_nil : weight [] = 0 := rfl

theorem weight_cons (segment : Bytes) (rest : List Bytes) :
    weight (segment :: rest) = segment.length + 1 + weight rest := by
  simp [weight]

theorem weight_resolve_le (kept segments : List Bytes) :
    weight (resolve kept segments) ≤ weight kept + weight segments := by
  induction segments generalizing kept with
  | nil => simp [resolve]
  | cons segment rest ih =>
    have dropped := weight_drop_le kept
    rw [resolve,weight_cons]
    split
    · -- a dot segment at the end leaves an empty segment in its place
      next last =>
      obtain ⟨-, dot | dots⟩ := last
      · simp only [dot,if_true,weight_append,weight_reverse,weight_cons,weight_nil,List.length_nil]
        omega
      · have other : ascii ".." ≠ ascii "." := by decide
        simp only [dots,other,if_false,if_true,weight_append,weight_reverse,weight_cons,weight_nil,
          List.length_nil]
        omega
    · refine Nat.le_trans (ih _) ?_
      split
      · omega
      split
      · omega
      · rw [weight_cons]
        omega

theorem removeDotSegments_length (path : Bytes) : (removeDotSegments path).length ≤ path.length := by
  have joined : [47].intercalate (path.splitOn 47) = path := List.intercalate_splitOn 47
  unfold removeDotSegments
  cases parts : path.splitOn 47 with
  | nil => simp
  | cons root segments =>
    have resolved := weight_resolve_le [] segments
    rw [parts] at joined
    calc ([47].intercalate (root :: resolve [] segments)).length
        = root.length + weight (resolve [] segments) := length_intercalate _ _
      _ ≤ root.length + weight segments := by simpa [weight] using resolved
      _ = path.length := by rw [← length_intercalate,joined]

theorem resolve_plain {segments : List Bytes} (kept : List Bytes)
    (plain : ∀ segment ∈ segments, segment ≠ ascii "." ∧ segment ≠ ascii "..") :
    resolve kept segments = kept.reverse ++ segments := by
  induction segments generalizing kept with
  | nil => simp [resolve]
  | cons segment rest ih =>
    obtain ⟨dot, dots⟩ := plain segment (by simp)
    have more := ih (segment :: kept) fun s member => plain s (by simp [member])
    simp [resolve,dot,dots,more]

theorem removeDotSegments_plain (plain : ∀ segment ∈ path.splitOn 47, segment ≠ ascii "." ∧ segment ≠ ascii "..") :
    removeDotSegments path = path := by
  have joined : [47].intercalate (path.splitOn 47) = path := List.intercalate_splitOn 47
  unfold removeDotSegments
  cases parts : path.splitOn 47 with
  | nil => exact absurd parts (List.splitOn_ne_nil _ _)
  | cons root segments =>
    rw [parts] at joined plain
    have kept := resolve_plain [] fun s member => plain s (List.mem_cons_of_mem root member)
    simpa [kept] using joined

/-- The stored path is the pathname itself exactly when that has no escape. -/
theorem uri_eq_self_iff (pathname : Solver.Pathname path) (arrives : uri path = some stored) :
    stored = path ↔ 37 ∉ path := by
  obtain ⟨decoded, read, rfl⟩ := Option.map_eq_some_iff.mp arrives
  constructor
  · intro same escape
    have shorter := (percentDecode_length read).2 escape
    have kept := removeDotSegments_length decoded
    rw [same] at kept
    omega
  · intro plain
    rw [percentDecode_plain plain] at read
    obtain rfl := Option.some.inj read
    exact removeDotSegments_plain pathname.resolved

end PowGate.Nginx

namespace PowGate.Solver

open Text

theorem upper_accepted (accepted : Nginx.acceptsMethod verb = true) : upper verb = verb := by
  simp only [Nginx.acceptsMethod,Bool.and_eq_true,List.all_eq_true] at accepted
  have kept : ∀ c ∈ verb, upperByte c = c := by
    intro c member
    have := accepted.2 c member
    unfold upperByte
    grind
  rw [upper,List.map_congr_left kept]
  exact List.map_id verb

/-- The wrapper signs the method that is sent, when nginx accepts that one. -/
theorem targetMethod_eq (accepted : Nginx.acceptsMethod (sentMethod init input) = true) :
    targetMethod init input = sentMethod init input := by
  have nonempty : (init.or input).getD (ascii "GET") ≠ [] := by
    intro missing
    rw [sentMethod,missing] at accepted
    revert accepted
    decide
  have chosen : targetMethod init input = upper ((init.or input).getD (ascii "GET")) := by
    cases init with
    | none =>
      cases input with
      | none => rfl
      | some verb => simp_all [targetMethod,Option.filter]
    | some verb => simp_all [targetMethod,Option.filter]
  rw [chosen]
  simp only [sentMethod] at accepted ⊢
  split
  · rfl
  · next other =>
    rw [if_neg other] at accepted
    exact upper_accepted accepted

theorem signedMessage_eq (verb path : Bytes) (ts : Int64) :
    signedMessage verb path ts = Proof.message verb path ts := by
  simp [signedMessage,Proof.message]

theorem integer_visible (i : Int) : ∀ c ∈ integer i, 33 ≤ c ∧ c < 128 ∧ c ≠ 46 := by
  intro c member
  rcases integer_bytes member with digit | minus
  · simp only [isDigit,Bool.and_eq_true,decide_eq_true_eq] at digit
    grind
  · subst minus
    decide

/-- The server reads the signature and the time that were sent. -/
theorem parseProof_signProof {sign : Bytes → Bytes} (size : (sign (signedMessage verb path ts)).length = 64) :
    parseProof (signProof sign verb path ts) = some (sign (signedMessage verb path ts), ts) := by
  have last : 46 ∉ integer ts.toInt := fun member => (integer_visible _ 46 member).2.2 rfl
  simp only [parseProof,signProof,rsplitOnce_append _ _ last,Option.bind_eq_bind,Option.bind_some,
    unb64urlFixed_b64url _ size,parseI64_integer]
  rfl

theorem signProof_ascii (sign : Bytes → Bytes) (verb path : Bytes) (ts : Int64) :
    IsAscii (signProof sign verb path ts) := by
  intro c member
  simp only [signProof,List.mem_append,List.mem_cons] at member
  rcases member with front | rfl | back
  · exact b64url_ascii _ c front
  · decide
  · exact (integer_visible _ c back).2.1

/-- A proof in the window over the message that the server rebuilds is accepted. -/
theorem checkProof_signProof {sign : Bytes → Bytes} {w : Worker} {r : Request} {cfg : Cfg} {cleared : Clearance.Verified}
    (sent : r.rawHeader (ascii "x-pow-proof") = some (signProof sign verb path ts))
    (same : signedMessage verb path ts = Proof.message r.method r.uri ts)
    (size : (sign (signedMessage verb path ts)).length = 64)
    (signed : Proof.verifySignature w.crates cleared.publicKey (signedMessage verb path ts)
      (sign (signedMessage verb path ts)) = true)
    (inWindow : (now.toInt - ts.toInt).natAbs ≤ cfg.proofSkew.toInt) :
    checkProof w r cfg now cleared = .valid := by
  have header : r.header (ascii "x-pow-proof") = some (signProof sign verb path ts) := by
    rw [Request.header,sent]
    exact congrArg some (lossyFrom_ascii (signProof_ascii sign verb path ts))
  have nonneg : ¬ cfg.proofSkew < 0 := by
    rw [Int64.lt_iff_toInt_lt,Int64.toInt_zero]
    omega
  rw [same] at size signed
  have checked : Proof.check w.crates cleared.publicKey r.method r.uri ts
      (sign (signedMessage verb path ts)) now cfg.proofSkew = .valid := by
    rw [same,Proof.check,if_neg nonneg,if_neg (by omega),if_pos signed]
  rw [← same] at size
  simp only [checkProof,header,parseProof_signProof size,checked]

/-- The wrapper reads the URL and the method that are fetched, and the path has no escape; or the
properties of some other value happen to name them, or a URL that is passed through. -/
def Input.Signs (parse : Bytes → Option Url) (init : Option Bytes) (path stored : Bytes) : Input → Prop
  | .object _ url verb => ∀ read, parse (url.getD (ascii "undefined")) = some read → read.sameOrigin = true →
      read.path = stored ∧ (init = none → targetMethod none (verb.map Subtype.val) = ascii "GET")
  | _ => 37 ∉ path

/-- What is asked of a signed method and path: the message is the one the server rebuilds, and a
proof in the window by the clearance key is not judged invalid. -/
def Honoured (sentVerb stored verb path : Bytes) : Prop :=
  ∀ ts, signedMessage verb path ts = Proof.message sentVerb stored ts ∧
    ∀ (w : Worker) (r : Request) (cfg : Cfg) (now : Int64) (cleared : Clearance.Verified) (sign : Bytes → Bytes),
      r.method = sentVerb → r.uri = stored →
      r.rawHeader (ascii "x-pow-proof") = some (signProof sign verb path ts) →
      (sign (signedMessage verb path ts)).length = 64 →
      Proof.verifySignature w.crates cleared.publicKey (signedMessage verb path ts)
        (sign (signedMessage verb path ts)) = true →
      (now.toInt - ts.toInt).natAbs ≤ cfg.proofSkew.toInt →
      checkProof w r cfg now cleared ≠ .invalid

theorem accepted_no_space (accepted : Nginx.acceptsMethod verb = true) : 32 ∉ verb := by
  simp only [Nginx.acceptsMethod,Bool.and_eq_true,List.all_eq_true] at accepted
  intro member
  simpa using accepted.2 32 member

/-- A method and a path are honoured exactly if they are what the server sees. -/
theorem honoured_iff (accepted : Nginx.acceptsMethod sentVerb = true) (signed : 32 ∉ verb) :
    Honoured sentVerb stored verb path ↔ verb = sentVerb ∧ path = stored := by
  constructor
  · intro honoured
    have same := (honoured 0).1
    rw [signedMessage_eq] at same
    have parts := Proof.message_injective signed (accepted_no_space accepted) same
    exact ⟨parts.1, parts.2.1⟩
  · rintro ⟨rfl, rfl⟩ ts
    refine ⟨signedMessage_eq _ _ _, ?_⟩
    intro w r cfg now cleared sign sentVerb sentPath sent size signed inWindow
    have same : signedMessage verb path ts = Proof.message r.method r.uri ts := by
      rw [sentVerb,sentPath,signedMessage_eq]
    rw [checkProof_signProof sent same size signed inWindow]
    decide

theorem upper_space : 32 ∈ upper verb ↔ 32 ∈ verb := by
  have one : ∀ c : UInt8, upperByte c = 32 ↔ c = 32 := by
    intro c
    unfold upperByte
    split
    · grind
    · rfl
  simp only [upper,List.mem_map,one]
  exact ⟨fun ⟨_, member, same⟩ => same ▸ member, fun member => ⟨32, member, rfl⟩⟩

theorem readVerb_no_space (input : Input) (found : input.readVerb = some verb) : 32 ∉ verb := by
  cases input with
  | text => cases found
  | request _ token =>
    obtain rfl := Option.some.inj found
    exact token.property
  | object _ _ token =>
    obtain ⟨token, _, rfl⟩ := Option.map_eq_some_iff.mp found
    exact token.property

theorem targetMethod_no_space {init input : Option Bytes} (free : ∀ verb, init.or input = some verb ∨ input = some verb → 32 ∉ verb) :
    32 ∉ targetMethod init input := by
  rw [targetMethod,upper_space]
  cases chosen : (init.filter (· ≠ [])).or (input.filter (· ≠ [])) with
  | none => decide
  | some verb =>
    rw [Option.getD_some]
    rcases Option.or_eq_some_iff.mp chosen with first | ⟨_, second⟩
    · obtain ⟨given, _⟩ := Option.filter_eq_some_iff.mp first
      exact free verb (.inl (by rw [given]; rfl))
    · exact free verb (.inr (Option.filter_eq_some_iff.mp second).1)

/-- A method that nginx accepts was given without spaces. -/
theorem given_no_space (accepted : Nginx.acceptsMethod (sentMethod init input) = true)
    (given : init.or input = some verb) : 32 ∉ verb := by
  have sent := accepted_no_space accepted
  simp only [sentMethod,given,Option.getD_some] at sent
  split at sent
  · rwa [upper_space] at sent
  · exact sent

section Agreement

variable {parse : Bytes → Option Url} {init : Option Bytes} {input : Input} {url : Url} {stored : Bytes}

theorem targetMethod_plain (accepted : Nginx.acceptsMethod (sentMethod init input.verb) = true) :
    32 ∉ targetMethod init input.readVerb := by
  refine targetMethod_no_space fun verb given => ?_
  rcases given with given | given
  · cases init with
    | none => exact readVerb_no_space input given
    | some first =>
      obtain rfl := Option.some.inj given
      exact given_no_space accepted rfl
  · exact readVerb_no_space input given

/-- Where the wrapper reads what is fetched, only the escapes of the path stand between them. -/
theorem plain_honoured_iff (url_ : input.readUrl = input.reference) (verb_ : input.readVerb = input.verb)
    (fetched : parse input.reference = some url) (sameOrigin : url.sameOrigin = true) (pathname : Pathname url.path)
    (accepted : Nginx.acceptsMethod (sentMethod init input.verb) = true) (arrives : Nginx.uri url.path = some stored) :
    (∀ verb path, target parse init input = some (verb, path) →
      Honoured (sentMethod init input.verb) stored verb path) ↔ 37 ∉ url.path := by
  have whole := Nginx.uri_eq_self_iff pathname arrives
  have signed : target parse init input = some (targetMethod init input.readVerb, url.path) := by
    rw [target,url_,fetched]
    exact if_pos sameOrigin
  rw [signed]
  constructor
  · intro all
    exact whole.mp ((honoured_iff accepted (targetMethod_plain accepted)).mp (all _ _ rfl)).2.symm
  · intro unescaped verb path same
    obtain ⟨rfl, rfl⟩ := Prod.mk.inj (Option.some.inj same)
    refine (honoured_iff accepted (targetMethod_plain accepted)).mpr ⟨?_, (whole.mpr unescaped).symm⟩
    rw [verb_,targetMethod_eq accepted]

/-- A method that `init` names goes before what the value says. -/
theorem targetMethod_given {given : Bytes} {read : Option Bytes}
    (accepted : Nginx.acceptsMethod (sentMethod (some given) none) = true) :
    targetMethod (some given) read = sentMethod (some given) none := by
  have some_ : given ≠ [] := by
    rintro rfl
    have refused : Nginx.acceptsMethod (sentMethod (some []) none) = false := by decide
    exact absurd accepted (Bool.eq_false_iff.mp refused)
  rw [← targetMethod_eq accepted]
  simp [targetMethod,Option.filter,some_]

theorem object_honoured_iff {reference : Bytes} {named : Option Bytes} {token : Option Verb}
    (accepted : Nginx.acceptsMethod (sentMethod init none) = true) :
    (∀ verb path, target parse init (.object reference named token) = some (verb, path) →
      Honoured (sentMethod init none) stored verb path) ↔
      Input.Signs parse init path' stored (.object reference named token) := by
  have lone : sentMethod none none = ascii "GET" := by decide
  have plain : 32 ∉ targetMethod init (Input.object reference named token).readVerb := targetMethod_plain accepted
  constructor
  · intro all read parsed same
    have signed : target parse init (.object reference named token) =
        some (targetMethod init (token.map Subtype.val), read.path) := by
      rw [target,show parse (Input.object reference named token).readUrl = some read from parsed]
      exact if_pos same
    obtain ⟨verb, path⟩ := (honoured_iff accepted plain).mp (all _ _ signed)
    refine ⟨path, ?_⟩
    rintro rfl
    exact verb.trans lone
  · intro signs verb path signed
    rw [target] at signed
    split at signed
    · next read parsed =>
      split at signed
      · next same =>
        obtain ⟨rfl, rfl⟩ := Prod.mk.inj (Option.some.inj signed)
        obtain ⟨named, default⟩ := signs read parsed same
        refine (honoured_iff accepted plain).mpr ⟨?_, named⟩
        cases init with
        | none => exact (default rfl).trans lone.symm
        | some given => exact targetMethod_given accepted
      · cases signed
    · cases signed

end Agreement

/-- The two sides build one message, and the wrapper's proofs are accepted in their window,
exactly for the strings and requests whose pathname has no escape, and for other values whose
properties name what is fetched. -/
theorem proof_message_agrees_iff (parse : Bytes → Option Url) (init : Option Bytes) (input : Input) {url : Url}
    {stored : Bytes} (fetched : parse input.reference = some url) (sameOrigin : url.sameOrigin = true)
    (pathname : Pathname url.path) (accepted : Nginx.acceptsMethod (sentMethod init input.verb) = true)
    (arrives : Nginx.uri url.path = some stored) :
    (∀ verb path, target parse init input = some (verb, path) →
      Honoured (sentMethod init input.verb) stored verb path) ↔
      input.Signs parse init url.path stored := by
  cases input with
  | text => exact plain_honoured_iff rfl rfl fetched sameOrigin pathname accepted arrives
  | request => exact plain_honoured_iff rfl rfl fetched sameOrigin pathname accepted arrives
  | object => exact object_honoured_iff accepted

section Sample

/-- A `GET` of the path as it is stored, with a signature of time 100. -/
def sampleRequest (stored sig : Bytes) : Request :=
  { Reference.request stored with
    headers := [(ascii "X-Pow-Proof", b64url sig ++ 46 :: integer 100)] }

def sampleCleared : Clearance.Verified :=
  ⟨⟨2, b64url Proof.basePoint, [], .pow 1, 0, 100⟩, Proof.basePoint⟩

theorem sample_visible {path : Bytes} (all : path.all (fun c => 33 ≤ c && c < 128) = true) : Visible path := by
  intro c member
  simpa using List.all_eq_true.mp all c member

/-- The pathnames of references without query and fragment on a page at the root. -/
def rootPage (reference : Bytes) : Option Url :=
  some ⟨true, if reference.head? = some 47 then reference else 47 :: reference⟩

/-- The signed `GET` of the root is accepted. -/
theorem proof_message_agrees_root :
    target rootPage none (.text (ascii "/")) = some (ascii "GET", ascii "/") ∧
    (∀ ts, signedMessage (ascii "GET") (ascii "/") ts = Proof.message (sentMethod none none) (ascii "/") ts) ∧
    checkProof {Reference.worker with crates := Proof.sampleCrates}
      (sampleRequest (ascii "/") Proof.sampleSignature) Reference.cfg 100 sampleCleared ≠ .invalid := by
  have pathname : Pathname (ascii "/") := ⟨rfl, sample_visible (by decide), by decide⟩
  have arrives : Nginx.uri (ascii "/") = some (ascii "/") := by decide
  have accepted : Nginx.acceptsMethod (sentMethod none none) = true := by decide
  have signed : target rootPage none (.text (ascii "/")) = some (ascii "GET", ascii "/") := by decide
  have fetched : rootPage (Input.text (ascii "/")).reference = some ⟨true, ascii "/"⟩ := by decide
  have unescaped : Input.Signs rootPage none (ascii "/") (ascii "/") (.text (ascii "/")) := by
    change 37 ∉ ascii "/"
    decide
  have agrees := (proof_message_agrees_iff rootPage none (.text (ascii "/")) fetched rfl pathname accepted arrives).mpr
    unescaped _ _ signed
  refine ⟨signed, fun ts => (agrees ts).1, ?_⟩
  exact (agrees 100).2 _ _ _ 100 _ (fun _ => Proof.sampleSignature) (by decide) rfl (by decide +kernel)
    (by decide +kernel) (by decide +kernel) (by decide +kernel)

/-- Made by the key of the base point for `GET /a%20b 100`. -/
def escapedSignature : Bytes :=
  Proof.fixedBytes 32 0x3ed113b7883b4c590638379db0c21cda16742ed0255048bf433391d374bc21d1 ++
    Proof.fixedBytes 32 0x9503f9b17b92bd4b5b233fa846a1f978707533ed9ea9bd6eea34dbdc587471c4

def escapedCrates : Crates :=
  { Reference.crates with
    verify := fun vk text sig =>
      vk = Proof.basePoint && text = ascii "GET /a%20b 100" && sig = escapedSignature }

/-- A space in the path: the wrapper signs `/a%20b`, the server checks `/a b`, and the fresh
proof by the clearance key is judged invalid. -/
theorem proof_message_differs_escaped :
    rootPage (ascii "/a%20b") = some ⟨true, ascii "/a%20b"⟩ ∧
    Pathname (ascii "/a%20b") ∧ Nginx.acceptsMethod (sentMethod none none) = true ∧
    Nginx.uri (ascii "/a%20b") = some (ascii "/a b") ∧
    target rootPage none (.text (ascii "/a%20b")) = some (ascii "GET", ascii "/a%20b") ∧
    signedMessage (ascii "GET") (ascii "/a%20b") 100 ≠ Proof.message (sentMethod none none) (ascii "/a b") 100 ∧
    Proof.verifySignature escapedCrates Proof.basePoint (signedMessage (ascii "GET") (ascii "/a%20b") 100)
      escapedSignature = true ∧
    checkProof {Reference.worker with crates := escapedCrates}
      (sampleRequest (ascii "/a b") escapedSignature) Reference.cfg 100 sampleCleared = .invalid := by
  refine ⟨by decide, ⟨rfl, sample_visible (by decide), by decide⟩, by decide, by decide, by decide, ?_, ?_⟩
  · decide +kernel
  · decide +kernel

example : target rootPage none (.object (ascii "/a") none none) = some (ascii "GET", ascii "/undefined") := by decide

end Sample

end PowGate.Solver
