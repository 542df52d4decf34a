import PowGate.ClusterBooks

/-! Replies that arrive in pieces. The reader starts over on a growing buffer, and the `AUTH` reply
is drained from its front, but what it ends in depends on the stream alone. -/
namespace PowGate.Resp

open Text

/-- What a complete reply line is worth: the outcome, and whether the worker is fenced. -/
def verdict : Bytes → Ledger.Outcome × Bool
  | 58 :: digits =>
    if parseI64 digits = some 1 then (.accepted, false)
    else if parseI64 digits = some 0 then (.reused, false)
    else if parseI64 digits = some (-1) then (.expired, false)
    else if parseI64 digits = some (-2) then (.full, true)
    else (.full, false)
  | _ => (.full, false)

/-- The first line, after the line `+OK` when `AUTH` is pending. -/
def deciding (auth : Bool) (stream : Bytes) : Option Bytes :=
  if auth then if line stream = some (ascii "+OK") then line (stream.drop 5) else none
  else line stream

/-- The outcome of a stream: none while lines are missing, a refusal for another line than
`+OK` when `AUTH` is pending, else what the deciding line is worth. -/
def answer (auth : Bool) (stream : Bytes) : Option (Ledger.Outcome × Bool) :=
  if auth ∧ ∃ text, line stream = some text ∧ text ≠ ascii "+OK" then some (.full, false)
  else (deciding auth stream).map verdict

/-- The arguments of `complete`, once the inner loop calls it. -/
def Scan.report : Scan → Option (Ledger.Outcome × Bool)
  | .more _ _ => none
  | .replied found => some (judge found)
  | .failed => some (.full, false)

/-- What the loop makes of a complete line of a script's reply. -/
def script (text : Bytes) : Scan :=
  match parse text with
  | .error _ => .failed
  | .ok found => .replied found

section Lines

variable {input rest text : Bytes}

theorem reply_open (missing : line input = none) (small : input.length ≤ 1024) : reply input = .ok none := by
  rw [reply,if_neg (by omega),missing]

theorem reply_line (cut : line input = some text) (small : input.length ≤ 1024) :
    reply input = (parse text).map fun found => some (found, text.length + 2) := by
  rw [reply,if_neg (by omega),cut]

theorem scanScript_line (cut : line input = some text) (small : input.length ≤ 1024) :
    scanScript input = script text := by
  rw [scanScript,script,reply_line cut small]
  cases parse text <;> rfl

theorem scan_open (missing : line input = none) (small : input.length ≤ 1024) :
    scan auth input = .more auth input := by
  cases auth <;> simp [scan,scanScript,reply_open missing small]

/-- A pending `AUTH` takes the line `+OK` off and refuses any other. -/
theorem scan_line (cut : line input = some text) (small : input.length ≤ 1024) :
    scan true input = if text = ascii "+OK" then scanScript (input.drop 5) else .failed := by
  rw [scan,if_pos rfl,reply_line cut small]
  by_cases welcome : text = ascii "+OK"
  · subst welcome
    have parsed : parse (ascii "+OK") = .ok .ok := if_pos rfl
    rw [parsed,if_pos rfl]
    rfl
  · rw [if_neg welcome]
    cases parsed : parse text with
    | error _ => rfl
    | ok found =>
      have other : found ≠ .ok := by
        rintro rfl
        exact welcome (parse_ok parsed)
      exact if_neg other

theorem script_not_more (text : Bytes) : script text ≠ .more auth input := by
  unfold script
  split <;> nofun

/-- A script's reply and more bytes: the loop goes on from where it stopped, unless it was done. -/
theorem scanScript_append (small : (input ++ rest).length ≤ 1024) :
    scanScript (input ++ rest) = match scanScript input with
      | .more auth input' => scan auth (input' ++ rest)
      | done => done := by
  have short : input.length ≤ 1024 := by
    rw [List.length_append] at small
    omega
  cases cut : line input with
  | none =>
    have waiting : scanScript input = .more false input := @scan_open _ false cut short
    rw [waiting]
    rfl
  | some text =>
    rw [scanScript_line (line_append cut) small,scanScript_line cut short]
    cases shape : script text with
    | more auth input' => exact absurd shape (script_not_more text)
    | replied found => rfl
    | failed => rfl

/-- The same with an `AUTH` reply that may be pending. -/
theorem scan_append (small : (input ++ rest).length ≤ 1024) :
    scan auth (input ++ rest) = match scan auth input with
      | .more auth' input' => scan auth' (input' ++ rest)
      | done => done := by
  cases auth with
  | false => exact scanScript_append small
  | true =>
    have short : input.length ≤ 1024 := by
      rw [List.length_append] at small
      omega
    cases cut : line input with
    | none => rw [scan_open cut short]
    | some text =>
      rw [scan_line (line_append cut) small,scan_line cut short]
      by_cases welcome : text = ascii "+OK"
      · subst welcome
        obtain ⟨after, rfl⟩ := line_split cut
        rw [if_pos rfl,if_pos rfl]
        apply scanScript_append
        rw [List.length_append] at small ⊢
        have dropped : ((ascii "+OK" ++ 13 :: 10 :: after).drop 5).length ≤
            (ascii "+OK" ++ 13 :: 10 :: after).length := by simp
        exact Nat.le_trans (Nat.add_le_add_right dropped _) small
      · rw [if_neg welcome,if_neg welcome]

/-- Where the loop stopped, it has nothing more to do. -/
theorem scan_stopped (small : input.length ≤ 1024) (stopped : scan auth input = .more auth' input') :
    scan auth' input' = .more auth' input' := by
  have again : scan auth (input ++ []) = match scan auth input with
      | .more auth' input' => scan auth' (input' ++ [])
      | done => done := scan_append (by rwa [List.append_nil])
  rw [List.append_nil,stopped] at again
  simpa using again.symm

theorem parse_colon (digits : Bytes) : parse (58 :: digits) = match parseI64 digits with
    | some value => .ok (.integer value)
    | none => .error "invalid Redis integer" := by
  have status : ¬ 58 :: digits = ascii "+OK" := fun same => by cases congrArg List.head? same
  have null : ¬ 58 :: digits = ascii "$-1" := fun same => by cases congrArg List.head? same
  cases parsed : parseI64 digits <;> simp only [parse,status,null,if_false,parsed]

/-- Only a line behind a colon is an integer. -/
theorem parse_other (other : ∀ digits, text ≠ 58 :: digits) (parsed : parse text = .ok found) :
    judge found = (.full, false) := by
  unfold parse at parsed
  split at parsed
  · cases parsed
    rfl
  split at parsed
  · cases parsed
    rfl
  split at parsed
  · cases parsed
    rfl
  · exact absurd rfl (other _)
  · cases parsed

theorem verdict_integer {found : Int64} (parsed : parseI64 digits = some found) :
    verdict (58 :: digits) = judge (.integer found) := by
  simp [verdict,judge,parsed]

theorem verdict_other (other : ∀ digits value, text = 58 :: digits → parseI64 digits ≠ some value) :
    verdict text = (.full, false) := by
  unfold verdict
  split
  · next digits => simp [other digits _ rfl]
  · rfl

/-- The code and the cut agree on every complete line. -/
theorem script_report (text : Bytes) : (script text).report = some (verdict text) := by
  by_cases colon : ∃ digits, text = 58 :: digits
  · obtain ⟨digits, rfl⟩ := colon
    rw [script,parse_colon]
    cases parsed : parseI64 digits with
    | none =>
      rw [verdict_other]
      · rfl
      · intro others found same
        obtain rfl := (List.cons.inj same).2
        simp [parsed]
    | some value =>
      rw [verdict_integer parsed]
      rfl
  · have other : ∀ digits, text ≠ 58 :: digits := fun digits same => colon ⟨digits, same⟩
    rw [verdict_other fun digits _ same => absurd same (other digits)]
    cases parsed : parse text with
    | error _ => simp [script,parsed,Scan.report]
    | ok found => simp [script,parsed,Scan.report,parse_other other parsed]

/-- The loop on a whole stream ends in what cutting the stream gives. -/
theorem scan_report (stream : Bytes) (small : stream.length ≤ 1024) :
    (scan auth stream).report = answer auth stream := by
  have script_case (body : Bytes) (small : body.length ≤ 1024) :
      (scanScript body).report = (line body).map verdict := by
    cases cut : line body with
    | none =>
      have waiting : scanScript body = .more false body := @scan_open _ false cut small
      rw [waiting]
      rfl
    | some text =>
      rw [scanScript_line cut small]
      exact script_report text
  cases auth with
  | false => simpa [answer,deciding,scan] using script_case stream small
  | true =>
    cases cut : line stream with
    | none =>
      rw [scan_open cut small]
      simp [answer,deciding,cut,Scan.report]
    | some text =>
      rw [scan_line cut small]
      by_cases welcome : text = ascii "+OK"
      · have later := script_case (stream.drop 5) (by simp; omega)
        simp [answer,deciding,cut,welcome,later]
      · simp [answer,cut,welcome,Scan.report]

end Lines

section Verdicts

variable {text : Bytes}

/-- What only an integer can be worth. -/
theorem verdict_iff {P : Ledger.Outcome × Bool → Prop} (refused : ¬ P (.full, false)) :
    P (verdict text) ↔ ∃ digits value, text = 58 :: digits ∧ parseI64 digits = some value ∧
      P (judge (.integer value)) := by
  constructor
  · intro taken
    by_contra none
    rw [verdict_other] at taken
    · exact refused taken
    · rintro digits value rfl parsed
      rw [verdict_integer parsed] at taken
      exact none ⟨digits, value, rfl, parsed, taken⟩
  · rintro ⟨digits, value, rfl, parsed, taken⟩
    rwa [verdict_integer parsed]

theorem judge_fenced : (judge found).2 = true ↔ found = .integer (-2) := by
  unfold judge
  split
  · next one => simp [one]
  split
  · next zero => simp [zero]
  split
  · next late => simp [late]
  split <;> simp_all

theorem answer_deciding (cut : deciding auth stream = some text) : answer auth stream = some (verdict text) := by
  rw [answer,if_neg,cut]
  · rfl
  · rintro ⟨rfl, other, here, refused⟩
    simp [deciding,here,refused] at cut

theorem answer_some (answered : answer auth stream = some pair) :
    pair = (.full, false) ∨ ∃ text, deciding auth stream = some text ∧ verdict text = pair := by
  unfold answer at answered
  split at answered
  · exact .inl (Option.some.inj answered).symm
  · exact .inr (Option.map_eq_some_iff.mp answered)

/-- Anything but a refusal comes from an integer on the deciding line. -/
theorem answer_iff {P : Ledger.Outcome × Bool → Prop} (refused : ¬ P (.full, false)) :
    (∃ pair, answer auth stream = some pair ∧ P pair) ↔
      ∃ digits value, deciding auth stream = some (58 :: digits) ∧ parseI64 digits = some value ∧
        P (judge (.integer value)) := by
  constructor
  · rintro ⟨pair, answered, taken⟩
    rcases answer_some answered with rfl | ⟨text, cut, rfl⟩
    · exact absurd taken refused
    · obtain ⟨digits, value, rfl, parsed, taken⟩ := (verdict_iff refused).mp taken
      exact ⟨digits, value, cut, parsed, taken⟩
  · rintro ⟨digits, value, cut, parsed, taken⟩
    refine ⟨_, answer_deciding cut, ?_⟩
    rwa [verdict_integer parsed]

theorem answer_accepted : (∃ fenced, answer auth stream = some (.accepted, fenced)) ↔
    ∃ digits, deciding auth stream = some (58 :: digits) ∧ parseI64 digits = some 1 := by
  simpa [judge_accepted] using answer_iff (P := fun pair => pair.1 = .accepted) nofun

theorem answer_fenced : (∃ outcome, answer auth stream = some (outcome, true)) ↔
    ∃ digits, deciding auth stream = some (58 :: digits) ∧ parseI64 digits = some (-2) := by
  simpa [judge_fenced] using answer_iff (P := fun pair => pair.2 = true) nofun

theorem answer_refused (answered : answer auth stream = some pair)
    (other : ∀ digits value, deciding auth stream = some (58 :: digits) → parseI64 digits ≠ some value) :
    pair = (.full, false) := by
  by_contra taken
  obtain ⟨digits, value, cut, parsed, _⟩ :=
    (answer_iff (P := fun pair => pair ≠ (.full, false)) (fun differs => differs rfl)).mp ⟨pair, answered, taken⟩
  exact other digits value cut parsed

end Verdicts

end PowGate.Resp

namespace PowGate.Cluster

open Text Resp

/-- The loop of `read` over what successive `recv` calls return, until it calls `complete`.
At `NGX_AGAIN` the handler returns and is entered again later. -/
def feed : Bool → Bytes → List Recv → Scan
  | auth, input, [] => .more auth input
  | auth, input, .again true :: recvs => feed auth input recvs
  | _, _, .again false :: _ => .failed
  | _, _, .data [] :: _ => .failed
  | auth, input, .data chunk :: recvs =>
    match receive auth input chunk with
    | .more auth input => feed auth input recvs
    | .replied found => .replied found
    | .failed => .failed

/-- The same loop on the state of the worker. A job that is gone was completed. -/
def readLoop (id : Id) (clock : Int64) : State → List Recv → State
  | s, [] => s
  | s, recv :: recvs =>
    match s.jobs id with
    | some job => readLoop id clock (read s id job recv clock) recvs
    | none => s

/-- What the end of the loop does to the worker. -/
def conclude (s : State) (id : Id) (job : Job) (clock : Int64) : Scan → State
  | .more auth input => { s with jobs := Function.update s.jobs id (some { job with auth, input }) }
  | .replied found => complete s id job (judge found).1 (judge found).2 clock (.reply found clock)
  | .failed => fail s id job .failure

def Recv.bytes : Recv → Bytes
  | .again _ => []
  | .data chunk => chunk

/-- A read that brings bytes, no more than the buffer of `read` holds, or nothing yet. -/
def Recv.Piece : Recv → Prop
  | .again rearmed => rearmed = true
  | .data chunk => chunk ≠ [] ∧ chunk.length ≤ 256

/-- A stream as it arrives. -/
structure Split (stream : Bytes) (recvs : List Recv) : Prop where
  joined : recvs.flatMap Recv.bytes = stream
  pieces : ∀ recv ∈ recvs, recv.Piece

theorem feed_scan (recvs : List Recv) (pieces : ∀ recv ∈ recvs, recv.Piece)
    (small : (input ++ recvs.flatMap Recv.bytes).length ≤ 1024)
    (waiting : scan auth input = .more auth input) :
    feed auth input recvs = scan auth (input ++ recvs.flatMap Recv.bytes) := by
  induction recvs generalizing auth input with
  | nil => simp [feed,waiting]
  | cons recv recvs ih =>
    have later := fun recv member => pieces recv (List.mem_cons_of_mem _ member)
    have piece := pieces recv List.mem_cons_self
    cases recv with
    | again rearmed =>
      cases piece
      exact ih later small waiting
    | data chunk =>
      have split : input ++ (Recv.data chunk :: recvs).flatMap Recv.bytes =
          (input ++ chunk) ++ recvs.flatMap Recv.bytes := by
        simp [Recv.bytes]
      rw [split] at small ⊢
      have short : (input ++ chunk).length ≤ 1024 := by
        rw [List.length_append] at small
        omega
      have received : receive auth input chunk = scan auth (input ++ chunk) := by
        rw [receive,if_neg]
        rw [List.length_append] at short
        omega
      obtain ⟨c, chunk, rfl⟩ := List.exists_cons_of_ne_nil piece.1
      rw [feed,received,scan_append small]
      · cases shape : scan auth (input ++ c :: chunk) with
        | more auth' input' =>
          obtain ⟨passed, _, cut⟩ := scan_more shape
          have rest_small : (input' ++ recvs.flatMap Recv.bytes).length ≤ 1024 := by
            rw [cut] at small
            simp only [List.length_append] at small ⊢
            omega
          exact ih later rest_small (scan_stopped short shape)
        | replied found => rfl
        | failed => rfl
      · nofun

section Loop

variable {s : State} {id : Id} {job : Job} {clock : Int64}

theorem readLoop_gone (gone : s.jobs id = none) (recvs : List Recv) : readLoop id clock s recvs = s := by
  cases recvs with
  | nil => rfl
  | cons recv recvs => rw [readLoop,gone]

/-- Nothing of the buffer outlives the job. -/
theorem conclude_more (s : State) (auth : Bool) (input : Bytes) (found : Scan) :
    conclude { s with jobs := Function.update s.jobs id (some { job with auth, input }) } id
      { job with auth, input } clock found = conclude s id job clock found := by
  have buffer (outcome : Ledger.Outcome) (fenced : Bool) (clock : Int64) (cause : Cause) :
      complete { s with jobs := Function.update s.jobs id (some { job with auth, input }) } id
        { job with auth, input } outcome fenced clock cause =
      complete s id job outcome fenced clock cause := by
    unfold complete release fence settleHealth detach finishJob late
    cases fenced <;> cases job.health <;> simp
  cases found with
  | more auth input => simp [conclude]
  | replied found => exact buffer _ _ _ _
  | failed => exact buffer _ _ _ _

/-- The loop on the worker ends as the loop on the bytes does. -/
theorem readLoop_conclude (recvs : List Recv) (there : s.jobs id = some job) :
    readLoop id clock s recvs = conclude s id job clock (feed job.auth job.input recvs) := by
  induction recvs generalizing s job with
  | nil =>
    rw [readLoop,feed,conclude,← there,Function.update_eq_self]
  | cons recv recvs ih =>
    rw [readLoop,there]
    cases recv with
    | again rearmed =>
      cases rearmed with
      | true => exact ih there
      | false => exact readLoop_gone complete_jobs recvs
    | data chunk =>
      cases chunk with
      | nil => exact readLoop_gone complete_jobs recvs
      | cons c chunk =>
        simp only [feed,read]
        cases receive job.auth job.input (c :: chunk) with
        | more auth input =>
          exact (ih (Function.update_self ..)).trans (conclude_more s auth input _)
        | replied found => exact readLoop_gone complete_jobs recvs
        | failed => exact readLoop_gone complete_jobs recvs

theorem feed_split (split : Split stream recvs) (small : stream.length ≤ 1024) :
    feed auth [] recvs = scan auth stream := by
  obtain ⟨joined, pieces⟩ := split
  subst joined
  exact feed_scan recvs pieces small (scan_open rfl (by simp))

/-- However a stream arrives, the loop of `read` ends as cutting the stream at its first line end
says, and leaves the worker the same. An acceptance is the line `:1`, a fence is the line `:-2`, and
any other stream is a refusal or is waited for. -/
theorem replies_ignore_fragments (s : State) (id : Id) (job : Job) (clock : Int64) (stream : Bytes)
    (recvs : List Recv) (there : s.jobs id = some job) (unread : job.input = [])
    (small : stream.length ≤ 1024) (split : Split stream recvs) :
    readLoop id clock s recvs = conclude s id job clock (feed job.auth [] recvs) ∧
    (feed job.auth [] recvs).report = answer job.auth stream ∧
    (∀ others, Split stream others → feed job.auth [] others = feed job.auth [] recvs ∧
      readLoop id clock s others = readLoop id clock s recvs) ∧
    ((∃ fenced, (feed job.auth [] recvs).report = some (.accepted, fenced)) ↔
      ∃ digits, deciding job.auth stream = some (58 :: digits) ∧ parseI64 digits = some 1) ∧
    ((∃ outcome, (feed job.auth [] recvs).report = some (outcome, true)) ↔
      ∃ digits, deciding job.auth stream = some (58 :: digits) ∧ parseI64 digits = some (-2)) ∧
    ∀ outcome fenced, (feed job.auth [] recvs).report = some (outcome, fenced) →
      (∀ digits value, deciding job.auth stream = some (58 :: digits) → parseI64 digits ≠ some value) →
      outcome = .full ∧ fenced = false := by
  have read (others : List Recv) : readLoop id clock s others = conclude s id job clock (feed job.auth [] others) := by
    rw [readLoop_conclude others there,unread]
  have report : (feed job.auth [] recvs).report = answer job.auth stream := by
    rw [feed_split split small]
    exact scan_report stream small
  rw [report]
  refine ⟨read recvs, rfl, ?_, answer_accepted, answer_fenced, ?_⟩
  · intro others again
    have same : feed job.auth [] others = feed job.auth [] recvs := by
      rw [feed_split again small,feed_split split small]
    exact ⟨same, by rw [read,read,same]⟩
  · intro outcome fenced answered other
    exact Prod.mk.inj (answer_refused answered other)

end Loop

/-- A health check that waits for the replies to its login and its script. -/
def unanswered : Job where
  connection := true
  output := .health (ascii "e1")
  input := []
  auth := true
  deadline := true
  request := none
  cleanup := false
  grant := none
  expires := 0
  health := true

def checking : State :=
  { activate 0 with healthBusy := true, fresh := 1, jobs := Function.update (fun _ => none) 0 (some unanswered) }

/-- Both line ends are torn, and the integer stands alone. -/
def pieces : List Recv :=
  [.data (ascii "+O"), .data (ascii "K\r"), .again true, .data (ascii "\n:"), .data (ascii "1"),
    .data (ascii "\r"), .data (ascii "\n")]

theorem pieces_split : Split (ascii "+OK\r\n:1\r\n") pieces where
  joined := by decide
  pieces := by simp [pieces,Recv.Piece,ascii]

theorem replies_ignore_fragments_torn :
    readLoop 0 5 checking pieces = readLoop 0 5 checking [.data (ascii "+OK\r\n:1\r\n")] ∧
    (feed true [] pieces).report = some (.accepted, false) := by
  obtain ⟨_, report, same, _⟩ := replies_ignore_fragments checking 0 unanswered 5 (ascii "+OK\r\n:1\r\n") pieces rfl rfl
    (by decide) pieces_split
  have whole : Split (ascii "+OK\r\n:1\r\n") [.data (ascii "+OK\r\n:1\r\n")] :=
    ⟨by simp [Recv.bytes], by simp [Recv.Piece,ascii]⟩
  refine ⟨(same _ whole).2.symm, report.trans ?_⟩
  decide

end PowGate.Cluster
