import PowGate.Database
import PowGate.Fragments

/-! One job's connection, byte by byte. `write` hands the output over in whatever pieces the
socket takes, Redis runs each command once it has all of it, other clients use the database
meanwhile, and `read` puts the replies together again. Whatever the pieces and wherever the
connection breaks off, Redis runs the job's commands and nothing else. -/
namespace PowGate.Resp

open Text

section Prefixes

variable {input rest more : Bytes} {parts : List Bytes}

/-- What was read from the bytes so far is read from all of them. -/
theorem readLength_more (read : readLength kind input = some (n, rest)) :
    readLength kind (input ++ more) = some (n, rest ++ more) := by
  cases input with
  | nil => cases read
  | cons c tail =>
    simp only [readLength,List.cons_append] at read ⊢
    split at read
    · next same =>
      rw [if_pos same]
      obtain ⟨text, cut, read⟩ := Option.bind_eq_some_iff.mp read
      obtain ⟨m, parsed, read⟩ := Option.bind_eq_some_iff.mp read
      obtain ⟨rfl, rfl⟩ := Prod.mk.inj (Option.some.inj read)
      obtain ⟨after, rfl⟩ := line_split cut
      have short : text.length + 2 ≤ (text ++ 13 :: 10 :: after).length := by simp
      simp only [line_append cut,parsed,Option.bind_eq_bind,Option.bind_some,List.drop_append_of_le_length short]
      rfl
    · cases read

theorem readBulk_more (read : readBulk input = some (part, rest)) : readBulk (input ++ more) = some (part, rest ++ more) := by
  unfold readBulk at read ⊢
  obtain ⟨⟨n, after⟩, length, read⟩ := Option.bind_eq_some_iff.mp read
  simp only [readLength_more length,Option.bind_eq_bind,Option.bind_some]
  simp only at read
  split at read
  · next enough =>
    rw [if_pos (by simp; omega),List.drop_append_of_le_length enough,List.take_append_of_le_length enough]
    split at read
    · next tail cut =>
      obtain ⟨rfl, rfl⟩ := Prod.mk.inj (Option.some.inj read)
      rw [cut]
      rfl
    · cases read
  · cases read

theorem readBulks_more (read : readBulks n input = some (parts, rest)) :
    readBulks n (input ++ more) = some (parts, rest ++ more) := by
  induction n generalizing input parts with
  | zero =>
    obtain ⟨rfl, rfl⟩ := Prod.mk.inj (Option.some.inj read)
    rfl
  | succ n ih =>
    obtain ⟨⟨part, after⟩, first, read⟩ := Option.bind_eq_some_iff.mp read
    obtain ⟨⟨others, left⟩, following, read⟩ := Option.bind_eq_some_iff.mp read
    obtain ⟨rfl, rfl⟩ := Prod.mk.inj (Option.some.inj read)
    simp only [readBulks,readBulk_more first,ih following,Option.bind_eq_bind,Option.bind_some]
    rfl

theorem readCommand_more (read : readCommand input = some (parts, rest)) (more : Bytes) :
    readCommand (input ++ more) = some (parts, rest ++ more) := by
  obtain ⟨⟨n, after⟩, length, read⟩ := Option.bind_eq_some_iff.mp read
  simp only [readCommand,readLength_more length,Option.bind_eq_bind,Option.bind_some]
  exact readBulks_more read

/-- From the first bytes of a pipeline a server reads its first command or waits. -/
theorem readCommand_pipeline (split : input ++ more = commands.flatMap command)
    (read : readCommand input = some (parts, rest)) :
    ∃ others, commands = parts :: others ∧ rest ++ more = others.flatMap command := by
  have whole := readCommand_more read more
  rw [split] at whole
  cases commands with
  | nil => cases whole
  | cons first others =>
    rw [List.flatMap_cons,readCommand_append] at whole
    obtain ⟨rfl, left⟩ := Prod.mk.inj (Option.some.inj whole)
    exact ⟨others, rfl, left.symm⟩

end Prefixes

end PowGate.Resp

namespace PowGate.Sockets

open Text Resp
open Redis (Database Result)

/-- What one `send` in the loop of `write` returned: a number of bytes taken, `NGX_AGAIN` with the
success of `ngx_handle_write_event`, or neither. -/
inductive Send where
  | took (count : Nat)
  | again (rearmed : Bool)
  | failed

/-- How Redis answered a command: `+OK` to `AUTH`, the result of a script, or an error line. -/
inductive Answered where
  | welcome
  | result (value : Result)
  | refused (message : Bytes)

def Answered.bytes : Answered → Bytes
  | .welcome => ascii "+OK\r\n"
  | .result (.integer value) => 58 :: integer value ++ [13, 10]
  | .result (.text value) => bulk value
  | .result .error => ascii "-ERR\r\n"
  | .refused message => 45 :: message ++ [13, 10]

/-- Why `complete` was called. -/
inductive Ending where
  | replied (found : Resp.Reply)
  | failed
  deriving DecidableEq

/-- The worker's side of a connection, and Redis' side: how many bytes have got there, how many of
these belong to the commands run, and what was answered. -/
structure Link where
  sent : Nat
  auth : Bool
  input : Bytes
  ended : Option Ending
  arrived : Nat
  taken : Nat
  ran : List (List Bytes × Answered)
  heard : Nat
  db : Database

/-- A connection that has just been made. -/
def Link.fresh (auth : Bool) (db : Database) : Link := ⟨0, auth, [], none, 0, 0, [], 0, db⟩

def Link.replies (link : Link) : Bytes := link.ran.flatMap fun run => run.2.bytes

/-- Redis runs a command. `AUTH` is the only one that is no script. -/
def answer (db : Database) (time : Int) (parts : List Bytes) : Answered × Database :=
  if parts.head? = some (ascii "AUTH") then (.welcome, db)
  else (.result (db.eval time parts).1, (db.eval time parts).2)

inductive Act where
  /-- `write` finds an error on the socket. -/
  | broken
  | send (result : Send)
  /-- All is sent; the success of `ngx_handle_read_event`. -/
  | listen (armed : Bool)
  | recv (recv : Cluster.Recv)
  /-- The deadline, or the client has gone. -/
  | drop
  /-- Bytes get to Redis. -/
  | arrive (count : Nat)
  /-- Redis runs the next command, or refuses it. -/
  | run (time : Int) (refused : Option Bytes)
  /-- Another client has changed the database. -/
  | others (db : Database)

variable (output : Bytes)

/-- One turn of the loop of `write`. -/
def Link.send (link : Link) : Send → Link
  | .took count => { link with sent := link.sent + count }
  | .again true => link
  | .again false => { link with ended := some .failed }
  | .failed => { link with ended := some .failed }

/-- One turn of the loop of `read`. -/
def Link.recv (link : Link) : Cluster.Recv → Link
  | .again true => link
  | .again false => { link with ended := some .failed }
  | .data [] => { link with ended := some .failed }
  | .data chunk =>
    let link := { link with heard := link.heard + chunk.length }
    match receive link.auth link.input chunk with
    | .more auth input => { link with auth, input }
    | .replied found => { link with ended := some (.replied found) }
    | .failed => { link with ended := some .failed }

/-- One step of the connection of a job with this output. The worker's handlers run until the job
is complete; a socket takes between one byte and all that is left, and delivers what Redis wrote, in order. -/
inductive Step (link : Link) : Act → Link → Prop where
  | broken (live : link.ended = none) : Step link .broken { link with ended := some .failed }
  | send (live : link.ended = none) (left : link.sent < output.length)
      (some_ : ∀ count, result = .took count → 1 ≤ count ∧ link.sent + count ≤ output.length) :
      Step link (.send result) (link.send result)
  | listen (live : link.ended = none) (all : link.sent = output.length) :
      Step link (.listen armed) { link with ended := if armed then none else some .failed }
  | recv (live : link.ended = none)
      (written : ∀ chunk, recv = .data chunk → chunk.length ≤ 256 ∧ chunk <+: link.replies.drop link.heard) :
      Step link (.recv recv) (link.recv recv)
  | drop (live : link.ended = none) : Step link .drop { link with ended := some .failed }
  | arrive (onWire : link.arrived + count ≤ link.sent) : Step link (.arrive count) { link with arrived := link.arrived + count }
  | run {parts : List Bytes} {rest : Bytes} {time : Int} (read : readCommand ((output.take link.arrived).drop link.taken) = some (parts, rest)) :
      Step link (.run time none) { link with
        taken := link.arrived - rest.length
        ran := link.ran ++ [(parts, (answer link.db time parts).1)]
        db := (answer link.db time parts).2 }
  | refuse {parts : List Bytes} {rest message : Bytes} {time : Int} (read : readCommand ((output.take link.arrived).drop link.taken) = some (parts, rest)) (line : 13 ∉ message) :
      Step link (.run time (some message)) { link with
        taken := link.arrived - rest.length
        ran := link.ran ++ [(parts, .refused message)] }
  | others : Step link (.others db) { link with db }

/-- What Redis has run is the beginning of the pipeline, and the bytes it has not used are the rest. -/
structure Serving (pipeline : List (List Bytes)) (link : Link) : Prop where
  used : link.taken ≤ link.arrived
  delivered : link.arrived ≤ link.sent
  handed : link.sent ≤ output.length
  ran : ∃ others, pipeline = link.ran.map Prod.fst ++ others ∧ output.drop link.taken = others.flatMap command

/-- The worker has read the replies so far in order, up to the greeting it has taken off. -/
structure Reading (auth : Bool) (link : Link) : Prop where
  heard : link.heard ≤ link.replies.length
  buffered : link.ended = none → ∃ passed, greeting auth = passed ++ greeting link.auth ∧
    link.replies.take link.heard = passed ++ link.input
  ended : ∀ found, link.ended = some (.replied found) → ∃ body text rest,
    link.replies = greeting auth ++ (body ++ rest) ∧ line body = some text ∧ parse text = .ok found

section Steps

variable {output rest : Bytes} {pipeline : List (List Bytes)} {parts : List Bytes} {auth : Bool} {link next : Link} {act : Act}

theorem fresh_serving (db : Database) (whole : output = pipeline.flatMap command) :
    Serving output pipeline (.fresh auth db) :=
  ⟨Nat.le_refl _, Nat.le_refl _, Nat.zero_le _, pipeline, rfl, whole⟩

theorem fresh_reading (db : Database) : Reading auth (.fresh auth db) := by
  refine ⟨Nat.le_refl _, fun _ => ⟨[], rfl, rfl⟩, ?_⟩
  intro found ended
  cases ended

/-- A command that is complete is the next one of the pipeline. -/
theorem Serving.run (serving : Serving output pipeline link)
    (read : readCommand ((output.take link.arrived).drop link.taken) = some (parts, rest)) (answered : Answered) (db : Database) :
    Serving output pipeline { link with
      taken := link.arrived - rest.length, ran := link.ran ++ [(parts, answered)], db := db } := by
  obtain ⟨used, delivered, handed, others, pipelined, left⟩ := serving
  have short : link.arrived ≤ output.length := Nat.le_trans delivered handed
  have split : (output.take link.arrived).drop link.taken ++ output.drop link.arrived = others.flatMap command := by
    rw [← left]
    conv_rhs => rw [← List.take_append_drop link.arrived output]
    rw [List.drop_append_of_le_length]
    rw [List.length_take]
    omega
  obtain ⟨others', rfl, after⟩ := readCommand_pipeline split read
  have unread : rest.length ≤ link.arrived := by
    have total := congrArg List.length split
    rw [List.flatMap_cons,← after] at total
    simp only [List.length_append,List.length_drop,List.length_take] at total
    omega
  refine ⟨Nat.sub_le _ _, delivered, handed, others', ?_, ?_⟩
  · simp [pipelined]
  · -- What is left after the command is what was not read, and what has not arrived.
    have behind : output.drop link.taken = command parts ++ (rest ++ output.drop link.arrived) := by
      rw [left,List.flatMap_cons,after]
    have lengths := congrArg List.length behind
    have later : output.drop (link.arrived - rest.length) =
        (output.drop link.taken).drop (command parts).length := by
      rw [List.drop_drop]
      congr 1
      simp only [List.length_append,List.length_drop] at lengths
      omega
    rw [later,behind,List.drop_left,after]

theorem step_serving (serving : Serving output pipeline link) (taken : Step output link act next) :
    Serving output pipeline next := by
  have kept := serving
  obtain ⟨used, delivered, handed, ran⟩ := serving
  cases taken with
  | broken => exact ⟨used, delivered, handed, ran⟩
  | @send result live left some_ =>
    cases result with
    | took count =>
      have := some_ count rfl
      exact ⟨used, Nat.le_trans delivered (Nat.le_add_right _ _), this.2, ran⟩
    | again rearmed => cases rearmed <;> exact ⟨used, delivered, handed, ran⟩
    | failed => exact ⟨used, delivered, handed, ran⟩
  | listen => exact ⟨used, delivered, handed, ran⟩
  | @recv recv live written =>
    cases recv with
    | again rearmed => cases rearmed <;> exact ⟨used, delivered, handed, ran⟩
    | data chunk =>
      cases chunk with
      | nil => exact ⟨used, delivered, handed, ran⟩
      | cons c chunk =>
        simp only [Link.recv]
        split <;> exact ⟨used, delivered, handed, ran⟩
  | drop => exact ⟨used, delivered, handed, ran⟩
  | arrive onWire => exact ⟨Nat.le_trans used (Nat.le_add_right _ _), onWire, handed, ran⟩
  | run read => exact kept.run read _ _
  | refuse read => exact kept.run read _ _
  | others => exact ⟨used, delivered, handed, ran⟩

/-- Only Redis adds to what it has run. -/
theorem step_ran (taken : Step output link act next) : next.ran = link.ran ∨
    (∃ time parts, act = .run time none ∧ next.ran = link.ran ++ [(parts, (answer link.db time parts).1)] ∧
      next.db = (answer link.db time parts).2) ∨
    ∃ parts message, next.ran = link.ran ++ [(parts, .refused message)] := by
  cases taken with
  | broken => exact .inl rfl
  | @send result live left some_ =>
    cases result with
    | took count => exact .inl rfl
    | again rearmed => cases rearmed <;> exact .inl rfl
    | failed => exact .inl rfl
  | listen => exact .inl rfl
  | @recv recv live written =>
    cases recv with
    | again rearmed => cases rearmed <;> exact .inl rfl
    | data chunk =>
      cases chunk with
      | nil => exact .inl rfl
      | cons c chunk =>
        simp only [Link.recv]
        split <;> exact .inl rfl
  | drop => exact .inl rfl
  | arrive => exact .inl rfl
  | run => exact .inr (.inl ⟨_, _, rfl, rfl, rfl⟩)
  | refuse => exact .inr (.inr ⟨_, _, rfl⟩)
  | others => exact .inl rfl

/-- Redis writes more. -/
theorem Reading.more (reading : Reading auth link) (same : next.ended = link.ended ∧ next.heard = link.heard ∧
    next.auth = link.auth ∧ next.input = link.input) (added : Bytes) (longer : next.replies = link.replies ++ added) :
    Reading auth next := by
  obtain ⟨heard, buffered, ended⟩ := reading
  obtain ⟨ends, hears, pending, waiting⟩ := same
  refine ⟨?_, ?_, ?_⟩
  · rw [hears,longer,List.length_append]
    omega
  · intro live
    obtain ⟨passed, greeted, front⟩ := buffered (ends ▸ live)
    refine ⟨passed, by rw [greeted,pending], ?_⟩
    rw [longer,hears,List.take_append_of_le_length heard,front,waiting]
  · intro found done
    obtain ⟨body, text, rest, whole, cut, parsed⟩ := ended found (ends ▸ done)
    exact ⟨body, text, rest ++ added, by rw [longer,whole]; simp, cut, parsed⟩

/-- A job that fails has read nothing. -/
theorem Reading.fail (reading : Reading auth link) : Reading auth { link with ended := some .failed } := by
  refine ⟨reading.heard, ?_, ?_⟩
  · intro live
    cases live
  · intro found ended
    cases ended

/-- The next bytes of the replies. -/
theorem Reading.recv (reading : Reading auth link) (live : link.ended = none) (chunk : Bytes) (some_ : chunk ≠ [])
    (written : chunk <+: link.replies.drop link.heard) : Reading auth (link.recv (.data chunk)) := by
  obtain ⟨heard, buffered, ended⟩ := reading
  obtain ⟨passed, greeted, front⟩ := buffered live
  obtain ⟨rest, following⟩ := written
  have within : link.heard + chunk.length ≤ link.replies.length := by
    have := congrArg List.length following
    simp only [List.length_append,List.length_drop] at this
    omega
  have longer : link.replies.take (link.heard + chunk.length) = passed ++ (link.input ++ chunk) := by
    rw [List.take_add,← following,List.take_left,front,List.append_assoc]
  have whole : link.replies = passed ++ (link.input ++ chunk) ++ rest := by
    rw [← longer]
    conv_lhs => rw [← List.take_append_drop (link.heard + chunk.length) link.replies]
    rw [← List.drop_drop,← following,List.drop_left]
  cases chunk with
  | nil => exact absurd rfl some_
  | cons c chunk =>
    simp only [Link.recv]
    split
    · next auth' input' read =>
      unfold receive at read
      split at read
      · cases read
      obtain ⟨skipped, greeted', split⟩ := scan_more read
      refine ⟨within, ?_, ?_⟩
      · intro _
        refine ⟨passed ++ skipped, by rw [greeted,greeted',List.append_assoc], ?_⟩
        exact longer.trans (by rw [split,List.append_assoc])
      · intro found done
        exact absurd done (by simp [live])
    · next found read =>
      unfold receive at read
      split at read
      · cases read
      obtain ⟨body, text, split, cut, parsed⟩ := scan_replied read
      refine ⟨within, by simp, ?_⟩
      intro found' done
      obtain rfl := Ending.replied.inj (Option.some.inj done)
      refine ⟨body, text, rest, ?_, cut, parsed⟩
      exact whole.trans (by rw [split,greeted]; simp)
    · refine ⟨within, ?_, ?_⟩ <;> simp

theorem step_reading (reading : Reading auth link) (taken : Step output link act next) : Reading auth next := by
  cases taken with
  | broken => exact reading.fail
  | @send result live left some_ =>
    cases result with
    | took count => exact ⟨reading.heard, reading.buffered, reading.ended⟩
    | again rearmed =>
      cases rearmed
      · exact reading.fail
      · exact reading
    | failed => exact reading.fail
  | @listen armed live all =>
    cases armed
    · exact reading.fail
    · exact reading.more ⟨live.symm, rfl, rfl, rfl⟩ [] (by simp [Link.replies])
  | @recv recv live written =>
    cases recv with
    | again rearmed =>
      cases rearmed
      · exact reading.fail
      · exact reading
    | data chunk =>
      by_cases empty : chunk = []
      · subst empty
        exact reading.fail
      · exact reading.recv live chunk empty (written chunk rfl).2
  | drop => exact reading.fail
  | arrive => exact ⟨reading.heard, reading.buffered, reading.ended⟩
  | run read => exact reading.more ⟨rfl, rfl, rfl, rfl⟩ _ (by simp [Link.replies]; rfl)
  | refuse read => exact reading.more ⟨rfl, rfl, rfl, rfl⟩ _ (by simp [Link.replies]; rfl)
  | others => exact ⟨reading.heard, reading.buffered, reading.ended⟩

end Steps

section Answers

variable {answered : Answered}

theorem parseI64_decimal (n : Nat) : parseI64 (decimal n) = if n < 2 ^ 63 then some (Int64.ofInt n) else none := by
  obtain ⟨c, rest, cut, plus, minus⟩ := decimal_unsigned n
  have parsed : parseI64 (decimal n) = (parseDigits (decimal n)).bind fun n =>
      if n < 2 ^ 63 then some (Int64.ofInt n) else none := by
    rw [cut]
    unfold parseI64
    split
    · next same => exact absurd (List.cons.inj same).1 minus
    · split
      · next same => exact absurd (List.cons.inj same).1 plus
      · rfl
  rw [parsed,parseDigits_decimal]
  rfl

/-- A formatted integer is read back as itself or not at all. -/
theorem parseI64_toInt {n : Int} (parsed : parseI64 (integer n) = some code) : code.toInt = n := by
  cases n with
  | ofNat n =>
    rw [integer,parseI64_decimal] at parsed
    split at parsed
    · next small =>
      obtain rfl := Option.some.inj parsed
      exact Int64.toInt_ofInt_of_le (by omega) (by omega)
    · cases parsed
  | negSucc n =>
    simp only [integer,parseI64,parseDigits_decimal,Option.bind_eq_bind,Option.bind_some] at parsed
    split at parsed
    · next small =>
      obtain rfl := Option.some.inj parsed
      rw [Int.negSucc_eq]
      exact Int64.toInt_ofInt_of_le (by push_cast; omega) (by push_cast; omega)
    · cases parsed

/-- Only a colon announces an integer. -/
theorem parse_integer (parsed : parse text = .ok (.integer code)) : ∃ digits, text = 58 :: digits ∧ parseI64 digits = some code := by
  unfold parse at parsed
  split at parsed
  · cases parsed
  split at parsed
  · cases parsed
  split at parsed
  · cases parsed
  · refine ⟨_, rfl, ?_⟩
    split at parsed
    · next found =>
      obtain rfl := Resp.Reply.integer.inj (Except.ok.inj parsed)
      exact found
    · cases parsed
  · cases parsed

theorem line_cons (other : c ≠ 13) (cut : line (c :: rest) = some text) : ∃ tail, text = c :: tail := by
  have step : line (c :: rest) = (line rest).map (c :: ·) := by
    rw [line]
    intro after same
    exact absurd same other
  rw [step] at cut
  obtain ⟨tail, _, rfl⟩ := Option.map_eq_some_iff.mp cut
  exact ⟨tail, rfl⟩

/-- An answer that begins with the greeting is the greeting. -/
theorem Answered.greets (whole : answered.bytes ++ more = ascii "+OK\r\n" ++ rest) : answered = .welcome ∧ more = rest := by
  have head := congrArg List.head? whole
  cases answered with
  | welcome => exact ⟨rfl, List.append_cancel_left whole⟩
  | result value =>
    cases value with
    | integer n => cases head
    | text _ => cases head
    | error => cases head
  | refused message => cases head

/-- The line of an answer reads as an integer only if the answer is the result of a script. -/
theorem Answered.reads (cut : line answered.bytes = some text) (parsed : parse text = .ok (.integer code)) :
    answered = .result (.integer code.toInt) := by
  obtain ⟨digits, rfl, read⟩ := parse_integer parsed
  have colon : ∀ {c rest}, c ≠ 13 → answered.bytes = c :: rest → c = 58 := by
    intro c rest other shape
    rw [shape] at cut
    obtain ⟨tail, same⟩ := line_cons other cut
    exact (List.cons.inj same).1.symm
  cases answered with
  | welcome => exact absurd (colon (c := 43) (by decide) rfl) (by decide)
  | result value =>
    cases value with
    | integer n =>
      have plain : 13 ∉ 58 :: integer n := by
        intro member
        rcases List.mem_cons.mp member with same | member
        · cases same
        · rcases integer_bytes member with digit | minus
          · cases digit
          · cases minus
      have whole : line (58 :: integer n ++ [13, 10]) = some (58 :: integer n) := line_plain plain
      obtain ⟨_, rfl⟩ := List.cons.inj (Option.some.inj (whole.symm.trans cut))
      rw [parseI64_toInt read]
    | text _ => exact absurd (colon (c := 36) (by decide) rfl) (by decide)
    | error => exact absurd (colon (c := 45) (by decide) rfl) (by decide)
  | refused message => exact absurd (colon (c := 45) (by decide) rfl) (by decide)

end Answers

section Jobs

variable {output : Bytes} {peer : Cluster.Peer} {script parts : List Bytes} {link : Link}

/-- The script is not the login. -/
theorem login_no_script (peer : Cluster.Peer) (script : Cluster.Script) : Cluster.eval peer.space script ∉ peer.login := by
  have words : ascii "AUTH" ≠ ascii "EVAL" := by decide
  intro member
  unfold Cluster.Peer.login at member
  split at member
  · cases member
  · have head := congrArg List.head? (List.mem_singleton.mp member)
    cases script with
    | health epoch => exact words (Option.some.inj head).symm
    | consume args => exact words (Option.some.inj head).symm

/-- The script has run only if everything was sent. -/
theorem Serving.complete (serving : Serving output (login ++ [script]) link) (apart : script ∉ login)
    (member : script ∈ link.ran.map Prod.fst) : link.ran.map Prod.fst = login ++ [script] ∧ link.sent = output.length := by
  obtain ⟨used, delivered, handed, others, pipelined, left⟩ := serving
  have done : others = [] := by
    rcases List.eq_nil_or_concat others with rfl | ⟨front, last, rfl⟩
    · rfl
    · rw [List.concat_eq_append,← List.append_assoc] at pipelined
      have same := (List.append_inj' pipelined rfl).1
      rw [same] at apart
      exact absurd (List.mem_append_left _ member) apart
  subst done
  rw [List.flatMap_nil,List.drop_eq_nil_iff] at left
  exact ⟨by simpa using pipelined.symm, by omega⟩

/-- Where only the script can have been answered, an integer that was read is its result. -/
theorem script_answered {runs : List (List Bytes × Answered)} (started : runs.map Prod.fst <+: [script])
    (whole : runs.flatMap (fun run => run.2.bytes) = body ++ rest) (cut : line body = some text)
    (parsed : parse text = .ok (.integer code)) : runs = [(script, .result (.integer code.toInt))] := by
  cases runs with
  | nil =>
    obtain ⟨rfl, _⟩ := List.append_eq_nil_iff.mp whole.symm
    cases cut
  | cons first later =>
    obtain ⟨others, pipelined⟩ := started
    obtain ⟨same, after⟩ := List.cons.inj pipelined
    obtain ⟨rfl, _⟩ : later = [] ∧ others = [] := by simpa using after
    obtain ⟨parts, answered⟩ := first
    obtain rfl : parts = script := same
    simp only [List.flatMap_cons,List.flatMap_nil,List.append_nil] at whole
    have found : line answered.bytes = some text := by
      rw [whole]
      exact line_append cut
    rw [Answered.reads found parsed]

/-- An integer that the worker has read is what the script returned, after a login that was accepted. -/
theorem Reading.integer (reading : Reading auth link) (started : link.ran.map Prod.fst <+: login ++ [script])
    (greets : login = [] ∧ auth = false ∨ login.length = 1 ∧ auth = true)
    (read : link.ended = some (.replied (.integer code))) :
    link.ran = login.map (·, Answered.welcome) ++ [(script, .result (.integer code.toInt))] := by
  obtain ⟨body, text, rest, whole, cut, parsed⟩ := reading.ended _ read
  unfold Link.replies at whole
  rcases greets with ⟨rfl, rfl⟩ | ⟨single, rfl⟩
  · have bare : link.ran.flatMap (fun run => run.2.bytes) = body ++ rest := whole
    exact script_answered started bare cut parsed
  · obtain ⟨hello, rfl⟩ := List.length_eq_one_iff.mp single
    cases runs : link.ran with
    | nil =>
      rw [runs] at whole
      cases whole
    | cons first later =>
      rw [runs] at whole started
      obtain ⟨parts, answered⟩ := first
      obtain ⟨rfl, later_⟩ : parts = hello ∧ later.map Prod.fst <+: [script] := by simpa using started
      obtain ⟨rfl, after⟩ := Answered.greets whole
      rw [script_answered later_ after cut parsed]
      rfl

/-- A result on record was put there by a run of the command, which returned it on the database as
it was then. -/
theorem ran_evaluated {start final : Link} (bare : start.ran = []) (run : Runs.Run (Step output) start acts final)
    (member : (parts, .result found) ∈ final.ran) :
    ∃ front s time t back, acts = front ++ .run time none :: back ∧ Runs.Run (Step output) start front s ∧
      Step output s (.run time none) t ∧ t.ran = s.ran ++ [(parts, .result found)] ∧ s.db.eval time parts = (found, t.db) := by
  have history := run.history (fun past link => Runs.Run (Step output) start past link ∧
    ∀ parts found, (parts, .result found) ∈ link.ran → ∃ front s time t back, past = front ++ .run time none :: back ∧
      Runs.Run (Step output) start front s ∧ Step output s (.run time none) t ∧ t.ran = s.ran ++ [(parts, .result found)] ∧
      s.db.eval time parts = (found, t.db))
    ⟨.nil, fun _ _ member => by rw [bare] at member; cases member⟩ ?_
  · exact history.2 parts found member
  · rintro past link act next ⟨run, known⟩ taken
    refine ⟨run.snoc taken, ?_⟩
    intro parts found member
    have old : (parts, .result found) ∈ link.ran → ∃ front s time t back, past ++ [act] = front ++ .run time none :: back ∧
        Runs.Run (Step output) start front s ∧ Step output s (.run time none) t ∧ t.ran = s.ran ++ [(parts, .result found)] ∧
        s.db.eval time parts = (found, t.db) := by
      intro member
      obtain ⟨front, s, time, t, back, rfl, rest⟩ := known parts found member
      exact ⟨front, s, time, t, back ++ [act], by simp, rest⟩
    rcases step_ran taken with same | ⟨time, parts', rfl, added, db⟩ | ⟨parts', message, added⟩
    · exact old (same ▸ member)
    · rw [added] at member
      rcases List.mem_append.mp member with earlier | new
      · exact old earlier
      · obtain ⟨rfl, answered⟩ := Prod.mk.inj (List.mem_singleton.mp new)
        refine ⟨past, link, time, next, [], rfl, run, taken, by rw [added,answered], ?_⟩
        rw [db]
        unfold answer at answered ⊢
        split at answered
        · cases answered
        · next script =>
          obtain rfl := Answered.result.inj answered
          rw [if_neg script]
    · rw [added] at member
      rcases List.mem_append.mp member with earlier | new
      · exact old earlier
      · cases (Prod.mk.inj (List.mem_singleton.mp new)).2

end Jobs

/-- Whatever pieces the output of a job is sent in and wherever sending stops, Redis runs at most
the job's login and then its script, and the script only when every byte was sent. -/
theorem partial_writes_run_nothing_else (crates : Crates) (peer : Cluster.Peer) (token : Bytes) (expires clock : Int64)
    (health : Bool) (db : Database) (acts : List Act) (final : Link)
    (run : Runs.Run (Step (Cluster.makeOutput crates peer token expires clock health))
      (.fresh (decide (peer.password ≠ [])) db) acts final) :
    final.ran.map Prod.fst <+: peer.login ++ [Cluster.eval peer.space (peer.script crates token expires clock health)] ∧
      (Cluster.eval peer.space (peer.script crates token expires clock health) ∈ final.ran.map Prod.fst →
        final.sent = (Cluster.makeOutput crates peer token expires clock health).length) := by
  have serving := run.invariant (Serving _ _) (fun _ _ _ serving taken => step_serving serving taken)
    (fresh_serving db (Cluster.makeOutput_pipeline crates peer token expires clock health))
  obtain ⟨others, pipelined, _⟩ := serving.ran
  refine ⟨⟨others, pipelined.symm⟩, ?_⟩
  intro member
  exact (serving.complete (login_no_script peer _) member).2

/-- A client without a password, and the output of one redemption. -/
def samplePeer : Cluster.Peer := ⟨[], [], ascii "a", ascii "e", 5⟩

def sampleOutput : Bytes := Cluster.makeOutput Reference.crates samplePeer (ascii "t") 1100 1002 false

def sampleScript : List Bytes :=
  Cluster.eval samplePeer.space (samplePeer.script Reference.crates (ascii "t") 1100 1002 false)

theorem sampleOutput_eq : sampleOutput = command sampleScript := by
  have pipelined := Cluster.makeOutput_pipeline Reference.crates samplePeer (ascii "t") 1100 1002 false
  have bare : samplePeer.login = [] := rfl
  rw [bare,List.nil_append,List.flatMap_singleton] at pipelined
  exact pipelined

/-- One byte is taken, then the client goes away, and the byte gets to Redis. -/
theorem partial_writes_cut_off : ∃ final, Runs.Run (Step sampleOutput) (.fresh false fun _ => none)
    [.send (.took 1), .drop, .arrive 1] final ∧
      (sampleScript ∈ final.ran.map Prod.fst → final.sent = sampleOutput.length) := by
  have some_ : 1 ≤ sampleOutput.length := by
    rw [sampleOutput_eq]
    exact command_length_pos _
  have first : Step sampleOutput (.fresh false fun _ => none) (.send (.took 1)) _ := .send rfl some_ (by
    rintro count ⟨⟩
    exact ⟨Nat.le_refl _, some_⟩)
  let gone : Link := { (Link.fresh false fun _ => none).send (.took 1) with ended := some .failed }
  have second : Step sampleOutput gone (.arrive 1) _ := .arrive (Nat.le_refl 1)
  have run := Runs.Run.cons first (.cons (.drop rfl) (.cons second .nil))
  exact ⟨_, run, (partial_writes_run_nothing_else Reference.crates samplePeer (ascii "t") 1100 1002 false _ _ _ run).2⟩

/-- A job is completed with the integer that its script returned when Redis ran it, after a login
that Redis accepted; so a grant is released only where the script ran once and returned 1. -/
theorem verdict_is_the_scripts (crates : Crates) (peer : Cluster.Peer) (token : Bytes) (expires clock : Int64)
    (health : Bool) (db : Database) (acts : List Act) (final : Link) (code : Int64)
    (run : Runs.Run (Step (Cluster.makeOutput crates peer token expires clock health))
      (.fresh (decide (peer.password ≠ [])) db) acts final)
    (ended : final.ended = some (.replied (.integer code))) :
    final.ran = peer.login.map (·, Answered.welcome) ++
      [(Cluster.eval peer.space (peer.script crates token expires clock health), .result (.integer code.toInt))] ∧
    ∃ front s time t back, acts = front ++ .run time none :: back ∧
      Runs.Run (Step (Cluster.makeOutput crates peer token expires clock health))
        (.fresh (decide (peer.password ≠ [])) db) front s ∧
      Step (Cluster.makeOutput crates peer token expires clock health) s (.run time none) t ∧
      t.ran = s.ran ++ [(Cluster.eval peer.space (peer.script crates token expires clock health), .result (.integer code.toInt))] ∧
      s.db.eval time (Cluster.eval peer.space (peer.script crates token expires clock health)) =
        (.integer code.toInt, t.db) := by
  have serving := run.invariant (Serving _ _) (fun _ _ _ serving taken => step_serving serving taken)
    (fresh_serving db (Cluster.makeOutput_pipeline crates peer token expires clock health))
  have reading := run.invariant (Reading _) (fun _ _ _ reading taken => step_reading reading taken) (fresh_reading db)
  obtain ⟨others, pipelined, _⟩ := serving.ran
  have greets : peer.login = [] ∧ decide (peer.password ≠ []) = false ∨
      peer.login.length = 1 ∧ decide (peer.password ≠ []) = true := by
    unfold Cluster.Peer.login
    by_cases unset : peer.password = []
    · exact .inl ⟨if_pos unset, by simp [unset]⟩
    · exact .inr ⟨by simp [unset], by simp [unset]⟩
  have all := reading.integer ⟨others, pipelined.symm⟩ greets ended
  refine ⟨all, ran_evaluated rfl run ?_⟩
  rw [all]
  simp

/-- A command that is sent, arrives and is run. -/
theorem delivered {output : Bytes} {script : List Bytes} {db db' : Database} (whole : output = command script) (time : Int)
    (answered : Answered) (evaluated : answer db time script = (answered, db')) :
    Runs.Run (Step output) (.fresh false db) [.send (.took output.length), .arrive output.length, .run time none]
      ⟨output.length, false, [], none, output.length, output.length, [(script, answered)], 0, db'⟩ := by
  have some_ : 1 ≤ output.length := by
    rw [whole]
    exact command_length_pos _
  have first : Step output (.fresh false db) (.send (.took output.length))
      ⟨output.length, false, [], none, 0, 0, [], 0, db⟩ := by
    have step : Step output (.fresh false db) (.send (.took output.length)) _ := .send rfl some_ (by
      rintro count ⟨⟩
      exact ⟨some_, by simp [Link.fresh]⟩)
    simpa [Link.send,Link.fresh] using step
  have second : Step output ⟨output.length, false, [], none, 0, 0, [], 0, db⟩ (.arrive output.length)
      ⟨output.length, false, [], none, output.length, 0, [], 0, db⟩ := by
    have step : Step output ⟨output.length, false, [], none, 0, 0, [], 0, db⟩ (.arrive output.length) _ := .arrive (by simp)
    simpa using step
  have third : Step output ⟨output.length, false, [], none, output.length, 0, [], 0, db⟩ (.run time none)
      ⟨output.length, false, [], none, output.length, output.length, [(script, answered)], 0, db'⟩ := by
    have read : readCommand ((output.take output.length).drop 0) = some (script, []) := by
      rw [List.take_length,List.drop_zero,whole,← List.append_nil (command script)]
      exact readCommand_append script []
    have step : Step output ⟨output.length, false, [], none, output.length, 0, [], 0, db⟩ (.run time none) _ := .run read
    simpa [evaluated] using step
  exact .cons first (.cons second (.cons third .nil))

theorem sampleScript_eq : sampleScript =
    (Redis.Call.consume (ascii "a") (ascii "e") (ascii "t") 1100 5 1002).parts Reference.crates := rfl

/-- The script returns 1 in a namespace that was provisioned. -/
theorem sampleScript_returns : ∃ db : Database, (db.eval 1002 sampleScript).1 = .integer 1 := by
  have returned : (Redis.Call.apply Reference.crates (Redis.Call.apply Reference.crates ⟨none, none, fun _ => none⟩ 1000
      (.provision (ascii "a") none (ascii "e"))).2 1002
      (.consume (ascii "a") (ascii "e") (ascii "t") 1100 5 1002)).1 = .integer 1 := by decide +kernel
  have plain : 125 ∉ ascii "a" := by decide
  have bare : Redis.Represents (fun _ => none) (ascii "a") ⟨none, none, fun _ => none⟩ := ⟨rfl, rfl, fun _ _ => rfl⟩
  obtain ⟨db, _, represents, _⟩ := Redis.call_simulates Reference.crates 1000
    (.provision (ascii "a") none (ascii "e")) bare plain
  obtain ⟨after, evaluated, _⟩ := Redis.call_simulates Reference.crates 1002
    (.consume (ascii "a") (ascii "e") (ascii "t") 1100 5 1002) represents plain
  refine ⟨db, ?_⟩
  rw [sampleScript_eq,evaluated]
  exact returned

/-- Redis runs the script of the sample and the worker reads 1. -/
theorem verdict_is_the_scripts_one : ∃ db acts final, Runs.Run (Step sampleOutput) (.fresh false db) acts final ∧
    final.ended = some (.replied (.integer 1)) ∧ final.ran = [(sampleScript, .result (.integer 1))] := by
  obtain ⟨db, returned⟩ := sampleScript_returns
  have evaluated : answer db 1002 sampleScript = (.result (.integer 1), (db.eval 1002 sampleScript).2) := by
    have script : sampleScript.head? ≠ some (ascii "AUTH") := by decide
    rw [answer,if_neg script,returned]
  have front := delivered sampleOutput_eq 1002 _ evaluated
  have written : ∀ chunk, Cluster.Recv.data (ascii ":1\r\n") = .data chunk →
      chunk.length ≤ 256 ∧ chunk <+: ascii ":1\r\n" := by
    rintro chunk ⟨⟩
    exact ⟨by decide, List.prefix_refl _⟩
  have run := front.snoc (.recv rfl written)
  exact ⟨db, _, _, run, rfl,
    (verdict_is_the_scripts Reference.crates samplePeer (ascii "t") 1100 1002 false db _ _ 1 run rfl).1⟩

end PowGate.Sockets
