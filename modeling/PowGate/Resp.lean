import PowGate.Ledger
import PowGate.Text

/-! The bounded RESP2 reader of the core crate, and what the read handler makes of the
bytes on a job's connection. -/
namespace PowGate.Resp

open Text

inductive Reply where
  | integer (value : Int64)
  | ok
  | null
  | error
  deriving DecidableEq

/-- The text before the first CRLF, if there is one. -/
def line : Bytes → Option Bytes
  | 13 :: 10 :: _ => some []
  | c :: rest => (line rest).map (c :: ·)
  | [] => none

/-- What a line says. -/
def parse (text : Bytes) : Except String Reply :=
  if text = ascii "+OK" then .ok .ok
  else if text = ascii "$-1" then .ok .null
  else match text with
  | 45 :: _ => .ok .error
  | 58 :: digits => match parseI64 digits with
    | some value => .ok (.integer value)
    | none => .error "invalid Redis integer"
  | _ => .error "unexpected Redis reply"

/-- `redis::reply`: nothing yet, or a reply with the number of bytes it took. -/
def reply (input : Bytes) : Except String (Option (Reply × Nat)) :=
  if 1024 < input.length then .error "oversized Redis reply"
  else match line input with
  | none => .ok none
  | some text => (parse text).map fun found => some (found, text.length + 2)

/-- The arguments `complete` is called with for the reply to a script. -/
def judge (found : Reply) : Ledger.Outcome × Bool :=
  if found = .integer 1 then (.accepted, false)
  else if found = .integer 0 then (.reused, false)
  else if found = .integer (-1) then (.expired, false)
  else if found = .integer (-2) then (.full, true)
  else (.full, false)

/-- Only the integer 1 is an acceptance. -/
theorem judge_accepted : (judge found).1 = .accepted ↔ found = .integer 1 := by
  unfold judge
  split
  · next one => simp [one]
  · next other =>
    simp only [other,iff_false]
    split
    · simp
    split
    · simp
    split <;> simp

/-- What the inner loop of `read` ends in: more bytes are needed, or the job is complete,
by a reply to the script or by a failure. -/
inductive Scan where
  | more (auth : Bool) (input : Bytes)
  | replied (found : Reply)
  | failed
  deriving DecidableEq

/-- The loop after authentication. -/
def scanScript (input : Bytes) : Scan :=
  match reply input with
  | .error _ => .failed
  | .ok none => .more false input
  | .ok (some (found, _)) => .replied found

/-- A pending `AUTH` must be answered by `+OK` first. -/
def scan (auth : Bool) (input : Bytes) : Scan :=
  if auth then
    match reply input with
    | .error _ => .failed
    | .ok none => .more true input
    | .ok (some (found, used)) => if found = .ok then scanScript (input.drop used) else .failed
  else scanScript input

/-- What a successful `AUTH` is answered by, when one is pending. -/
def greeting (auth : Bool) : Bytes := if auth then ascii "+OK\r\n" else []

/-- The bytes of one `recv` call, on top of those already buffered. -/
def receive (auth : Bool) (input chunk : Bytes) : Scan :=
  if 1024 < input.length + chunk.length then .failed else scan auth (input ++ chunk)

section Lines

variable {input text more : Bytes}

/-- A line ends at its CRLF. -/
theorem line_split (found : line input = some text) : ∃ rest, input = text ++ 13 :: 10 :: rest := by
  fun_induction line input generalizing text with
  | case1 rest =>
    obtain rfl := Option.some.inj found
    exact ⟨rest, rfl⟩
  | case2 c rest _ ih =>
    obtain ⟨tail, here, rfl⟩ := Option.map_eq_some_iff.mp found
    obtain ⟨after, rfl⟩ := ih here
    exact ⟨after, rfl⟩
  | case3 => cases found

/-- More bytes do not change the first line. -/
theorem line_append (found : line input = some text) : line (input ++ more) = some text := by
  fun_induction line input generalizing text with
  | case1 rest => exact found
  | case2 c rest other ih =>
    obtain ⟨tail, here, rfl⟩ := Option.map_eq_some_iff.mp found
    have later := ih here
    rw [List.cons_append,line,later]
    · rfl
    · rintro after rfl same
      cases rest with
      | nil => cases here
      | cons d rest =>
        obtain ⟨rfl, _⟩ := List.cons.inj same
        exact other rest rfl rfl
  | case3 => cases found

/-- A line without a carriage return inside is cut off as it is. -/
theorem line_plain (plain : 13 ∉ text) : line (text ++ 13 :: 10 :: more) = some text := by
  induction text with
  | nil => rfl
  | cons c text ih =>
    have later := ih fun member => plain (List.mem_cons_of_mem _ member)
    rw [List.cons_append,line,later]
    · rfl
    · rintro after rfl
      exact absurd List.mem_cons_self plain

theorem parse_ok (read : parse text = .ok .ok) : text = ascii "+OK" := by
  unfold parse at read
  split at read
  · next same => exact same
  split at read
  · cases read
  split at read
  · cases read
  · split at read <;> cases read
  · cases read

/-- An error line is never an integer. -/
theorem parse_error (text : Bytes) : parse (45 :: text) = .ok .error := by
  have status : ¬ 45 :: text = ascii "+OK" := fun same => by cases congrArg List.head? same
  have null : ¬ 45 :: text = ascii "$-1" := fun same => by cases congrArg List.head? same
  simp [parse,status,null]

theorem reply_some (read : reply input = .ok (some (found, used))) :
    ∃ text, line input = some text ∧ parse text = .ok found ∧ used = text.length + 2 := by
  unfold reply at read
  split at read
  · cases read
  split at read
  · cases read
  · next text cut =>
    cases parsed : parse text with
    | error _ =>
      rw [parsed] at read
      cases read
    | ok value =>
      rw [parsed] at read
      cases read
      exact ⟨text, cut, parsed, rfl⟩

/-- The reply to a pending `AUTH` is the greeting, and nothing else is skipped. -/
theorem reply_greeting (read : reply input = .ok (some (.ok, used))) :
    input = greeting true ++ input.drop used := by
  obtain ⟨text, cut, parsed, rfl⟩ := reply_some read
  obtain ⟨rest, rfl⟩ := line_split cut
  obtain rfl := parse_ok parsed
  rfl

theorem scanScript_replied (read : scanScript input = .replied found) :
    ∃ text, line input = some text ∧ parse text = .ok found := by
  unfold scanScript at read
  split at read
  · cases read
  · cases read
  · next value used answered =>
    cases read
    obtain ⟨text, cut, parsed, _⟩ := reply_some answered
    exact ⟨text, cut, parsed⟩

theorem scanScript_more (read : scanScript input = .more auth' input') : auth' = false ∧ input' = input := by
  unfold scanScript at read
  split at read
  · cases read
  · cases read
    exact ⟨rfl, rfl⟩
  · cases read

/-- A reply to the script is the first line after the greeting. -/
theorem scan_replied (read : scan auth input = .replied found) :
    ∃ body text, input = greeting auth ++ body ∧ line body = some text ∧ parse text = .ok found := by
  unfold scan at read
  cases auth with
  | false =>
    obtain ⟨text, cut, parsed⟩ := scanScript_replied read
    exact ⟨input, text, rfl, cut, parsed⟩
  | true =>
    simp only [if_true] at read
    split at read
    · cases read
    · cases read
    · next value used answered =>
      split at read
      · next welcome =>
        subst welcome
        obtain ⟨text, cut, parsed⟩ := scanScript_replied read
        exact ⟨_, text, reply_greeting answered, cut, parsed⟩
      · cases read

/-- As long as bytes are missing, only the greeting has been taken off. -/
theorem scan_more (read : scan auth input = .more auth' input') :
    ∃ passed, greeting auth = passed ++ greeting auth' ∧ input = passed ++ input' := by
  unfold scan at read
  cases auth with
  | false =>
    obtain ⟨rfl, rfl⟩ := scanScript_more read
    exact ⟨[], rfl, rfl⟩
  | true =>
    simp only [if_true] at read
    split at read
    · cases read
    · cases read
      exact ⟨[], rfl, rfl⟩
    · next value used answered =>
      split at read
      · next welcome =>
        subst welcome
        obtain ⟨rfl, rfl⟩ := scanScript_more read
        exact ⟨greeting true, by simp [greeting], reply_greeting answered⟩
      · cases read

end Lines

end PowGate.Resp
