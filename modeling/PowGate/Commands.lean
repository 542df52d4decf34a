import PowGate.Cluster

/-! The commands of a job as bytes on its connection, and a strict RESP2 reader for them. Each
part is announced by its length, so no byte of a part is ever read as framing. -/
namespace PowGate.Resp

open Text

def bulk (part : Bytes) : Bytes := 36 :: decimal part.length ++ 13 :: 10 :: part ++ [13, 10]

def command (parts : List Bytes) : Bytes := 42 :: decimal parts.length ++ 13 :: 10 :: parts.flatMap bulk

/-- A length line behind its type byte. -/
def readLength (kind : UInt8) : Bytes → Option (Nat × Bytes)
  | [] => none
  | c :: rest =>
    if c = kind then do
      let text ← line rest
      let n ← parseDigits text
      return (n, rest.drop (text.length + 2))
    else none

/-- A bulk string: as many bytes as announced, then CRLF. -/
def readBulk (input : Bytes) : Option (Bytes × Bytes) := do
  let (n, rest) ← readLength 36 input
  if n ≤ rest.length then
    match rest.drop n with
    | 13 :: 10 :: after => some (rest.take n, after)
    | _ => none
  else none

def readBulks : Nat → Bytes → Option (List Bytes × Bytes)
  | 0, input => some ([], input)
  | n + 1, input => do
    let (part, rest) ← readBulk input
    let (parts, after) ← readBulks n rest
    return (part :: parts, after)

def readCommand (input : Bytes) : Option (List Bytes × Bytes) := do
  let (n, rest) ← readLength 42 input
  readBulks n rest

/-- Commands up to the end of the input. Every command has a byte, so the length is enough fuel. -/
def readCommands : Nat → Bytes → Option (List (List Bytes))
  | _, [] => some []
  | 0, _ => none
  | fuel + 1, input => do
    let (parts, rest) ← readCommand input
    let others ← readCommands fuel rest
    return parts :: others

/-- What a server reads from a pipeline: all of it, as commands, or nothing. -/
def decode (input : Bytes) : Option (List (List Bytes)) := readCommands input.length input

theorem decimal_no_return (n : Nat) : 13 ∉ decimal n := fun member => by
  have digit := decimal_digits member
  simp [isDigit] at digit

theorem readLength_append (kind : UInt8) (n : Nat) (rest : Bytes) :
    readLength kind (kind :: decimal n ++ 13 :: 10 :: rest) = some (n, rest) := by
  have cut : line (decimal n ++ 13 :: 10 :: rest) = some (decimal n) := line_plain (decimal_no_return n)
  have passed : (decimal n ++ 13 :: 10 :: rest).drop ((decimal n).length + 2) = rest := by
    rw [← List.drop_drop,List.drop_left]
    rfl
  simp only [List.cons_append,readLength,if_true,cut,Option.bind_eq_bind,Option.bind_some,
    parseDigits_decimal,passed]
  rfl

/-- A part is read back whatever its bytes are and whatever follows. -/
theorem readBulk_append (part rest : Bytes) : readBulk (bulk part ++ rest) = some (part, rest) := by
  have shape : bulk part ++ rest = 36 :: decimal part.length ++ 13 :: 10 :: (part ++ 13 :: 10 :: rest) := by
    simp [bulk]
  rw [readBulk,shape,readLength_append]
  simp

theorem readBulks_append (parts : List Bytes) (rest : Bytes) :
    readBulks parts.length (parts.flatMap bulk ++ rest) = some (parts, rest) := by
  induction parts with
  | nil => rfl
  | cons part parts ih =>
    rw [List.flatMap_cons,List.append_assoc,List.length_cons,readBulks,readBulk_append]
    simp [ih]

theorem readCommand_append (parts : List Bytes) (rest : Bytes) :
    readCommand (command parts ++ rest) = some (parts, rest) := by
  have shape : command parts ++ rest =
      42 :: decimal parts.length ++ 13 :: 10 :: (parts.flatMap bulk ++ rest) := by simp [command]
  rw [readCommand,shape,readLength_append]
  exact readBulks_append parts rest

theorem readCommands_flatMap (commands : List (List Bytes)) (enough : commands.length ≤ fuel) :
    readCommands fuel (commands.flatMap command) = some commands := by
  induction commands generalizing fuel with
  | nil => cases fuel <;> rfl
  | cons parts commands ih =>
    obtain ⟨fuel, rfl⟩ : ∃ less, fuel = less + 1 := Nat.exists_eq_succ_of_ne_zero (by
      rintro rfl
      simp at enough)
    have later := ih (Nat.le_of_succ_le_succ enough)
    have first := readCommand_append parts (commands.flatMap command)
    rw [List.flatMap_cons]
    have start : command parts ++ commands.flatMap command =
      42 :: (decimal parts.length ++ 13 :: 10 :: parts.flatMap bulk ++ commands.flatMap command) := rfl
    rw [start] at first ⊢
    simp only [readCommands,first,later,Option.bind_eq_bind,Option.bind_some]
    rfl

theorem command_length_pos (parts : List Bytes) : 1 ≤ (command parts).length := by
  simp [command]

theorem commands_length_le (commands : List (List Bytes)) :
    commands.length ≤ (commands.flatMap command).length := by
  induction commands with
  | nil => rfl
  | cons parts commands ih =>
    have := command_length_pos parts
    simp only [List.flatMap_cons,List.length_append,List.length_cons]
    omega

theorem decode_commands (commands : List (List Bytes)) :
    decode (commands.flatMap command) = some commands :=
  readCommands_flatMap commands (commands_length_le commands)

end PowGate.Resp

namespace PowGate.Cluster

open Text Resp

def healthText : Bytes := ascii ("if redis.call('GET',KEYS[1])~=ARGV[1] or not " ++
  "tonumber(redis.call('GET',KEYS[2])) then return -2 end return 1")

def consumeText : Bytes := ascii ("\nif redis.call('GET',KEYS[1])~=ARGV[1] then return -2 end\n" ++
  "local previous=tonumber(redis.call('GET',KEYS[3]))\n" ++
  "if not previous then return -2 end\n" ++
  "local current=tonumber(redis.call('TIME')[1])\n" ++
  "local skew=tonumber(ARGV[3])\n" ++
  "if math.abs(current-tonumber(ARGV[4]))>skew then return -3 end\n" ++
  "local now=math.max(current,previous)\n" ++
  "local expires=tonumber(ARGV[2])\n" ++
  "if expires<=now then return -1 end\n" ++
  "if now>previous then redis.call('SET',KEYS[3],tostring(now)) end\n" ++
  "if redis.call('SET',KEYS[2],'1','NX','EX',expires-now+skew+1) then return 1 end\n" ++
  "return 0\n")

/-- The part of the configuration that goes into the bytes of a job. -/
structure Peer where
  username : Bytes
  password : Bytes
  space : Bytes
  epoch : Bytes
  skew : Int64

/-- The `AUTH` command, sent first when there is a password. -/
def Peer.login (peer : Peer) : List (List Bytes) :=
  if peer.password = [] then []
  else [[ascii "AUTH"] ++ (if peer.username = [] then [] else [peer.username]) ++ [peer.password]]

def eval (space : Bytes) : Script → List Bytes
  | .health epoch =>
    [ascii "EVAL", healthText, ascii "2", ascii "powgate:\x7b" ++ space ++ ascii "\x7d:epoch",
      ascii "powgate:\x7b" ++ space ++ ascii "\x7d:clock", epoch]
  | .consume args =>
    [ascii "EVAL", consumeText, ascii "3", ascii "powgate:\x7b" ++ space ++ ascii "\x7d:epoch", args.marker,
      ascii "powgate:\x7b" ++ space ++ ascii "\x7d:clock", args.epoch, integer args.expires,
      integer args.skew, integer args.caller]

/-- `output` in `make_job`, when the wall clock shows `clock`. -/
def makeOutput (crates : Crates) (peer : Peer) (token : Bytes) (expires clock : Int64) (health : Bool) : Bytes :=
  let keys := Redis.keys crates peer.space peer.epoch token
  let auth := if peer.password = [] then []
    else command ([ascii "AUTH"] ++ (if peer.username = [] then [] else [peer.username]) ++ [peer.password])
  auth ++ if health then
    command [ascii "EVAL", healthText, ascii "2", keys.1, keys.2.2, peer.epoch]
  else
    command [ascii "EVAL", consumeText, ascii "3", keys.1, keys.2.1, keys.2.2, peer.epoch,
      integer expires.toInt, integer peer.skew.toInt, integer clock.toInt]

def Peer.script (peer : Peer) (crates : Crates) (token : Bytes) (expires clock : Int64) : Bool → Script
  | true => .health peer.epoch
  | false => .consume ⟨peer.epoch, (Redis.keys crates peer.space peer.epoch token).2.1, expires.toInt,
      peer.skew.toInt, clock.toInt⟩

theorem login_commands (peer : Peer) : peer.login.flatMap command = if peer.password = [] then []
    else command ([ascii "AUTH"] ++ (if peer.username = [] then [] else [peer.username]) ++ [peer.password]) := by
  unfold Peer.login
  by_cases unset : peer.password = []
  · rw [if_pos unset,if_pos unset]
    rfl
  · rw [if_neg unset,if_neg unset]
    exact List.append_nil _

theorem eval_command (peer : Peer) (crates : Crates) (token : Bytes) (expires clock : Int64) (health : Bool) :
    command (eval peer.space (peer.script crates token expires clock health)) =
      if health then
        command [ascii "EVAL", healthText, ascii "2", (Redis.keys crates peer.space peer.epoch token).1,
          (Redis.keys crates peer.space peer.epoch token).2.2, peer.epoch]
      else
        command [ascii "EVAL", consumeText, ascii "3", (Redis.keys crates peer.space peer.epoch token).1,
          (Redis.keys crates peer.space peer.epoch token).2.1,
          (Redis.keys crates peer.space peer.epoch token).2.2, peer.epoch, integer expires.toInt,
          integer peer.skew.toInt, integer clock.toInt] := by
  have epoch : (Redis.keys crates peer.space peer.epoch token).1 =
      ascii "powgate:\x7b" ++ peer.space ++ ascii "\x7d:epoch" := by
    simp only [Redis.keys,List.append_assoc]
    rfl
  have clock : (Redis.keys crates peer.space peer.epoch token).2.2 =
      ascii "powgate:\x7b" ++ peer.space ++ ascii "\x7d:clock" := by
    simp only [Redis.keys,List.append_assoc]
    rfl
  rw [epoch,clock]
  cases health <;> rfl

theorem makeOutput_pipeline (crates : Crates) (peer : Peer) (token : Bytes) (expires clock : Int64) (health : Bool) :
    makeOutput crates peer token expires clock health =
      (peer.login ++ [eval peer.space (peer.script crates token expires clock health)]).flatMap command := by
  rw [List.flatMap_append,login_commands,List.flatMap_singleton,eval_command]
  rfl

def Config.peer (config : Config) (username password : Bytes) : Peer where
  username := username
  password := password
  space := config.space
  epoch := config.epoch
  skew := config.skew

/-- What a server reads from a worker is the script of the job the worker made. -/
theorem job_read_back (crates : Crates) (config : Config) (username password : Bytes) (request : Nat)
    (grant : Prepared) (token : Bytes) (expires clock : Int64) :
    decode (makeOutput crates (config.peer username password) token expires clock false) =
      some ((config.peer username password).login ++
        [eval config.space (makeJob crates config request grant token expires clock).output]) ∧
    decode (makeOutput crates (config.peer username password) token expires clock true) =
      some ((config.peer username password).login ++ [eval config.space (makeHealth config).output]) := by
  rw [makeOutput_pipeline,makeOutput_pipeline]
  exact ⟨decode_commands _, decode_commands _⟩

/-- Whatever the commands are, a server reads back exactly them; so it reads exactly the login and
the script of a job from the job's bytes. -/
theorem commands_read_back (crates : Crates) :
    (∀ commands : List (List Bytes), decode (commands.flatMap command) = some commands) ∧
    ∀ (peer : Peer) (token : Bytes) (expires clock : Int64) (health : Bool),
      decode (makeOutput crates peer token expires clock health) =
        some (peer.login ++ [eval peer.space (peer.script crates token expires clock health)]) := by
  refine ⟨decode_commands, ?_⟩
  intro peer token expires clock health
  rw [makeOutput_pipeline]
  exact decode_commands _

end PowGate.Cluster
