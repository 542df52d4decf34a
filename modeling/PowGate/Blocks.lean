import Mathlib.Data.Finmap
import PowGate.Address
import PowGate.Cluster
import PowGate.Reference

/-! The block that configures the Redis backend. nginx hands over one directive after another; their
values are collected in a map, taken out of it again one by one, read and checked. -/
namespace PowGate.Blocks

open Text

/-- `std::net::SocketAddr`. -/
structure SocketAddr where
  ip : IpAddr
  scope : Nat
  port : Nat
  deriving DecidableEq

/-- A decimal number of any length below a limit. -/
def readDecimal (limit : Nat) (s : Bytes) : Option (Nat × Bytes) := readNumber 10 s.length limit true s

def readPort (s : Bytes) : Option (Nat × Bytes) := (readGivenChar 58 s).bind (readDecimal 65536)

def readScope (s : Bytes) : Option (Nat × Bytes) := match readGivenChar 37 s with
  | some rest => readDecimal (2 ^ 32) rest
  | none => some (0, s)

def readSocketV6 (s : Bytes) : Option (SocketAddr × Bytes) := do
  let (bits, s) ← readIpv6 (← readGivenChar 91 s)
  let (scope, s) ← readScope s
  let (port, s) ← readPort (← readGivenChar 93 s)
  return (⟨.v6 bits, scope, port⟩, s)

/-- `str::parse::<SocketAddr>`. -/
def SocketAddr.parse (s : Bytes) : Option SocketAddr :=
  let read := match (do
      let (bits, s) ← readIpv4 s
      let (port, s) ← readPort s
      return ((⟨.v4 (BitVec.ofNat 32 bits), 0, port⟩ : SocketAddr), s)) with
    | some found => some found
    | none => readSocketV6 s
  match read with
  | some (address, []) => some address
  | _ => none

example : SocketAddr.parse (ascii "127.0.0.1:6379") = some ⟨.v4 0x7f000001#32, 0, 6379⟩ := by decide

/-- The `HashMap` of a block. -/
abbrev Values := Finmap fun _ : Bytes => Bytes

def names : List Bytes :=
  [ascii "address", ascii "namespace", ascii "epoch_file", ascii "username", ascii "password_file", ascii "timeout",
    ascii "connections", ascii "queue", ascii "clock_skew"]

/-- The handler of one directive, with its words. -/
def inner (values : Values) : List Bytes → Option Values
  | [name, value] =>
    if !names.contains name then none
    else if name ∈ values then none
    else some (values.insert name value)
  | _ => none

/-- The files of the machine: as bytes, or as a text. -/
structure Files where
  read : Bytes → Option Bytes
  readToString : Bytes → Option Bytes

/-- The `Config` of `cluster.rs`. -/
structure Setting where
  address : SocketAddr
  username : Bytes
  password : Bytes
  timeout : UInt64
  config : Cluster.Config

def isNameByte (c : UInt8) : Bool := isDigit c || (65 ≤ c && c ≤ 90) || (97 ≤ c && c ≤ 122) || c = 95 || c = 45

def isHexDigit (c : UInt8) : Bool := isDigit c || (65 ≤ c && c ≤ 70) || (97 ≤ c && c ≤ 102)

/-- A value that is there must be a number. -/
def number (read : Bytes → Option α) (default : α) : Option Bytes → Option α
  | some text => read text
  | none => some default

def stripNewline (bytes : Bytes) : Bytes := if bytes.getLast? = some 10 then bytes.dropLast else bytes

section Readers

variable (files : Files)

/-- The epoch in a file. -/
def readEpoch (path : Bytes) : Option Bytes := do
  let text ← files.readToString path
  let epoch := lower (trim text)
  if epoch.length = 64 ∧ epoch.all isHexDigit = true then some epoch else none

def readPassword : Option Bytes → Option Bytes
  | some path => do
    let bytes ← files.read path
    let password := stripNewline bytes
    if password = [] ∨ 512 < password.length then none else some password
  | none => some []

end Readers

/-- `values.remove`. -/
def remove (name : String) : StateT Values Option (Option Bytes) :=
  fun values => some (values.lookup (ascii name), values.erase (ascii name))

/-- A step that may fail and leaves the map alone. -/
def need (found : Option α) : StateT Values Option α := fun values => found.map fun a => (a, values)

/-- What is checked of the values. -/
structure Valid (space username password : Bytes) (timeout connections queue : UInt64) (skew : Int64) : Prop where
  space : space ≠ [] ∧ space.length ≤ 64 ∧ space.all isNameByte = true
  username : ¬(128 < username.length ∨ (username ≠ [] ∧ password = []))
  limits : (10 ≤ timeout ∧ timeout ≤ 5000) ∧ (1 ≤ connections ∧ connections ≤ 32) ∧ queue ≤ 1024 ∧ (1 ≤ skew ∧ skew ≤ 60)

/-- Checked values are a configuration. -/
def Setting.make (crates : Crates) (address : SocketAddr) (epoch : Bytes) {space username password : Bytes}
    {timeout connections queue : UInt64} {skew : Int64} (valid : Valid space username password timeout connections queue skew) :
    Setting where
  address := address
  username := username
  password := password
  timeout := timeout
  config :=
    { space := space
      epoch := epoch
      issuer := crates.sha256 (ascii "redis:" ++ space ++ 58 :: epoch)
      auth := password ≠ []
      connections := connections.toNat
      queue := queue.toNat
      skew := skew
      space_plain := by
        intro c member
        have plain := List.all_eq_true.mp valid.space.2.2 c member
        simp only [isNameByte, Bool.or_eq_true, Bool.and_eq_true, decide_eq_true_eq] at plain
        tauto
      connections_range := valid.limits.2.1
      queue_range := valid.limits.2.2.1
      skew_range := valid.limits.2.2.2 }

/-- The closure of `configure`. -/
def parsed (crates : Crates) (files : Files) : StateT Values Option Setting := do
  let address ← need ((← remove "address").bind SocketAddr.parse)
  let space ← need (← remove "namespace")
  if plain : space ≠ [] ∧ space.length ≤ 64 ∧ space.all isNameByte = true then
    let epoch ← need ((← remove "epoch_file").bind (readEpoch files))
    let password ← need (readPassword files (← remove "password_file"))
    let username := (← remove "username").getD []
    if named : 128 < username.length ∨ (username ≠ [] ∧ password = []) then need none
    else
      let timeout ← need (number parseU64 500 (← remove "timeout"))
      let connections ← need (number parseU64 4 (← remove "connections"))
      let queue ← need (number parseU64 64 (← remove "queue"))
      let skew ← need (number parseI64 5 (← remove "clock_skew"))
      if limits : (10 ≤ timeout ∧ timeout ≤ 5000) ∧ (1 ≤ connections ∧ connections ≤ 32) ∧ queue ≤ 1024 ∧
          (1 ≤ skew ∧ skew ≤ 60) then
        if (← get) ≠ ∅ then need none
        else pure (Setting.make crates address epoch ⟨plain, named, limits⟩)
      else need none
  else need none

/-- `pow_gate_redis`: the lines of the block, where no backend is configured yet. -/
def configure (crates : Crates) (files : Files) (cluster : Option Setting) (lines : List (List Bytes)) : Option Setting :=
  if cluster.isSome then none
  else do
    let values ← lines.foldlM inner ∅
    (parsed crates files).run' values

section Meaning

instance instDecidableValid {space username password : Bytes} {timeout connections queue : UInt64} {skew : Int64} :
    Decidable (Valid space username password timeout connections queue skew) :=
  decidable_of_iff (_ ∧ _ ∧ _) ⟨fun ⟨a, b, c⟩ => ⟨a, b, c⟩, fun ⟨a, b, c⟩ => ⟨a, b, c⟩⟩

/-- What a block says: each directive is looked up by its name, and all of them together must be valid. -/
def meaning (crates : Crates) (files : Files) (given : Bytes → Option Bytes) : Option Setting := do
  let address ← (given (ascii "address")).bind SocketAddr.parse
  let space ← given (ascii "namespace")
  let epoch ← (given (ascii "epoch_file")).bind (readEpoch files)
  let password ← readPassword files (given (ascii "password_file"))
  let timeout ← number parseU64 500 (given (ascii "timeout"))
  let connections ← number parseU64 4 (given (ascii "connections"))
  let queue ← number parseU64 64 (given (ascii "queue"))
  let skew ← number parseI64 5 (given (ascii "clock_skew"))
  if valid : Valid space ((given (ascii "username")).getD []) password timeout connections queue skew then
    some (Setting.make crates address epoch valid)
  else none

theorem remove_bind (name : String) (f : Option Bytes → StateT Values Option α) (values : Values) :
    (remove name >>= f) values = f (values.lookup (ascii name)) (values.erase (ascii name)) := rfl

theorem need_bind (found : Option α) (f : α → StateT Values Option β) (values : Values) :
    (need found >>= f) values = found.bind fun a => f a values := by
  cases found <;> rfl

theorem mem_erased {values : Values} (taken : List Bytes) (name : Bytes) :
    name ∈ taken.foldl (fun values name => values.erase name) values ↔ name ∉ taken ∧ name ∈ values := by
  induction taken generalizing values with
  | nil => simp
  | cons first rest ih => simp [ih, Finmap.mem_erase, and_assoc, and_left_comm]

/-- Once every name is taken out, nothing is left. -/
theorem erased {values : Values} (taken : List Bytes) (known : ∀ name ∈ values, name ∈ taken) :
    taken.foldl (fun values name => values.erase name) values = ∅ := by
  apply Finmap.ext_lookup
  intro name
  rw [Finmap.lookup_empty, Finmap.lookup_eq_none, mem_erased]
  exact fun both => both.1 (known name both.2)

theorem parsed_meaning (crates : Crates) (files : Files) {values : Values} (known : ∀ name ∈ values, name ∈ names) :
    (parsed crates files).run' values = meaning crates files values.lookup := by
  have empty : ((((((((values.erase (ascii "address")).erase (ascii "namespace")).erase (ascii "epoch_file")).erase
      (ascii "password_file")).erase (ascii "username")).erase (ascii "timeout")).erase (ascii "connections")).erase
      (ascii "queue")).erase (ascii "clock_skew") = ∅ := by
    have all : ∀ name ∈ names, name ∈ [ascii "address", ascii "namespace", ascii "epoch_file", ascii "password_file",
      ascii "username", ascii "timeout", ascii "connections", ascii "queue", ascii "clock_skew"] := by decide +kernel
    exact erased _ fun name member => all name (known name member)
  change (parsed crates files values).map Prod.fst = _
  unfold parsed meaning
  simp only [remove_bind, need_bind, Option.bind_eq_bind]
  cases (values.lookup (ascii "address")).bind SocketAddr.parse with
  | none => rfl
  | some address =>
  simp only [Option.bind_some]
  rw [Finmap.lookup_erase_ne (by decide)]
  cases values.lookup (ascii "namespace") with
  | none => rfl
  | some space =>
  simp only [Option.bind_some]
  by_cases plain : space ≠ [] ∧ space.length ≤ 64 ∧ space.all isNameByte = true
  swap
  · have invalid : ∀ u p t c q k, ¬Valid space u p t c q k := fun _ _ _ _ _ _ valid => plain valid.space
    rw [dif_neg plain]
    simp [invalid, need]
  rw [dif_pos plain, remove_bind, need_bind, Finmap.lookup_erase_ne (by decide), Finmap.lookup_erase_ne (by decide)]
  cases (values.lookup (ascii "epoch_file")).bind (readEpoch files) with
  | none => rfl
  | some epoch =>
  simp only [Option.bind_some]
  rw [remove_bind, need_bind]
  simp (disch := decide) only [Finmap.lookup_erase_ne]
  cases readPassword files (values.lookup (ascii "password_file")) with
  | none => rfl
  | some password =>
  simp only [Option.bind_some]
  rw [remove_bind]
  simp (disch := decide) only [Finmap.lookup_erase_ne]
  by_cases named : 128 < ((values.lookup (ascii "username")).getD []).length ∨
      ((values.lookup (ascii "username")).getD [] ≠ [] ∧ password = [])
  · have invalid : ∀ t c q k, ¬Valid space ((values.lookup (ascii "username")).getD []) password t c q k :=
      fun _ _ _ _ valid => valid.username named
    rw [dif_pos named]
    simp [invalid, need]
  rw [dif_neg named]
  simp only [remove_bind, need_bind]
  simp (disch := decide) only [Finmap.lookup_erase_ne]
  cases number parseU64 500 (values.lookup (ascii "timeout")) with
  | none => rfl
  | some timeout =>
  cases number parseU64 4 (values.lookup (ascii "connections")) with
  | none => rfl
  | some connections =>
  cases number parseU64 64 (values.lookup (ascii "queue")) with
  | none => rfl
  | some queue =>
  cases number parseI64 5 (values.lookup (ascii "clock_skew")) with
  | none => rfl
  | some skew =>
  simp only [Option.bind_some]
  by_cases limits : (10 ≤ timeout ∧ timeout ≤ 5000) ∧ (1 ≤ connections ∧ connections ≤ 32) ∧ queue ≤ 1024 ∧
      (1 ≤ skew ∧ skew ≤ 60)
  · rw [dif_pos limits, dif_pos ⟨plain, named, limits⟩]
    rw [empty]
    rfl
  · rw [dif_neg limits, dif_neg fun valid => limits valid.limits]
    rfl
end Meaning

section Lines

def nameOf (line : List Bytes) : Bytes := line.headD []

def valueOf (line : List Bytes) : Bytes := line.getD 1 []

/-- Every line is a known name with one value, and no name comes twice. -/
structure WellFormed (lines : List (List Bytes)) : Prop where
  words : ∀ line ∈ lines, line.length = 2
  known : ∀ line ∈ lines, nameOf line ∈ names
  once : (lines.map nameOf).Nodup

instance instDecidableWellFormed (lines : List (List Bytes)) : Decidable (WellFormed lines) :=
  decidable_of_iff ((∀ line ∈ lines, line.length = 2) ∧ (∀ line ∈ lines, names.contains (nameOf line) = true) ∧
    (lines.map nameOf).Nodup)
    ⟨fun ⟨words, known, once⟩ => ⟨words, fun line member => List.contains_iff_mem.mp (known line member), once⟩,
      fun ⟨words, known, once⟩ => ⟨words, fun line member => List.contains_iff_mem.mpr (known line member), once⟩⟩

/-- The value that a name has in the block. -/
def given (lines : List (List Bytes)) (name : Bytes) : Option Bytes :=
  (lines.find? fun line => nameOf line = name).map valueOf

variable {lines lines' : List (List Bytes)} {line : List Bytes} {values collected : Values}

theorem inner_some : inner values line = some collected ↔
    line.length = 2 ∧ nameOf line ∈ names ∧ nameOf line ∉ values ∧ collected = values.insert (nameOf line) (valueOf line) := by
  unfold inner
  split
  next name value =>
    change _ ↔ _ ∧ name ∈ names ∧ name ∉ values ∧ collected = values.insert name value
    by_cases known : name ∈ names <;> by_cases taken : name ∈ values <;> simp [known, taken, eq_comm]
  next other =>
    refine ⟨nofun, fun ⟨two, _⟩ => ?_⟩
    obtain ⟨name, value, rfl⟩ := List.length_eq_two.mp two
    exact absurd rfl (other name value)

theorem wellFormed_cons : WellFormed (line :: lines) ↔
    line.length = 2 ∧ nameOf line ∈ names ∧ (∀ other ∈ lines, nameOf other ≠ nameOf line) ∧ WellFormed lines := by
  constructor
  · rintro ⟨words, known, once⟩
    rw [List.map_cons, List.nodup_cons] at once
    exact ⟨words _ List.mem_cons_self, known _ List.mem_cons_self,
      fun other member same => once.1 (List.mem_map.mpr ⟨other, member, same⟩),
      fun other member => words other (List.mem_cons_of_mem _ member),
      fun other member => known other (List.mem_cons_of_mem _ member), once.2⟩
  · rintro ⟨two, listed, apart, words, known, once⟩
    refine ⟨List.forall_mem_cons.mpr ⟨two, words⟩, List.forall_mem_cons.mpr ⟨listed, known⟩, ?_⟩
    rw [List.map_cons, List.nodup_cons]
    refine ⟨fun member => ?_, once⟩
    obtain ⟨other, inside, same⟩ := List.mem_map.mp member
    exact apart other inside same

theorem collect_some : lines.foldlM inner values = some collected ↔
    WellFormed lines ∧ (∀ line ∈ lines, nameOf line ∉ values) ∧
      collected = lines.foldl (fun values line => values.insert (nameOf line) (valueOf line)) values := by
  induction lines generalizing values with
  | nil => simp [eq_comm, (⟨nofun, nofun, List.nodup_nil⟩ : WellFormed [])]
  | cons line rest ih =>
    rw [List.foldlM_cons, Option.bind_eq_bind, Option.bind_eq_some_iff, wellFormed_cons, List.forall_mem_cons]
    constructor
    · rintro ⟨middle, first, more⟩
      obtain ⟨two, known, fresh, rfl⟩ := inner_some.mp first
      obtain ⟨formed, others, rfl⟩ := ih.mp more
      have apart (other) (member : other ∈ rest) : ¬(nameOf other = nameOf line ∨ nameOf other ∈ values) :=
        fun either => others other member (Finmap.mem_insert.mpr either)
      exact ⟨⟨two, known, fun other member same => apart other member (.inl same), formed⟩,
        ⟨fresh, fun other member inside => apart other member (.inr inside)⟩, rfl⟩
    · rintro ⟨⟨two, known, apart, formed⟩, ⟨fresh, others⟩, rfl⟩
      refine ⟨_, inner_some.mpr ⟨two, known, fresh, rfl⟩, ih.mpr ⟨formed, fun other member inside => ?_, rfl⟩⟩
      exact (Finmap.mem_insert.mp inside).elim (apart other member) (others other member)

/-- The map holds what the lines say. -/
theorem collected_lookup (formed : WellFormed lines) (name : Bytes) :
    (lines.foldl (fun values line => values.insert (nameOf line) (valueOf line)) values).lookup name =
      (given lines name).or (values.lookup name) := by
  induction lines generalizing values with
  | nil => rfl
  | cons line rest ih =>
    obtain ⟨-, -, apart, formed⟩ := wellFormed_cons.mp formed
    rw [List.foldl_cons, ih formed, given, given, List.find?_cons]
    by_cases here : nameOf line = name
    · subst here
      have none_ : rest.find? (fun line' => nameOf line' = nameOf line) = none :=
        List.find?_eq_none.mpr fun other member => by simpa using apart other member
      simp [none_]
    · rw [Finmap.lookup_insert_of_ne _ (Ne.symm here)]
      simp [here]

theorem WellFormed.perm (formed : WellFormed lines) (perm : lines.Perm lines') : WellFormed lines' :=
  ⟨fun line member => formed.words line (perm.mem_iff.mpr member), fun line member => formed.known line (perm.mem_iff.mpr member),
    (perm.map nameOf).nodup_iff.mp formed.once⟩

theorem given_some (formed : WellFormed lines) {name value : Bytes} :
    given lines name = some value ↔ ∃ line ∈ lines, nameOf line = name ∧ valueOf line = value := by
  induction lines with
  | nil => simp [given]
  | cons line rest ih =>
    obtain ⟨-, -, apart, formed⟩ := wellFormed_cons.mp formed
    rw [given, List.find?_cons]
    by_cases here : nameOf line = name
    · subst here
      constructor
      · intro found
        exact ⟨line, List.mem_cons_self, rfl, by simpa using found⟩
      · rintro ⟨other, member, same, rfl⟩
        rcases List.mem_cons.mp member with rfl | inside
        · simp
        · exact absurd same (apart other inside)
    · have later : given rest name = some value ↔ _ := ih formed
      rw [given] at later
      simp [here, later]

theorem given_perm (formed : WellFormed lines) (perm : lines.Perm lines') : given lines = given lines' := by
  funext name
  apply Option.ext
  intro value
  rw [given_some formed, given_some (formed.perm perm)]
  simp only [perm.mem_iff]

end Lines

theorem configure_eq (crates : Crates) (files : Files) (lines : List (List Bytes)) :
    configure crates files none lines = if WellFormed lines then meaning crates files (given lines) else none := by
  unfold configure
  rw [if_neg (by simp)]
  split
  next formed =>
    have taken := collect_some.mpr ⟨formed, (fun _ _ => Finmap.notMem_empty), rfl⟩
    have found : (lines.foldl (fun values line => values.insert (nameOf line) (valueOf line)) (∅ : Values)).lookup =
        given lines := by
      funext name
      rw [collected_lookup formed, Finmap.lookup_empty, Option.or_none]
    rw [taken, Option.bind_eq_bind, Option.bind_some, parsed_meaning crates files, found]
    intro name member
    obtain ⟨value, same⟩ := Finmap.mem_iff.mp member
    rw [congrFun found name] at same
    obtain ⟨line, inside, rfl, -⟩ := (given_some formed).mp same
    exact formed.known line inside
  next unformed =>
    cases taken : lines.foldlM inner (∅ : Values) with
    | none => rfl
    | some values => exact absurd (collect_some.mp taken).1 unformed

/-- The first block is accepted exactly if it is well formed and its values together are valid, and the
configuration is then what the values say, each found by its name. No directive is ignored, and
none depends on where in the block it stands: every order of the lines gives the same result. -/
theorem block_means (crates : Crates) (files : Files) (lines : List (List Bytes)) :
    configure crates files none lines = (if WellFormed lines then meaning crates files (given lines) else none) ∧
      ∀ lines', lines.Perm lines' → configure crates files none lines' = configure crates files none lines := by
  refine ⟨configure_eq crates files lines, fun lines' perm => ?_⟩
  rw [configure_eq, configure_eq]
  by_cases formed : WellFormed lines
  · rw [if_pos formed, if_pos (formed.perm perm), given_perm formed perm]
  · rw [if_neg formed, if_neg fun formed' => formed (formed'.perm perm.symm)]

example : ((configure Reference.crates ⟨fun _ => none, fun _ => some (List.replicate 64 65 ++ [10])⟩ none
    [[ascii "epoch_file", ascii "/e"], [ascii "namespace", ascii "a"], [ascii "address", ascii "127.0.0.1:6379"]]).map
      fun setting => setting.config.epoch) = some (List.replicate 64 97) := by decide +kernel

end PowGate.Blocks
