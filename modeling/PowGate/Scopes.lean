import Mathlib.Data.List.Basic
import PowGate.Crates

/-! Scopes. The text a context binds is spliced from a host and a tail that are serialized apart,
with the tail's bracket cut off. It is the same array as the one serialized at once, for every
host, name and path, and so it determines its five parts. -/
namespace PowGate

open Text

/-- A scalar is one byte below 128 or only bytes from 128 on. -/
theorem utf8EncodeChar_cases (c : Char) :
    (c.toNat < 128 ∧ String.utf8EncodeChar c = [UInt8.ofNat c.toNat]) ∨
      128 ≤ c.toNat ∧ String.utf8EncodeChar c ≠ [] ∧ ∀ byte ∈ String.utf8EncodeChar c, 128 ≤ byte := by
  have large : ∀ n, 128 ≤ n → n < 256 → (128 : UInt8) ≤ UInt8.ofNat n := by
    intro n low high
    rw [UInt8.le_iff_toNat_le,UInt8.toNat_ofNat_of_lt' high]
    exact low
  unfold String.utf8EncodeChar
  extract_lets v
  have same : c.toNat = v := rfl
  split
  · exact .inl ⟨by omega, rfl⟩
  · refine .inr ⟨by omega, ?_⟩
    split
    · refine ⟨by simp, ?_⟩
      simp only [List.mem_cons,List.not_mem_nil,or_false,forall_eq_or_imp,forall_eq]
      exact ⟨large _ (by omega) (by omega), large _ (by omega) (by omega)⟩
    split
    · refine ⟨by simp, ?_⟩
      simp only [List.mem_cons,List.not_mem_nil,or_false,forall_eq_or_imp,forall_eq]
      exact ⟨large _ (by omega) (by omega), large _ (by omega) (by omega), large _ (by omega) (by omega)⟩
    · refine ⟨by simp, ?_⟩
      simp only [List.mem_cons,List.not_mem_nil,or_false,forall_eq_or_imp,forall_eq]
      exact ⟨large _ (by omega) (by omega), large _ (by omega) (by omega), large _ (by omega) (by omega),
        large _ (by omega) (by omega)⟩

theorem ofNat_small (small : n < 128) : UInt8.ofNat n < 128 := by
  rw [UInt8.lt_iff_toNat_lt,UInt8.toNat_ofNat_of_lt' (Nat.lt_trans small (by decide))]
  exact small

theorem IsText.append (first : IsText a) (second : IsText b) : IsText (a ++ b) := by
  obtain ⟨scalars, rfl⟩ := first
  obtain ⟨more, rfl⟩ := second
  exact ⟨scalars ++ more, by rw [List.flatMap_append]⟩

theorem IsText.cons (small : c < 128) (rest : IsText s) : IsText (c :: s) :=
  IsText.append (a := [c]) (IsAscii.isText (by simpa [IsAscii] using small)) rest

/-- A rewriting of single bytes that leaves multi-byte scalars alone keeps text. -/
theorem IsText.flatMap {f : UInt8 → Bytes} (low : ∀ c < 128, IsText (f c)) (high : ∀ c, 128 ≤ c → f c = [c])
    (text : IsText s) : IsText (s.flatMap f) := by
  obtain ⟨scalars, rfl⟩ := text
  induction scalars with
  | nil => exact ⟨[], rfl⟩
  | cons c rest ih =>
    rw [List.flatMap_cons,List.flatMap_append]
    refine IsText.append ?_ ih
    rcases utf8EncodeChar_cases c with ⟨small, shape⟩ | ⟨_, _, large⟩
    · simpa [shape] using low _ (ofNat_small small)
    · have same : (String.utf8EncodeChar c).flatMap f = String.utf8EncodeChar c := by
        rw [List.flatMap_congr fun byte member => high byte (large byte member)]
        exact List.flatMap_singleton' _
      rw [same]
      exact ⟨[c], by simp⟩

theorem continued_cons (inside : low ≤ c ∧ c ≤ high) (more : List (UInt8 × UInt8)) (rest : Bytes) :
    continued ((low, high) :: more) (c :: rest) = continued more rest + 1 := if_pos inside

theorem continued_nil (rest : Bytes) : continued [] rest = 0 := by
  cases rest <;> rfl

/-- A byte in a range of numbers is in the same range of bytes. -/
theorem ofNat_between (low : a.toNat ≤ n) (high : n ≤ b.toNat) : a ≤ UInt8.ofNat n ∧ UInt8.ofNat n ≤ b := by
  have same : (UInt8.ofNat n).toNat = n := UInt8.toNat_ofNat_of_lt' (Nat.lt_of_le_of_lt high b.toNat_lt)
  exact ⟨UInt8.le_iff_toNat_le.mpr (by omega), UInt8.le_iff_toNat_le.mpr (by omega)⟩

/-- The bytes of a scalar beyond ASCII are what its lead byte asks for. -/
theorem utf8EncodeChar_continued (c : Char) (large : 128 ≤ c.toNat) :
    ∃ lead more, String.utf8EncodeChar c = lead :: more ∧ continuation lead ≠ [] ∧
      more.length = (continuation lead).length ∧ ∀ rest, continued (continuation lead) (more ++ rest) = more.length := by
  have two : ∀ n : Fin 30, continuation (UInt8.ofNat (n.val + 194)) = [(0x80, 0xBF)] := by decide
  have three : ∀ n : Fin 15, n.val ≠ 12 → continuation (UInt8.ofNat (n.val + 225)) = [(0x80, 0xBF), (0x80, 0xBF)] := by
    decide
  have four : ∀ n : Fin 3, continuation (UInt8.ofNat (n.val + 241)) = [(0x80, 0xBF), (0x80, 0xBF), (0x80, 0xBF)] := by
    decide
  have valid : c.val.toNat < 0xd800 ∨ 0xdfff < c.val.toNat ∧ c.val.toNat < 0x110000 := c.valid
  have size : 128 ≤ c.val.toNat := large
  unfold String.utf8EncodeChar
  extract_lets v
  change v < 0xd800 ∨ 0xdfff < v ∧ v < 0x110000 at valid
  change 128 ≤ v at size
  clear_value v
  have tail : ∀ n, (0x80 : UInt8) ≤ UInt8.ofNat (n % 64 + 128) ∧ UInt8.ofNat (n % 64 + 128) ≤ 0xBF :=
    fun n => ofNat_between (by simp) (by simp; omega)
  -- The same lead byte asks for less of its second byte where shorter forms or surrogates would begin.
  have asked : ∀ lead more ranges, continuation lead = ranges → ranges ≠ [] → more.length = ranges.length →
      (∀ rest, continued ranges (more ++ rest) = more.length) →
      ∃ lead' more', lead :: more = lead' :: more' ∧ continuation lead' ≠ [] ∧
        more'.length = (continuation lead').length ∧
        ∀ rest, continued (continuation lead') (more' ++ rest) = more'.length := by
    rintro lead more _ rfl some_ size all
    exact ⟨lead, more, rfl, some_, size, all⟩
  split
  · omega
  split
  · have found := two ⟨v / 64 % 32 - 2, by omega⟩
    rw [show v / 64 % 32 - 2 + 194 = v / 64 % 32 + 192 by omega] at found
    refine asked _ _ _ found (by simp) rfl fun rest => ?_
    simp only [List.cons_append,List.nil_append,continued_cons (tail v),continued_nil]
    rfl
  split
  · by_cases low : v / 4096 % 16 = 0
    · rw [low]
      refine asked _ _ [(0xA0, 0xBF), (0x80, 0xBF)] (by decide) (by simp) rfl fun rest => ?_
      have second : (0xA0 : UInt8) ≤ UInt8.ofNat (v / 64 % 64 + 128) ∧ UInt8.ofNat (v / 64 % 64 + 128) ≤ 0xBF :=
        ofNat_between (by simp; omega) (by simp; omega)
      simp only [List.cons_append,List.nil_append,continued_cons second,continued_cons (tail v),continued_nil]
      rfl
    by_cases surrogate : v / 4096 % 16 = 13
    · rw [surrogate]
      refine asked _ _ [(0x80, 0x9F), (0x80, 0xBF)] (by decide) (by simp) rfl fun rest => ?_
      have second : (0x80 : UInt8) ≤ UInt8.ofNat (v / 64 % 64 + 128) ∧ UInt8.ofNat (v / 64 % 64 + 128) ≤ 0x9F :=
        ofNat_between (by simp) (by simp; omega)
      simp only [List.cons_append,List.nil_append,continued_cons second,continued_cons (tail v),continued_nil]
      rfl
    · have found := three ⟨v / 4096 % 16 - 1, by omega⟩ (by simp only; omega)
      rw [show v / 4096 % 16 - 1 + 225 = v / 4096 % 16 + 224 by omega] at found
      refine asked _ _ _ found (by simp) rfl fun rest => ?_
      simp only [List.cons_append,List.nil_append,continued_cons (tail (v / 64)),continued_cons (tail v),continued_nil]
      rfl
  · by_cases low : v / 262144 % 8 = 0
    · rw [low]
      refine asked _ _ [(0x90, 0xBF), (0x80, 0xBF), (0x80, 0xBF)] (by decide) (by simp) rfl fun rest => ?_
      have second : (0x90 : UInt8) ≤ UInt8.ofNat (v / 4096 % 64 + 128) ∧ UInt8.ofNat (v / 4096 % 64 + 128) ≤ 0xBF :=
        ofNat_between (by simp; omega) (by simp; omega)
      simp only [List.cons_append,List.nil_append,continued_cons second,continued_cons (tail (v / 64)),continued_cons (tail v),continued_nil]
      rfl
    by_cases high : v / 262144 % 8 = 4
    · rw [high]
      refine asked _ _ [(0x80, 0x8F), (0x80, 0xBF), (0x80, 0xBF)] (by decide) (by simp) rfl fun rest => ?_
      have second : (0x80 : UInt8) ≤ UInt8.ofNat (v / 4096 % 64 + 128) ∧ UInt8.ofNat (v / 4096 % 64 + 128) ≤ 0x8F :=
        ofNat_between (by simp) (by simp; omega)
      simp only [List.cons_append,List.nil_append,continued_cons second,continued_cons (tail (v / 64)),continued_cons (tail v),continued_nil]
      rfl
    · have found := four ⟨v / 262144 % 8 - 1, by omega⟩
      rw [show v / 262144 % 8 - 1 + 241 = v / 262144 % 8 + 240 by omega] at found
      refine asked _ _ _ found (by simp) rfl fun rest => ?_
      simp only [List.cons_append,List.nil_append,continued_cons (tail (v / 4096)),continued_cons (tail (v / 64)),continued_cons (tail v),continued_nil]
      rfl

/-- Lossy decoding passes over a well-formed scalar. -/
theorem lossyFrom_scalar (c : Char) (rest : Bytes) (fuel : Nat) :
    lossyFrom (fuel + 1) (String.utf8EncodeChar c ++ rest) = String.utf8EncodeChar c ++ lossyFrom fuel rest := by
  rcases utf8EncodeChar_cases c with ⟨small, shape⟩ | ⟨size, _, large⟩
  · rw [shape,List.singleton_append,lossyFrom,if_pos (ofNat_small small),List.singleton_append]
  · obtain ⟨lead, more, shape, asks, length, all⟩ := utf8EncodeChar_continued c size
    have beyond : ¬ lead < 0x80 := by
      have high := large lead (by rw [shape]; exact List.mem_cons_self)
      rw [UInt8.lt_iff_toNat_lt]
      rw [UInt8.le_iff_toNat_le] at high
      exact Nat.not_lt.mpr high
    rw [shape,List.cons_append,lossyFrom,if_neg beyond]
    simp only [all rest,length]
    rw [if_pos ⟨asks, trivial⟩,← length,List.take_left,List.drop_left]

theorem IsText.fromUtf8 (text : IsText s) : fromUtf8 s = some s := by
  obtain ⟨scalars, rfl⟩ := text
  have kept : ∀ fuel, (scalars.flatMap String.utf8EncodeChar).length ≤ fuel →
      lossyFrom fuel (scalars.flatMap String.utf8EncodeChar) = scalars.flatMap String.utf8EncodeChar := by
    induction scalars with
    | nil =>
      intro fuel _
      cases fuel <;> rfl
    | cons c rest ih =>
      intro fuel enough
      rw [List.flatMap_cons,List.length_append] at enough
      have some_ : 0 < (String.utf8EncodeChar c).length := by
        rcases utf8EncodeChar_cases c with ⟨_, shape⟩ | ⟨_, nonempty, _⟩
        · rw [shape]
          exact Nat.one_pos
        · exact List.length_pos_iff.mpr nonempty
      obtain ⟨fuel, rfl⟩ : ∃ n, fuel = n + 1 := ⟨fuel - 1, by omega⟩
      rw [List.flatMap_cons,lossyFrom_scalar,ih fuel (by omega)]
  exact if_pos (kept _ (Nat.le_refl _))

theorem lowerByte_large (c : UInt8) (large : 128 ≤ c) : lowerByte c = c := by
  have high : ¬(65 ≤ c ∧ c ≤ 90) := fun inside => absurd (Std.le_trans large inside.2) (by decide)
  rw [lowerByte,if_neg high]

theorem lowerByte_small (c : UInt8) (small : c < 128) : lowerByte c < 128 := by
  unfold lowerByte
  split
  · next inside =>
    simp only [UInt8.le_iff_toNat_le,UInt8.lt_iff_toNat_lt,UInt8.toNat_add,UInt8.toNat_ofNat] at inside ⊢
    omega
  · exact small

theorem lower_isText (text : IsText s) : IsText (lower s) := by
  rw [lower,List.map_eq_flatMap]
  refine IsText.flatMap ?_ ?_ text
  · intro c small
    exact IsAscii.isText (by simpa [IsAscii] using lowerByte_small c small)
  · intro c large
    rw [lowerByte_large c large]

theorem trimDots_isText (text : IsText s) : IsText (trimDots s) := by
  obtain ⟨scalars, rfl⟩ := text
  induction scalars with
  | nil => exact ⟨[], rfl⟩
  | cons c rest ih =>
    by_cases dot : String.utf8EncodeChar c = [46]
    · rw [List.flatMap_cons,dot]
      exact ih
    · have stays : trimDots ((c :: rest).flatMap String.utf8EncodeChar) = (c :: rest).flatMap String.utf8EncodeChar := by
        rcases utf8EncodeChar_cases c with ⟨_, shape⟩ | ⟨_, nonempty, large⟩
        · have other : UInt8.ofNat c.toNat ≠ 46 := by
            intro same
            exact dot (by rw [shape,same])
          simp only [List.flatMap_cons,shape,List.singleton_append,trimDots,List.dropWhile_cons,other,decide_false]
          rfl
        · obtain ⟨byte, more, shape⟩ := List.exists_cons_of_ne_nil nonempty
          have other : byte ≠ 46 := by
            rintro rfl
            exact absurd (large 46 (by rw [shape]; simp)) (by decide)
          simp [trimDots,shape,other]
      rw [stays]
      exact ⟨c :: rest, rfl⟩

theorem string_isText (text : IsText s) : IsText (Json.string s) := by
  refine IsText.cons (by decide) (IsText.append ?_ (IsText.cons (by decide) ⟨[], rfl⟩))
  refine IsText.flatMap ?_ ?_ text
  · intro c small
    have all : ∀ n : Fin 128, IsAscii (Json.escape (UInt8.ofNat n.val)) := by decide
    have here := all ⟨c.toNat, UInt8.lt_iff_toNat_lt.mp small⟩
    rw [UInt8.ofNat_toNat] at here
    exact IsAscii.isText here
  · intro c large
    refine Json.escape_plain ⟨?_, ?_, ?_⟩
    · exact Std.le_trans (by decide) large
    · rintro rfl
      exact absurd large (by decide)
    · rintro rfl
      exact absurd large (by decide)

variable (domain : Option Bytes) (host name path endpoint policy : Bytes)

/-- What a scope names as its host: the cookie domain if there is one, else the request's host. -/
def scopeHost (domain : Option Bytes) (host : Bytes) : Bytes := lower (trimDots (domain.getD host))

/-- The scope as one array, serialized at once. -/
def scopeText (host name path endpoint policy : Bytes) : Bytes :=
  Json.array [Json.string host, Json.string name, Json.string path, Json.string endpoint, Json.string policy]

theorem scopeText_eq : scopeText host name path endpoint policy =
    91 :: (Json.string host ++ 44 :: (Json.string name ++ 44 :: (Json.string path ++ 44 :: (Json.string endpoint ++
      44 :: (Json.string policy ++ [93]))))) := by
  simp [scopeText,Json.array,List.intercalate]

/-- The separately serialized parts join to the whole array. -/
theorem scopeText_splice : 91 :: (Json.string host ++ (Scope.new domain name path endpoint policy).tail) =
    scopeText host name path endpoint policy := by
  simp [scopeText_eq,Scope.new,Json.array,List.intercalate]

theorem lower_eq_self (plain : s.any isUpper = false) : lower s = s := by
  have each : ∀ c ∈ s, lowerByte c = c := by
    intro c member
    have other := List.any_eq_false.mp plain c member
    rw [lowerByte,if_neg (by simpa [isUpper] using other)]
  rw [lower,List.map_congr_left each,List.map_id']

@[simp] theorem lower_eq_nil : lower s = [] ↔ s = [] := List.map_eq_nil_iff

theorem forHost_eq : (Scope.new domain name path endpoint policy).forHost host =
    if scopeHost domain host = [] then none
    else if domain.isSome then some (scopeText (scopeHost domain host) name path endpoint policy)
    else fromUtf8 (scopeText (scopeHost domain host) name path endpoint policy) := by
  cases domain with
  | none =>
    -- the owned and the borrowed host are the same bytes
    have folded : (if (trimDots host).any isUpper then lower (trimDots host) else trimDots host) =
        scopeHost none host := by
      split
      · rfl
      · next plain => exact (lower_eq_self (Bool.eq_false_iff.mpr plain)).symm
    rw [← scopeText_splice none]
    simp only [Scope.forHost,Scope.new,Option.map_none,folded]
    by_cases empty : trimDots host = []
    · simp [scopeHost,empty]
    · have nonempty : scopeHost none host ≠ [] := by simpa [scopeHost] using empty
      rw [if_neg empty,if_neg nonempty]
      rfl
  | some domain =>
    rw [← scopeText_splice (some domain)]
    simp only [Scope.forHost,Scope.new,Option.map_some,scopeHost,Option.getD_some,Option.isSome_some,if_true]
    by_cases empty : lower (trimDots domain) = []
    · simp only [empty,if_true]
    · simp only [empty,if_false,List.cons_ne_nil]

theorem scopeText_injective
    (same : scopeText host name path endpoint policy = scopeText host' name' path' endpoint' policy') :
    host = host' ∧ name = name' ∧ path = path' ∧ endpoint = endpoint' ∧ policy = policy' := by
  rw [scopeText_eq,scopeText_eq] at same
  obtain ⟨hosts, same⟩ := Json.string_append_inj (List.cons.inj same).2
  obtain ⟨names, same⟩ := Json.string_append_inj (List.cons.inj same).2
  obtain ⟨paths, same⟩ := Json.string_append_inj (List.cons.inj same).2
  obtain ⟨endpoints, same⟩ := Json.string_append_inj (List.cons.inj same).2
  obtain ⟨policies, _⟩ := Json.string_append_inj (List.cons.inj same).2
  exact ⟨hosts, names, paths, endpoints, policies⟩

theorem scopeText_isText (hostText : IsText host) (nameText : IsText name) (pathText : IsText path)
    (endpointText : IsText endpoint) (policyText : IsText policy) : IsText (scopeText host name path endpoint policy) := by
  have comma : ∀ {first rest : Bytes}, IsText first → IsText rest → IsText (Json.string first ++ 44 :: rest) :=
    fun first rest => IsText.append (string_isText first) (IsText.cons (by decide) rest)
  rw [scopeText_eq]
  refine IsText.cons (by decide) (comma hostText (comma nameText (comma pathText (comma endpointText ?_))))
  exact IsText.append (string_isText policyText) (IsText.cons (by decide) ⟨[], rfl⟩)

/-- A Rust `str`. -/
abbrev Str := { s : Bytes // IsText s }

/-- The scope of a location for a host, from strings. -/
def scopeOf (domain : Option Str) (host name path endpoint policy : Str) : Option Bytes :=
  (Scope.new (domain.map Subtype.val) name path endpoint policy).forHost host

/-- The host that such a scope names. -/
def hostOf (domain : Option Str) (host : Str) : Bytes := scopeHost (domain.map Subtype.val) host

/-- On strings the checked conversion cannot fail. -/
theorem scopeOf_eq (domain : Option Str) (host name path endpoint policy : Str) :
    scopeOf domain host name path endpoint policy =
      if hostOf domain host = [] then none
      else some (scopeText (hostOf domain host) name path endpoint policy) := by
  have named : IsText (hostOf domain host) := by
    unfold hostOf
    refine lower_isText (trimDots_isText ?_)
    cases domain with
    | none => exact host.property
    | some d => exact d.property
  have text := scopeText_isText _ _ _ _ _ named name.property path.property endpoint.property policy.property
  rw [scopeOf,forHost_eq,← hostOf,text.fromUtf8,ite_self]

/-- Whatever the bytes, a scope that is made is the array. -/
theorem forHost_some (found : (Scope.new domain name path endpoint policy).forHost host = some scope) :
    scopeHost domain host ≠ [] ∧ scope = scopeText (scopeHost domain host) name path endpoint policy := by
  rw [forHost_eq] at found
  split at found
  · cases found
  next nonempty =>
  split at found
  · exact ⟨nonempty, (Option.some.inj found).symm⟩
  · unfold fromUtf8 at found
    split at found
    · exact ⟨nonempty, (Option.some.inj found).symm⟩
    · cases found

theorem scopeOf_some (domain : Option Str) (host name path endpoint policy : Str) (scope : Bytes) :
    scopeOf domain host name path endpoint policy = some scope ↔
      hostOf domain host ≠ [] ∧ scope = scopeText (hostOf domain host) name path endpoint policy := by
  rw [scopeOf_eq]
  by_cases empty : hostOf domain host = []
  · simp [empty]
  · simp [empty,eq_comm]

/-- The spliced scope is the array serialized at once, and it determines its five parts: between
strings, and between any bytes for which a scope is made. -/
theorem scope_exact (domain : Option Str) (host name path endpoint policy : Str) :
    (scopeOf domain host name path endpoint policy = none ↔ hostOf domain host = []) ∧
    (∀ scope, scopeOf domain host name path endpoint policy = some scope ↔
      hostOf domain host ≠ [] ∧ scope = scopeText (hostOf domain host) name path endpoint policy) ∧
    (∀ domain' host' name' path' endpoint' policy',
      (∃ scope, scopeOf domain host name path endpoint policy = some scope ∧
        scopeOf domain' host' name' path' endpoint' policy' = some scope) ↔
      hostOf domain host ≠ [] ∧ hostOf domain host = hostOf domain' host' ∧ name = name' ∧ path = path' ∧
        endpoint = endpoint' ∧ policy = policy') ∧
    ∀ (domain : Option Bytes) (host name path endpoint policy : Bytes) (domain' : Option Bytes)
      (host' name' path' endpoint' policy' scope : Bytes),
      (Scope.new domain name path endpoint policy).forHost host = some scope →
      scope = scopeText (scopeHost domain host) name path endpoint policy ∧
      ((Scope.new domain' name' path' endpoint' policy').forHost host' = some scope →
        scopeHost domain host = scopeHost domain' host' ∧ name = name' ∧ path = path' ∧ endpoint = endpoint' ∧
          policy = policy') := by
  refine ⟨?_, scopeOf_some domain host name path endpoint policy, ?_, ?_⟩
  · rw [scopeOf_eq]
    by_cases empty : hostOf domain host = []
    · simp [empty]
    · simp [empty]
  · intro domain' host' name' path' endpoint' policy'
    constructor
    · rintro ⟨scope, found, found'⟩
      obtain ⟨nonempty, rfl⟩ := (scopeOf_some ..).mp found
      obtain ⟨_, same⟩ := (scopeOf_some ..).mp found'
      obtain ⟨hosts, names, paths, endpoints, policies⟩ := scopeText_injective _ _ _ _ _ same
      exact ⟨nonempty, hosts, Subtype.ext names, Subtype.ext paths, Subtype.ext endpoints, Subtype.ext policies⟩
    · rintro ⟨nonempty, hosts, rfl, rfl, rfl, rfl⟩
      refine ⟨_, (scopeOf_some ..).mpr ⟨nonempty, rfl⟩, (scopeOf_some ..).mpr ⟨?_, ?_⟩⟩
      · rwa [← hosts]
      · rw [hosts]
  · intro domain host name path endpoint policy domain' host' name' path' endpoint' policy' scope found
    obtain ⟨_, whole⟩ := forHost_some _ _ _ _ _ _ found
    refine ⟨whole, fun found' => ?_⟩
    obtain ⟨_, whole'⟩ := forHost_some _ _ _ _ _ _ found'
    exact scopeText_injective _ _ _ _ _ (whole.symm.trans whole')

end PowGate
