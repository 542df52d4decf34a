import Mathlib.Data.List.Basic
import Mathlib.Data.List.Infix

/-! Replacing texts from left to right, one text at a time or several at once. A pass over the
result of other passes is one more text to replace in the original, when no text that was put in
ends in, completes or is part of what the pass looks for. -/
namespace PowGate.Rewriting

variable {α : Type*} [DecidableEq α]

/-- What is looked for, and what it is replaced by. -/
abbrev Rule (α : Type*) := List α × List α

/-- The first rule whose text stands at the beginning: what it puts there, and what follows. -/
def first : List (Rule α) → List α → Option (List α × List α)
  | [], _ => none
  | rule :: rules, s => if rule.1 <+: s then some (rule.2, s.drop rule.1.length) else first rules s

def substituteFrom (rules : List (Rule α)) : Nat → List α → List α
  | 0, _ => []
  | _, [] => []
  | fuel + 1, c :: s => match first rules (c :: s) with
    | some (put, rest) => put ++ substituteFrom rules fuel rest
    | none => c :: substituteFrom rules fuel s

/-- All rules at once, from left to right, the earlier rule first. -/
def substitute (rules : List (Rule α)) (s : List α) : List α := substituteFrom rules s.length s

def Proper (rules : List (Rule α)) : Prop := ∀ rule ∈ rules, rule.1 ≠ []

/-- Neither text continues the other. -/
def Apart (a b : List α) : Prop := ¬ a <+: b ∧ ¬ b <+: a

section Passes

variable {rules : List (Rule α)} {s t put rest : List α} {c : α}

theorem first_some (found : first rules s = some (put, rest)) : ∃ rule ∈ rules, put = rule.2 ∧ s = rule.1 ++ rest := by
  induction rules with
  | nil => cases found
  | cons rule rules ih =>
    rw [first] at found
    split at found
    · next here =>
      obtain ⟨rfl, rfl⟩ := Prod.mk.inj (Option.some.inj found)
      obtain ⟨after, rfl⟩ := here
      exact ⟨rule, List.mem_cons_self, rfl, by rw [List.drop_left]⟩
    · obtain ⟨other, member, same⟩ := ih found
      exact ⟨other, List.mem_cons_of_mem _ member, same⟩

theorem first_none : first rules s = none ↔ ∀ rule ∈ rules, ¬ rule.1 <+: s := by
  induction rules with
  | nil => simp [first]
  | cons rule rules ih =>
    rw [first,List.forall_mem_cons]
    split
    · next here => simp [here]
    · next absent => simp [absent,ih]

theorem first_append (found : first rules s = none) (more : List (Rule α)) : first (rules ++ more) s = first more s := by
  induction rules with
  | nil => rfl
  | cons rule rules ih =>
    obtain ⟨here, there⟩ := List.forall_mem_cons.mp (first_none.mp found)
    rw [List.cons_append,first,if_neg here]
    exact ih (first_none.mpr there)

/-- Rules that look for the same texts find them at the same places. -/
theorem first_map (change : List α → List α) (found : first rules s = some (put, rest)) (more : List (Rule α)) :
    first (rules.map (fun rule => (rule.1, change rule.2)) ++ more) s = some (change put, rest) := by
  induction rules with
  | nil => cases found
  | cons rule rules ih =>
    rw [first] at found
    rw [List.map_cons,List.cons_append,first]
    split at found
    · next here =>
      obtain ⟨rfl, rfl⟩ := Prod.mk.inj (Option.some.inj found)
      rw [if_pos here]
    · next absent =>
      rw [if_neg absent]
      exact ih found

theorem first_map_none (change : List α → List α) (found : first rules s = none) (more : List (Rule α)) :
    first (rules.map (fun rule => (rule.1, change rule.2)) ++ more) s = first more s := by
  apply first_append
  rw [first_none] at found ⊢
  intro rule member
  obtain ⟨old, inside, rfl⟩ := List.mem_map.mp member
  exact found old inside

theorem rest_shorter (proper : Proper rules) (found : first rules s = some (put, rest)) : rest.length < s.length := by
  obtain ⟨rule, member, _, rfl⟩ := first_some found
  have some_ := List.length_pos_iff.mpr (proper rule member)
  rw [List.length_append]
  omega

/-- More turns than the text is long change nothing. -/
theorem substituteFrom_enough (proper : Proper rules) (fuel : Nat) (s : List α) (enough : s.length ≤ fuel) :
    substituteFrom rules fuel s = substitute rules s := by
  have same : ∀ n (s : List α) (f g : Nat), s.length ≤ n → s.length ≤ f → s.length ≤ g →
      substituteFrom rules f s = substituteFrom rules g s := by
    intro n
    induction n with
    | zero =>
      intro s f g short _ _
      obtain rfl := List.eq_nil_of_length_eq_zero (Nat.le_zero.mp short)
      cases f <;> cases g <;> rfl
    | succ n ih =>
      intro s f g short left right
      cases s with
      | nil => cases f <;> cases g <;> rfl
      | cons c s =>
        obtain ⟨f, rfl⟩ : ∃ k, f = k + 1 := ⟨f - 1, by simp only [List.length_cons] at left; omega⟩
        obtain ⟨g, rfl⟩ : ∃ k, g = k + 1 := ⟨g - 1, by simp only [List.length_cons] at right; omega⟩
        rw [substituteFrom,substituteFrom]
        simp only [List.length_cons] at short left right
        cases found : first rules (c :: s) with
        | none => exact congrArg _ (ih s f g (by omega) (by omega) (by omega))
        | some pair =>
          have less := rest_shorter proper found
          rw [List.length_cons] at less
          exact congrArg _ (ih pair.2 f g (by omega) (by omega) (by omega))
  exact same s.length s fuel s.length (Nat.le_refl _) enough (Nat.le_refl _)

theorem substitute_nil (rules : List (Rule α)) : substitute rules [] = [] := rfl

theorem substitute_first (proper : Proper rules) (found : first rules s = some (put, rest)) :
    substitute rules s = put ++ substitute rules rest := by
  have less := rest_shorter proper found
  cases s with
  | nil => cases less
  | cons c s =>
    rw [substitute,List.length_cons,substituteFrom,found]
    dsimp only
    rw [substituteFrom_enough proper s.length rest (by rw [List.length_cons] at less; omega)]

theorem substitute_skip (found : first rules (c :: s) = none) : substitute rules (c :: s) = c :: substitute rules s := by
  rw [substitute,List.length_cons,substituteFrom,found]
  rfl

end Passes

/-- No text that the rules look for begins in `s` and ends after it. -/
def Closed (rules : List (Rule α)) (s : List α) : Prop :=
  ∀ rule ∈ rules, ∀ tail, tail <:+ s → tail ≠ [] → tail <+: rule.1 → rule.1 <+: tail

section Fusion

variable {rules : List (Rule α)} {s t put rest back : List α} {c : α}

omit [DecidableEq α] in
theorem Closed.suffix (closed : Closed rules s) (suffix : t <:+ s) : Closed rules t :=
  fun rule member tail part => closed rule member tail (part.trans suffix)

/-- In front of any other text the rules find what they find alone. -/
theorem Closed.first (closed : Closed rules s) (some_ : s ≠ []) (after : List α) :
    Rewriting.first rules (s ++ after) = (Rewriting.first rules s).map fun found => (found.1, found.2 ++ after) := by
  induction rules with
  | nil => rfl
  | cons rule rules ih =>
    have same : rule.1 <+: s ++ after ↔ rule.1 <+: s := by
      constructor
      · intro here
        rcases List.prefix_or_prefix_of_prefix here (List.prefix_append s after) with inside | beyond
        · exact inside
        · exact closed rule List.mem_cons_self s (List.suffix_refl s) some_ beyond
      · exact fun here => here.trans (List.prefix_append s after)
    rw [Rewriting.first,Rewriting.first]
    by_cases here : rule.1 <+: s
    · rw [if_pos here,if_pos (same.mpr here),Option.map_some,List.drop_append_of_le_length here.length_le]
    · rw [if_neg here,if_neg (mt same.mp here)]
      exact ih fun other member => closed other (List.mem_cons_of_mem _ member)

theorem Closed.append (proper : Proper rules) (closed : Closed rules s) (after : List α) :
    substitute rules (s ++ after) = substitute rules s ++ substitute rules after := by
  have all : ∀ n (s : List α), s.length ≤ n → Closed rules s →
      substitute rules (s ++ after) = substitute rules s ++ substitute rules after := by
    intro n
    induction n with
    | zero =>
      intro s short _
      rw [List.eq_nil_of_length_eq_zero (Nat.le_zero.mp short)]
      rfl
    | succ n ih =>
      intro s short closed
      cases s with
      | nil => rfl
      | cons c s =>
        have looked := closed.first (List.cons_ne_nil c s) after
        cases found : Rewriting.first rules (c :: s) with
        | none =>
          rw [found,Option.map_none,List.cons_append] at looked
          rw [List.cons_append,substitute_skip looked,substitute_skip found,List.cons_append,
            ih s (Nat.le_of_succ_le_succ short) (closed.suffix (List.suffix_cons c s))]
        | some pair =>
          obtain ⟨put, rest⟩ := pair
          rw [found,Option.map_some] at looked
          have less := rest_shorter proper found
          obtain ⟨rule, _, _, split⟩ := first_some found
          rw [substitute_first proper looked,substitute_first proper found,List.append_assoc,
            ih rest (by omega) (closed.suffix ⟨rule.1, split.symm⟩)]
  exact all s.length s (Nat.le_refl _) closed

/-- A text in which no rule's text begins is passed over. -/
theorem substitute_over (inside : ∀ tail, tail <:+ s → tail ≠ [] → Rewriting.first rules (tail ++ t) = none) :
    substitute rules (s ++ t) = s ++ substitute rules t := by
  induction s with
  | nil => rfl
  | cons c s ih =>
    have here := inside (c :: s) (List.suffix_refl _) (List.cons_ne_nil c s)
    rw [List.cons_append] at here ⊢
    rw [substitute_skip here,List.cons_append,ih fun tail part some_ => inside tail (part.trans (List.suffix_cons c s)) some_]

/-- When a rule can be applied after others. -/
structure After (rules : List (Rule α)) (rule : Rule α) : Prop where
  proper : Proper rules
  sought : rule.1 ≠ []
  /-- What the others put in ends in no beginning of the text. -/
  closed : ∀ other ∈ rules, Closed [rule] other.2
  /-- No text the others look for begins inside of the text. -/
  inside : ∀ other ∈ rules, ∀ front back, rule.1 = front ++ back → front ≠ [] → back ≠ [] → Apart back other.1
  /-- What the others put in does not complete the text. -/
  across : ∀ other ∈ rules, ∀ front back, rule.1 = front ++ back → front ≠ [] → back ≠ [] → Apart back other.2

/-- What the result begins with comes from the original, if it is the rest of the text. -/
theorem After.kept {rule : Rule α} (after : After rules rule) (split : rule.1 = front ++ back) (begun : front ≠ [])
    (result : back <+: substitute rules s) : back <+: s := by
  induction back generalizing front s with
  | nil => exact List.nil_prefix
  | cons b back ih =>
    cases s with
    | nil => exact result
    | cons c s =>
      cases found : Rewriting.first rules (c :: s) with
      | none =>
        rw [substitute_skip found] at result
        obtain ⟨rfl, later⟩ := List.cons_prefix_cons.mp result
        have further : rule.1 = (front ++ [b]) ++ back := by rw [split,List.append_assoc,List.singleton_append]
        exact List.cons_prefix_cons.mpr ⟨rfl, ih further (by simp) later⟩
      | some pair =>
        obtain ⟨put, rest⟩ := pair
        obtain ⟨other, member, rfl, _⟩ := first_some found
        rw [substitute_first after.proper found] at result
        obtain ⟨one, two⟩ := after.across other member front (b :: back) split begun (List.cons_ne_nil b back)
        rcases List.prefix_or_prefix_of_prefix result (List.prefix_append _ _) with covered | covers
        · exact absurd covered one
        · exact absurd covers two

/-- A rule after others is one more rule, applied also to what the others put in. -/
theorem After.fuse {rule : Rule α} (after : After rules rule) (s : List α) :
    substitute [rule] (substitute rules s) =
      substitute (rules.map (fun other => (other.1, substitute [rule] other.2)) ++ [rule]) s := by
  have alone : Proper [rule] := by simpa [Proper] using after.sought
  have both : Proper (rules.map (fun other => (other.1, substitute [rule] other.2)) ++ [rule]) := by
    intro other member
    rcases List.mem_append.mp member with changed | last
    · obtain ⟨old, inside, rfl⟩ := List.mem_map.mp changed
      exact after.proper old inside
    · exact alone other last
  have all : ∀ n (s : List α), s.length ≤ n → substitute [rule] (substitute rules s) =
      substitute (rules.map (fun other => (other.1, substitute [rule] other.2)) ++ [rule]) s := by
    intro n
    induction n with
    | zero =>
      intro s short
      rw [List.eq_nil_of_length_eq_zero (Nat.le_zero.mp short)]
      rfl
    | succ n ih =>
      intro s short
      cases s with
      | nil => rfl
      | cons c s =>
        cases found : Rewriting.first rules (c :: s) with
        | some pair =>
          obtain ⟨put, rest⟩ := pair
          obtain ⟨other, member, rfl, _⟩ := first_some found
          have less := rest_shorter after.proper found
          rw [substitute_first after.proper found,(after.closed other member).append alone,
            substitute_first both (first_map _ found _),ih rest (by omega)]
        | none =>
          have looked := first_map_none (substitute [rule]) found [rule]
          by_cases here : rule.1 <+: c :: s
          · obtain ⟨rest, split⟩ := here
            have passed : substitute rules (rule.1 ++ rest) = rule.1 ++ substitute rules rest := by
              apply substitute_over
              intro tail part some_
              obtain ⟨front, whole⟩ := part
              by_cases begun : front = []
              · subst begun
                rw [List.nil_append] at whole
                rw [whole,split]
                exact found
              · rw [first_none]
                intro other member here
                obtain ⟨one, two⟩ := after.inside other member front tail whole.symm begun some_
                rcases List.prefix_or_prefix_of_prefix here (List.prefix_append _ _) with covered | covers
                · exact two covered
                · exact one covers
            have applied : ∀ t, Rewriting.first [rule] (rule.1 ++ t) = some (rule.2, t) := by
              intro t
              rw [Rewriting.first,if_pos (List.prefix_append _ _),List.drop_left]
            have less : rest.length < (c :: s).length := by
              have some_ := List.length_pos_iff.mpr after.sought
              rw [← split,List.length_append]
              omega
            rw [← split] at looked ⊢
            rw [applied] at looked
            rw [passed,substitute_first alone (applied _),substitute_first both looked,ih rest (by omega)]
          · have absent : Rewriting.first [rule] (c :: s) = none := by
              rw [Rewriting.first,if_neg here]
              rfl
            have still : Rewriting.first [rule] (c :: substitute rules s) = none := by
              rw [Rewriting.first,if_neg]
              · rfl
              · intro made
                cases whole : rule.1 with
                | nil => exact after.sought whole
                | cons d back =>
                  rw [whole] at made here
                  obtain ⟨rfl, later⟩ := List.cons_prefix_cons.mp made
                  have begun : rule.1 = [d] ++ back := whole
                  have kept := after.kept begun (List.cons_ne_nil _ _) later
                  exact here (List.cons_prefix_cons.mpr ⟨rfl, kept⟩)
            rw [absent] at looked
            rw [substitute_skip found,substitute_skip still,substitute_skip looked,ih s (Nat.le_of_succ_le_succ short)]
  exact all s.length s (Nat.le_refl _)

end Fusion

/-- A text that begins with a mark twice and has none after that. -/
def Marked (mark : α) (s : List α) : Prop := ∃ body, s = mark :: mark :: body ∧ mark ∉ body ∧ body ≠ []

section Marks

variable {mark : α} {s t front back : List α}

omit [DecidableEq α] in
/-- The mark twice does not stand inside of such a text, nor at its end. -/
theorem Marked.apart (marked : Marked mark s) (split : s = front ++ back) (begun : front ≠ []) (some_ : back ≠ [])
    (other : List α) : Apart back (mark :: mark :: other) := by
  obtain ⟨body, rfl, clean, full⟩ := marked
  obtain ⟨a, front, rfl⟩ := List.exists_cons_of_ne_nil begun
  obtain ⟨b, back, rfl⟩ := List.exists_cons_of_ne_nil some_
  rw [List.cons_append,List.cons.injEq] at split
  cases front with
  | nil =>
    obtain ⟨rfl, rfl⟩ := List.cons.inj split.2
    obtain ⟨d, body, rfl⟩ := List.exists_cons_of_ne_nil full
    have differs : d ≠ mark := fun same => clean (same ▸ List.mem_cons_self)
    constructor
    · intro covered
      exact differs (List.cons_prefix_cons.mp (List.cons_prefix_cons.mp covered).2).1
    · intro covers
      exact differs (List.cons_prefix_cons.mp (List.cons_prefix_cons.mp covers).2).1.symm
  | cons c front =>
    have inside : b ∈ body := by
      rw [(List.cons.inj split.2).2]
      simp
    have differs : b ≠ mark := fun same => clean (same ▸ inside)
    exact ⟨fun covered => differs (List.cons_prefix_cons.mp covered).1,
      fun covers => differs (List.cons_prefix_cons.mp covers).1.symm⟩

omit [DecidableEq α] in
theorem Marked.ne_nil (marked : Marked mark s) : s ≠ [] := by
  obtain ⟨body, rfl, _⟩ := marked
  exact List.cons_ne_nil _ _

omit [DecidableEq α] in
/-- A text whose first symbol is none of a rule's does not complete that rule's text. -/
theorem apart_of_head (split : s = front ++ back) (some_ : back ≠ []) (foreign : c ∉ s) (other : List α) :
    Apart back (c :: other) := by
  obtain ⟨b, back, rfl⟩ := List.exists_cons_of_ne_nil some_
  have differs : b ≠ c := by
    rintro rfl
    exact foreign (by simp [split])
  exact ⟨fun covered => differs (List.cons_prefix_cons.mp covered).1,
    fun covers => differs (List.cons_prefix_cons.mp covers).1.symm⟩

omit [DecidableEq α] in
theorem Marked.closed_absent (rule : Rule α) (marked : Marked mark rule.1) (absent : mark ∉ s) : Closed [rule] s := by
  intro other member tail part some_ here
  obtain rfl := List.mem_singleton.mp member
  obtain ⟨body, same, _⟩ := marked
  obtain ⟨b, tail, rfl⟩ := List.exists_cons_of_ne_nil some_
  rw [same] at here
  obtain ⟨rfl, _⟩ := List.cons_prefix_cons.mp here
  exact absurd (part.subset List.mem_cons_self) absent

omit [DecidableEq α] in
/-- A text with the mark twice at its beginning, that is no proper beginning of the rule's text. -/
theorem Marked.closed_marked (rule : Rule α) (marked : Marked mark rule.1) (other : Marked mark s) (whole : s <+: rule.1 → rule.1 <+: s) :
    Closed [rule] s := by
  intro same member tail part some_ here
  obtain rfl := List.mem_singleton.mp member
  obtain ⟨front, split⟩ := part
  by_cases begun : front = []
  · subst begun
    obtain rfl : tail = s := split
    exact whole here
  · obtain ⟨body, shape, _⟩ := marked
    have apart := other.apart split.symm begun some_ body
    rw [← shape] at apart
    exact absurd here apart.1

theorem Marked.substitute_absent (rule : Rule α) (marked : Marked mark rule.1) (absent : mark ∉ s) : substitute [rule] s = s := by
  obtain ⟨body, same, _⟩ := marked
  induction s with
  | nil => rfl
  | cons c s ih =>
    rw [List.mem_cons,not_or] at absent
    have skipped : Rewriting.first [rule] (c :: s) = none := by
      rw [first_none]
      intro other member here
      obtain rfl := List.mem_singleton.mp member
      rw [same] at here
      exact absent.1 (List.cons_prefix_cons.mp here).1
    rw [substitute_skip skipped,ih absent.2]

/-- A marked text that does not begin with the rule's text has it nowhere. -/
theorem Marked.substitute_marked (rule : Rule α) (marked : Marked mark rule.1) (other : Marked mark s)
    (absent : ¬ rule.1 <+: s) : substitute [rule] s = s := by
  have passed : substitute [rule] (s ++ []) = s ++ substitute [rule] [] := by
    apply substitute_over
    intro tail part some_
    obtain ⟨front, split⟩ := part
    rw [first_none,List.append_nil]
    intro same member here
    obtain rfl := List.mem_singleton.mp member
    by_cases begun : front = []
    · subst begun
      obtain rfl : tail = s := split
      exact absent here
    · obtain ⟨body, shape, _⟩ := marked
      have apart := other.apart split.symm begun some_ body
      rw [← shape] at apart
      exact apart.2 here
  rwa [List.append_nil,substitute_nil,List.append_nil] at passed

omit [DecidableEq α] in
/-- Marked texts are looked for one after the other. -/
theorem Marked.after {rules : List (Rule α)} (rule : Rule α) (marked : Marked mark rule.1) (others : ∀ other ∈ rules, Marked mark other.1)
    (closed : ∀ other ∈ rules, Closed [rule] other.2)
    (across : ∀ other ∈ rules, Marked mark other.2 ∨ ∃ c rest, other.2 = c :: rest ∧ c ∉ rule.1) : After rules rule where
  proper other member := (others other member).ne_nil
  sought := marked.ne_nil
  closed := closed
  inside other member front back split begun some_ := by
    obtain ⟨body, same, _⟩ := others other member
    rw [same]
    exact marked.apart split begun some_ body
  across other member front back split begun some_ := by
    rcases across other member with ⟨body, same, _⟩ | ⟨c, rest, same, foreign⟩
    · rw [same]
      exact marked.apart split begun some_ body
    · rw [same]
      exact apart_of_head split some_ foreign rest

end Marks

end PowGate.Rewriting
