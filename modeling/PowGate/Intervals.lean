import Mathlib.Data.List.Sort
import Mathlib.Order.MinMax

/-! Sets of ordered values as lists of inclusive intervals. A normal list is sorted and its
intervals are disjoint, which is what the binary searches rely on; insertion by splicing and
normalization by sorting both establish it. -/
namespace PowGate.Intervals

/-- The halving loop of a binary search, with enough fuel for its size. -/
def halve (p : β → Bool) (l : List β) : Nat → Nat → Nat → Nat
  | 0, base, _ => base
  | fuel + 1, base, size =>
    if 1 < size then
      let mid := base + size / 2
      halve p l fuel (if l[mid]?.any p then mid else base) (size - size / 2)
    else base

/-- `slice::partition_point`. -/
def partitionPoint (p : β → Bool) (l : List β) : Nat :=
  if l.length = 0 then 0
  else
    let base := halve p l l.length 0 l.length
    base + if l[base]?.any p then 1 else 0

section Search

variable {p : β → Bool} {l front back : List β}

/-- The predicate holds exactly on the first `k` elements. -/
structure Point (p : β → Bool) (l : List β) (k : Nat) : Prop where
  bound : k ≤ l.length
  holds : ∀ i, l[i]?.any p = true ↔ i < k

theorem point_append (holds : ∀ a ∈ front, p a = true) (fails : ∀ b ∈ back, p b = false) :
    Point p (front ++ back) front.length := by
  refine ⟨by simp, fun i => ?_⟩
  by_cases below : i < front.length
  · rw [List.getElem?_append_left below,List.getElem?_eq_getElem below]
    simp [below,holds _ (List.getElem_mem below)]
  · rw [List.getElem?_append_right (Nat.not_lt.mp below)]
    simp only [below,iff_false,Bool.not_eq_true,Option.any_eq_false]
    intro b found
    simp [fails b (List.mem_of_getElem? found)]

theorem split_of_pairwise (lost : l.Pairwise fun a b => p b = true → p a = true) :
    ∃ front back, l = front ++ back ∧ (∀ a ∈ front, p a = true) ∧ ∀ b ∈ back, p b = false := by
  induction l with
  | nil => exact ⟨[], [], rfl, by simp, by simp⟩
  | cons a rest ih =>
    obtain ⟨first, more⟩ := List.pairwise_cons.mp lost
    by_cases here : p a = true
    · obtain ⟨front, back, rfl, holds, fails⟩ := ih more
      exact ⟨a :: front, back, rfl, by simpa [here] using holds, fails⟩
    · refine ⟨[], a :: rest, rfl, by simp, fun b member => ?_⟩
      rcases List.mem_cons.mp member with rfl | later
      · simpa using here
      · by_contra passes
        exact here (first b later (by simpa using passes))

/-- The loop keeps the point within its window and, once it has moved, above its base. -/
theorem halve_point (point : Point p l k) (fuel base size : Nat) (enough : size ≤ fuel)
    (window : k ≤ base + size) (moved : base = 0 ∨ base < k) (nonempty : 0 < size) :
    k ≤ halve p l fuel base size + 1 ∧ (halve p l fuel base size = 0 ∨ halve p l fuel base size < k) := by
  induction fuel generalizing base size with
  | zero => omega
  | succ fuel ih =>
    rw [halve]
    split
    · by_cases passes : l[base + size / 2]?.any p = true
      · simp only [passes,if_true]
        have inside := (point.holds _).mp passes
        exact ih (base + size / 2) (size - size / 2) (by omega) (by omega) (.inr inside) (by omega)
      · simp only [passes]
        have outside := mt (point.holds _).mpr passes
        exact ih base (size - size / 2) (by omega) (by omega) moved (by omega)
    · exact ⟨by omega, moved⟩

theorem partitionPoint_eq (point : Point p l k) : partitionPoint p l = k := by
  have bound := point.bound
  unfold partitionPoint
  split
  · omega
  · obtain ⟨window, moved⟩ := halve_point point l.length 0 l.length (Nat.le_refl _) (by omega) (.inl rfl) (by omega)
    by_cases passes : l[halve p l l.length 0 l.length]?.any p = true
    · have inside := (point.holds _).mp passes
      simp only [passes,if_true]
      omega
    · have outside := mt (point.holds _).mpr passes
      simp only [passes,Bool.false_eq_true,if_false]
      omega

end Search

section Ordered

variable [LinearOrder α]

def Covers (l : List (α × α)) (x : α) : Prop := ∃ r ∈ l, r.1 ≤ x ∧ x ≤ r.2

structure Normal (l : List (α × α)) : Prop where
  sorted : l.Pairwise fun a b => a.2 < b.1
  proper : ∀ r ∈ l, r.1 ≤ r.2

/-- Is the value in the last interval that starts at or before it? -/
def containsInterval (ranges : List (α × α)) (address : α) : Bool :=
  let i := partitionPoint (fun r => r.1 ≤ address) ranges
  i != 0 && ranges[i - 1]?.any fun r => address ≤ r.2

/-- Replaces the intervals that meet the new one by a single interval around all of them. -/
def insertInterval (ranges : List (α × α)) (interval : α × α) : List (α × α) :=
  let start := partitionPoint (fun r => r.2 < interval.1) ranges
  let stop := partitionPoint (fun r => r.1 ≤ interval.2) ranges
  let grown := match ranges[start]?, ranges[stop - 1]? with
    | some a, some b => if start < stop then (min interval.1 a.1, max interval.2 b.2) else interval
    | _, _ => interval
  ranges.take start ++ grown :: ranges.drop stop

def Before (a b : α × α) : Prop := a.1 < b.1 ∨ a.1 = b.1 ∧ a.2 ≤ b.2

instance (a b : α × α) : Decidable (Before a b) := inferInstanceAs (Decidable (_ ∨ _))

/-- One turn of the compaction loop; the intervals kept so far come latest first. -/
def compact : List (α × α) → α × α → List (α × α)
  | last :: used, r => if r.1 ≤ last.2 then (last.1, max last.2 r.2) :: used else r :: last :: used
  | [], r => [r]

def normalize (ranges : List (α × α)) : List (α × α) :=
  ((ranges.insertionSort Before).foldl compact []).reverse

instance : Std.Total (Before (α := α)) where
  total a b := by
    unfold Before
    rcases lt_trichotomy a.1 b.1 with less | same | more
    · exact .inl (.inl less)
    · rcases le_total a.2 b.2 with below | above
      · exact .inl (.inr ⟨same, below⟩)
      · exact .inr (.inr ⟨same.symm, above⟩)
    · exact .inr (.inl more)

instance : IsTrans (α × α) Before where
  trans a b c first second := by
    unfold Before at *
    rcases first with less | ⟨same, below⟩
    · rcases second with more | ⟨equal, _⟩
      · exact .inl (lt_trans less more)
      · exact .inl (equal ▸ less)
    · rcases second with more | ⟨equal, above⟩
      · exact .inl (same ▸ more)
      · exact .inr ⟨same.trans equal, le_trans below above⟩

variable {l rest : List (α × α)} {interval r : α × α} {x : α}

@[simp] theorem covers_nil : ¬ Covers ([] : List (α × α)) x := by simp [Covers]

@[simp] theorem covers_cons : Covers (r :: l) x ↔ (r.1 ≤ x ∧ x ≤ r.2) ∨ Covers l x := by simp [Covers]

@[simp] theorem covers_append : Covers (l ++ rest) x ↔ Covers l x ∨ Covers rest x := by
  simp [Covers,or_and_right,exists_or]

@[simp] theorem covers_reverse : Covers l.reverse x ↔ Covers l x := by simp [Covers]

theorem Normal.nil : Normal ([] : List (α × α)) := ⟨.nil, by simp⟩

theorem Normal.tail (normal : Normal (r :: l)) : Normal l :=
  ⟨(List.pairwise_cons.mp normal.sorted).2, fun a member => normal.proper a (List.mem_cons_of_mem r member)⟩

theorem Normal.split_starts (normal : Normal l) (x : α) :
    ∃ front back, l = front ++ back ∧ (∀ a ∈ front, a.1 ≤ x) ∧ ∀ b ∈ back, x < b.1 := by
  have lost : l.Pairwise fun a b => decide (b.1 ≤ x) = true → decide (a.1 ≤ x) = true := by
    apply normal.sorted.imp_of_mem
    intro a b inA _ apart below
    simp only [decide_eq_true_eq] at below ⊢
    exact le_trans (normal.proper a inA) (le_trans apart.le below)
  obtain ⟨front, back, shape, holds, fails⟩ := split_of_pairwise lost
  exact ⟨front, back, shape, by simpa using holds, by simpa using fails⟩

theorem Normal.split_ends (normal : Normal l) (x : α) :
    ∃ front back, l = front ++ back ∧ (∀ a ∈ front, a.2 < x) ∧ ∀ b ∈ back, x ≤ b.2 := by
  have lost : l.Pairwise fun a b => decide (b.2 < x) = true → decide (a.2 < x) = true := by
    apply normal.sorted.imp_of_mem
    intro a b _ inB apart below
    simp only [decide_eq_true_eq] at below ⊢
    exact lt_trans apart (lt_of_le_of_lt (normal.proper b inB) below)
  obtain ⟨front, back, shape, holds, fails⟩ := split_of_pairwise lost
  exact ⟨front, back, shape, by simpa using holds, by simpa using fails⟩

theorem Normal.append_left (normal : Normal (l ++ rest)) : Normal l :=
  ⟨(List.pairwise_append.mp normal.sorted).1, fun a member => normal.proper a (List.mem_append_left rest member)⟩

theorem Normal.append_right (normal : Normal (l ++ rest)) : Normal rest :=
  ⟨(List.pairwise_append.mp normal.sorted).2.1, fun a member => normal.proper a (List.mem_append_right l member)⟩

theorem Normal.apart (normal : Normal (l ++ rest)) : ∀ a ∈ l, ∀ b ∈ rest, a.2 < b.1 :=
  (List.pairwise_append.mp normal.sorted).2.2

/-- Only the last interval that starts early enough can hold the value. -/
theorem containsInterval_iff (normal : Normal l) : containsInterval l x = true ↔ Covers l x := by
  obtain ⟨front, back, rfl, early, late⟩ := normal.split_starts x
  have missed : ¬ Covers back x := by
    rintro ⟨r, member, below, _⟩
    exact absurd below (not_le.mpr (late r member))
  have point : partitionPoint (fun r => decide (r.1 ≤ x)) (front ++ back) = front.length :=
    partitionPoint_eq (point_append (by simpa using early) (by simpa using late))
  unfold containsInterval
  rw [point]
  rcases List.eq_nil_or_concat front with rfl | ⟨others, last, shape⟩
  · simpa using missed
  · rw [List.concat_eq_append] at shape
    subst shape
    have begun := early last (by simp)
    have skipped : ¬ Covers others x := by
      rintro ⟨r, member, _, above⟩
      have before := normal.append_left.apart r member last (by simp)
      exact absurd (lt_of_le_of_lt above before) (not_lt.mpr begun)
    simp [missed,skipped,begun]

/-- The smallest interval around the new one and those it meets. -/
def hull (interval : α × α) (met : List (α × α)) : α × α :=
  (met.head?.elim interval.1 fun a => min interval.1 a.1, met.getLast?.elim interval.2 fun b => max interval.2 b.2)

/-- What the intervals around a new one are: before it, meeting it, beyond it. -/
structure Cut (l : List (α × α)) (interval : α × α) (before met beyond : List (α × α)) : Prop where
  whole : l = before ++ (met ++ beyond)
  earlier : ∀ a ∈ before, a.2 < interval.1
  reaches : ∀ m ∈ met, interval.1 ≤ m.2
  starts : ∀ m ∈ met, m.1 ≤ interval.2
  later : ∀ b ∈ beyond, interval.2 < b.1

theorem Normal.cut (normal : Normal l) (interval : α × α) : ∃ before met beyond, Cut l interval before met beyond := by
  obtain ⟨before, others, rfl, earlier, reaches⟩ := normal.split_ends interval.1
  obtain ⟨met, beyond, rfl, starts, later⟩ := normal.append_right.split_starts interval.2
  exact ⟨before, met, beyond, rfl, earlier, fun m member => reaches m (List.mem_append_left beyond member), starts, later⟩

variable {before met beyond : List (α × α)}

theorem insertInterval_eq (normal : Normal l) (proper : interval.1 ≤ interval.2) (cut : Cut l interval before met beyond) :
    insertInterval l interval = before ++ hull interval met :: beyond := by
  obtain ⟨rfl, earlier, reaches, starts, later⟩ := cut
  have start : partitionPoint (fun r => decide (r.2 < interval.1)) (before ++ (met ++ beyond)) = before.length := by
    apply partitionPoint_eq (point_append (by simpa using earlier) _)
    intro b member
    rcases List.mem_append.mp member with inside | after
    · simpa using reaches b inside
    · have reach := le_trans proper (le_trans (later b after).le (normal.append_right.append_right.proper b after))
      simpa using reach
  have stop : partitionPoint (fun r => decide (r.1 ≤ interval.2)) (before ++ (met ++ beyond)) =
      before.length + met.length := by
    rw [← List.length_append,← List.append_assoc]
    apply partitionPoint_eq (point_append _ (by simpa using later))
    intro a member
    rcases List.mem_append.mp member with first | inside
    · have reach := le_trans (normal.append_left.proper a first) (le_trans (earlier a first).le proper)
      simpa using reach
    · simpa using starts a inside
  unfold insertInterval
  rw [start,stop]
  by_cases empty : met = []
  · subst empty
    simp only [List.length_nil,Nat.add_zero,Nat.lt_irrefl,if_false,List.nil_append,hull]
    split <;> simp
  · have size := List.length_pos_of_ne_nil empty
    have first : (before ++ (met ++ beyond))[before.length]? = some (met.head empty) := by
      rw [List.getElem?_append_right (Nat.le_refl _),Nat.sub_self,List.getElem?_append_left size,
        ← List.head?_eq_getElem?,List.head?_eq_some_head empty]
    have last : (before ++ (met ++ beyond))[before.length + met.length - 1]? = some (met.getLast empty) := by
      rw [List.getElem?_append_right (by omega),List.getElem?_append_left (by omega),
        show before.length + met.length - 1 - before.length = met.length - 1 by omega,
        ← List.getLast?_eq_getElem?,List.getLast?_eq_some_getLast empty]
    dsimp only
    rw [first,last]
    simp only [hull,List.head?_eq_some_head empty,List.getLast?_eq_some_getLast empty,Option.elim_some,
      if_pos (Nat.lt_add_of_pos_right size)]
    simp

/-- An interval of the list that ends furthest is its last, and one that starts first its head. -/
theorem Normal.extremes (normal : Normal l) (nonempty : l ≠ []) (member : r ∈ l) :
    (l.head nonempty).1 ≤ r.1 ∧ r.2 ≤ (l.getLast nonempty).2 := by
  induction l with
  | nil => exact absurd rfl nonempty
  | cons a rest ih =>
    obtain ⟨first, _⟩ := List.pairwise_cons.mp normal.sorted
    have proper := normal.proper a List.mem_cons_self
    by_cases alone : rest = []
    · subst alone
      rw [List.mem_singleton.mp member]
      exact ⟨le_refl _, le_refl _⟩
    · have apart := first (rest.getLast alone) (List.getLast_mem alone)
      have final := normal.tail.proper (rest.getLast alone) (List.getLast_mem alone)
      rw [List.head_cons,List.getLast_cons alone]
      rcases List.mem_cons.mp member with rfl | later
      · exact ⟨le_refl _, le_trans apart.le final⟩
      · exact ⟨le_trans proper (first r later).le, (ih normal.tail alone later).2⟩

theorem hull_covers (normal : Normal met) (reaches : ∀ m ∈ met, interval.1 ≤ m.2)
    (starts : ∀ m ∈ met, m.1 ≤ interval.2) :
    (hull interval met).1 ≤ x ∧ x ≤ (hull interval met).2 ↔ (interval.1 ≤ x ∧ x ≤ interval.2) ∨ Covers met x := by
  by_cases empty : met = []
  · subst empty
    simp [hull]
  · have head := List.head_mem empty
    have last := List.getLast_mem empty
    simp only [hull,List.head?_eq_some_head empty,List.getLast?_eq_some_getLast empty,Option.elim_some,
      min_le_iff,le_max_iff]
    constructor
    · rintro ⟨low, high⟩
      by_cases early : interval.1 ≤ x
      · by_cases late : x ≤ interval.2
        · exact .inl ⟨early, late⟩
        · have within := high.resolve_left late
          exact .inr ⟨_, last, le_trans (starts _ last) (not_le.mp late).le, within⟩
      · have within := low.resolve_left early
        exact .inr ⟨_, head, within, le_trans (not_le.mp early).le (reaches _ head)⟩
    · rintro (⟨low, high⟩ | ⟨r, member, low, high⟩)
      · exact ⟨.inl low, .inl high⟩
      · obtain ⟨first, final⟩ := normal.extremes empty member
        exact ⟨.inr (le_trans first low), .inr (le_trans high final)⟩

theorem insertInterval_covers (normal : Normal l) (proper : interval.1 ≤ interval.2) :
    Covers (insertInterval l interval) x ↔ (interval.1 ≤ x ∧ x ≤ interval.2) ∨ Covers l x := by
  obtain ⟨before, met, beyond, cut⟩ := normal.cut interval
  rw [insertInterval_eq normal proper cut]
  obtain ⟨rfl, _, reaches, starts, _⟩ := cut
  rw [covers_append,covers_cons,hull_covers normal.append_right.append_left reaches starts,covers_append,
    covers_append,or_assoc,or_left_comm]

theorem insertInterval_normal (normal : Normal l) (proper : interval.1 ≤ interval.2) :
    Normal (insertInterval l interval) := by
  obtain ⟨before, met, beyond, cut⟩ := normal.cut interval
  rw [insertInterval_eq normal proper cut]
  obtain ⟨rfl, earlier, reaches, starts, later⟩ := cut
  have apart := normal.apart
  have beyondApart := normal.append_right.apart
  have low : (hull interval met).1 ≤ interval.1 := by
    unfold hull
    cases met.head? <;> simp
  have high : interval.2 ≤ (hull interval met).2 := by
    unfold hull
    cases met.getLast? <;> simp
  have first : ∀ a ∈ before, a.2 < (hull interval met).1 := by
    intro a member
    unfold hull
    cases found : met.head? with
    | none => exact earlier a member
    | some m =>
      have inside := List.mem_of_head? found
      exact lt_min (earlier a member) (apart a member m (List.mem_append_left beyond inside))
  have last : ∀ b ∈ beyond, (hull interval met).2 < b.1 := by
    intro b member
    unfold hull
    cases found : met.getLast? with
    | none => exact later b member
    | some m =>
      have inside := List.mem_of_getLast? found
      exact max_lt (later b member) (beyondApart m inside b member)
  constructor
  · refine List.pairwise_append.mpr ⟨normal.append_left.sorted, List.pairwise_cons.mpr ⟨last,
      normal.append_right.append_right.sorted⟩, fun a member b after => ?_⟩
    rcases List.mem_cons.mp after with rfl | after
    · exact first a member
    · exact apart a member b (List.mem_append_right met after)
  · intro r member
    rcases List.mem_append.mp member with front | member
    · exact normal.append_left.proper r front
    · rcases List.mem_cons.mp member with rfl | back
      · exact le_trans low (le_trans proper high)
      · exact normal.append_right.append_right.proper r back

variable {used : List (α × α)}

def Ahead (used rest : List (α × α)) : Prop := ∀ last ∈ used.head?, ∀ r ∈ rest, last.1 ≤ r.1

theorem compact_ahead (ahead : Ahead used (r :: rest)) (sorted : ∀ later ∈ rest, r.1 ≤ later.1) :
    Ahead (compact used r) rest := by
  cases used with
  | nil =>
    rintro _ ⟨⟩
    exact sorted
  | cons last used =>
    rw [compact]
    split
    · rintro _ ⟨⟩ later member
      exact ahead last rfl later (List.mem_cons_of_mem r member)
    · rintro _ ⟨⟩
      exact sorted

theorem compact_covers (ahead : Ahead used (r :: rest)) :
    Covers (compact used r) x ↔ Covers used x ∨ (r.1 ≤ x ∧ x ≤ r.2) := by
  cases used with
  | nil => simp [compact]
  | cons last used =>
    have order := ahead last rfl r List.mem_cons_self
    rw [compact]
    split
    · next meets =>
      have joined : last.1 ≤ x ∧ x ≤ max last.2 r.2 ↔ (last.1 ≤ x ∧ x ≤ last.2) ∨ (r.1 ≤ x ∧ x ≤ r.2) := by
        rw [le_max_iff]
        constructor
        · rintro ⟨low, high⟩
          by_cases within : x ≤ last.2
          · exact .inl ⟨low, within⟩
          · exact .inr ⟨le_trans meets (not_le.mp within).le, high.resolve_left within⟩
        · rintro (⟨low, high⟩ | ⟨low, high⟩)
          · exact ⟨low, .inl high⟩
          · exact ⟨le_trans order low, .inr high⟩
      rw [covers_cons,covers_cons,joined,or_right_comm]
    · rw [covers_cons,covers_cons,or_comm]

theorem compact_normal (normal : Normal used.reverse) (proper : r.1 ≤ r.2) : Normal (compact used r).reverse := by
  cases used with
  | nil =>
    rw [compact]
    exact ⟨by simp, by simpa using proper⟩
  | cons last used =>
    rw [List.reverse_cons] at normal
    have apart := normal.apart
    have lastProper := normal.proper last (by simp)
    rw [compact]
    split
    · rw [List.reverse_cons]
      refine ⟨List.pairwise_append.mpr ⟨normal.append_left.sorted, List.pairwise_singleton _ _, ?_⟩, ?_⟩
      · intro a member b single
        rw [List.mem_singleton.mp single]
        exact apart a member last (by simp)
      · intro a member
        rcases List.mem_append.mp member with front | single
        · exact normal.append_left.proper a front
        · rw [List.mem_singleton.mp single]
          exact le_trans lastProper (le_max_left _ _)
    · next separate =>
      rw [List.reverse_cons,List.reverse_cons]
      refine ⟨List.pairwise_append.mpr ⟨normal.sorted, List.pairwise_singleton _ _, ?_⟩, ?_⟩
      · intro a member b single
        rw [List.mem_singleton.mp single]
        rcases List.mem_append.mp member with front | final
        · exact lt_trans (apart a front last (by simp)) (lt_of_le_of_lt lastProper (not_le.mp separate))
        · rw [List.mem_singleton.mp final]
          exact not_le.mp separate
      · intro a member
        rcases List.mem_append.mp member with front | single
        · exact normal.proper a front
        · rw [List.mem_singleton.mp single]
          exact proper

/-- The loop turns sorted intervals into a normal list of the same values. -/
theorem foldl_compact (sorted : rest.Pairwise fun a b => a.1 ≤ b.1) (proper : ∀ r ∈ rest, r.1 ≤ r.2)
    (normal : Normal used.reverse) (ahead : Ahead used rest) :
    Normal (rest.foldl compact used).reverse ∧
      ∀ x, Covers (rest.foldl compact used) x ↔ Covers used x ∨ Covers rest x := by
  induction rest generalizing used with
  | nil => exact ⟨normal, by simp⟩
  | cons r rest ih =>
    obtain ⟨first, more⟩ := List.pairwise_cons.mp sorted
    obtain ⟨properFirst, properMore⟩ := List.forall_mem_cons.mp proper
    obtain ⟨done, covers⟩ := ih more properMore (compact_normal normal properFirst) (compact_ahead ahead first)
    refine ⟨done, fun x => ?_⟩
    rw [List.foldl_cons,covers,compact_covers ahead,covers_cons,or_assoc]

theorem sorted_starts (l : List (α × α)) : (l.insertionSort Before).Pairwise fun a b => a.1 ≤ b.1 := by
  apply (List.pairwise_insertionSort Before l).imp
  rintro a b (less | ⟨same, _⟩)
  · exact less.le
  · exact same.le

theorem normalize_spec (proper : ∀ r ∈ l, r.1 ≤ r.2) :
    Normal (normalize l) ∧ ∀ x, Covers (normalize l) x ↔ Covers l x := by
  have sortedProper : ∀ r ∈ l.insertionSort Before, r.1 ≤ r.2 := by
    intro r member
    exact proper r ((List.mem_insertionSort Before).mp member)
  have ahead : Ahead [] (l.insertionSort Before) := by rintro _ ⟨⟩
  have empty : Normal ([] : List (α × α)).reverse := Normal.nil
  obtain ⟨normal, covers⟩ := foldl_compact (sorted_starts l) sortedProper empty ahead
  refine ⟨normal, fun x => ?_⟩
  rw [normalize,covers_reverse,covers]
  simp [Covers]

end Ordered

end PowGate.Intervals
