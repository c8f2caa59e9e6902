namespace WebBundle

/-- A finite set of numbers: it holds those whose bit is set. -/
structure IdSet where
  bits : Nat
  deriving DecidableEq

namespace IdSet

def contains (s : IdSet) (n : Nat) : Bool := s.bits.testBit n

instance : Membership Nat IdSet := ⟨fun s n => s.contains n = true⟩

instance (n : Nat) (s : IdSet) : Decidable (n ∈ s) := inferInstanceAs (Decidable (s.contains n = true))

theorem contains_iff {s : IdSet} {n : Nat} : s.contains n ↔ n ∈ s := Iff.rfl

theorem mem_iff_testBit {s : IdSet} {n : Nat} : n ∈ s ↔ s.bits.testBit n = true := Iff.rfl

theorem ext {s t : IdSet} (h : ∀ n, n ∈ s ↔ n ∈ t) : s = t := by
  obtain ⟨x⟩ := s
  obtain ⟨y⟩ := t
  exact congrArg IdSet.mk (Nat.eq_of_testBit_eq fun n => Bool.eq_iff_iff.2 (h n))

def empty : IdSet := ⟨0⟩

instance : EmptyCollection IdSet := ⟨empty⟩

instance : Inhabited IdSet := ⟨empty⟩

theorem not_mem_empty (n : Nat) : n ∉ (∅ : IdSet) := by
  simp [mem_iff_testBit, EmptyCollection.emptyCollection, empty]

def isEmpty (s : IdSet) : Bool := s.bits == 0

def single (n : Nat) : IdSet := ⟨1 <<< n⟩

theorem testBit_one_shiftLeft (n m : Nat) : (1 <<< n).testBit m = decide (m = n) := by
  rw [Nat.one_shiftLeft, Nat.testBit_two_pow]
  exact decide_eq_decide.2 eq_comm

theorem mem_single {n m : Nat} : m ∈ single n ↔ m = n := by
  rw [mem_iff_testBit, single, testBit_one_shiftLeft]
  exact decide_eq_true_iff

def union (s t : IdSet) : IdSet := ⟨s.bits ||| t.bits⟩

theorem mem_union {s t : IdSet} {m : Nat} : m ∈ s.union t ↔ m ∈ s ∨ m ∈ t := by
  simp [mem_iff_testBit, union]

def inter (s t : IdSet) : IdSet := ⟨s.bits &&& t.bits⟩

theorem mem_inter {s t : IdSet} {m : Nat} : m ∈ s.inter t ↔ m ∈ s ∧ m ∈ t := by
  simp [mem_iff_testBit, inter]

/-- The numbers of a set that are not in another. -/
def diff (s t : IdSet) : IdSet := ⟨s.bits ^^^ (s.bits &&& t.bits)⟩

theorem mem_diff {s t : IdSet} {m : Nat} : m ∈ s.diff t ↔ m ∈ s ∧ m ∉ t := by
  simp only [mem_iff_testBit, diff, Nat.testBit_xor, Nat.testBit_and]
  cases s.bits.testBit m <;> cases t.bits.testBit m <;> simp

def insert (s : IdSet) (n : Nat) : IdSet := s.union (single n)

theorem mem_insert {s : IdSet} {n m : Nat} : m ∈ s.insert n ↔ m = n ∨ m ∈ s := by
  rw [insert, mem_union, mem_single]
  exact or_comm

def ofList (ids : List Nat) : IdSet := ids.foldl insert ∅

theorem mem_foldl_insert {ids : List Nat} {s : IdSet} {m : Nat} :
    m ∈ ids.foldl insert s ↔ m ∈ ids ∨ m ∈ s := by
  induction ids generalizing s with
  | nil => simp
  | cons n rest ih =>
    simp only [List.foldl_cons, ih, mem_insert, List.mem_cons]
    exact or_left_comm.trans or_assoc.symm

theorem mem_ofList {ids : List Nat} {m : Nat} : m ∈ ofList ids ↔ m ∈ ids := by
  simp [ofList, mem_foldl_insert, not_mem_empty]

def below (bound : Nat) : IdSet := ⟨1 <<< bound - 1⟩

theorem mem_below {bound m : Nat} : m ∈ below bound ↔ m < bound := by
  rw [mem_iff_testBit, below, Nat.one_shiftLeft, Nat.testBit_two_pow_sub_one]
  exact decide_eq_true_iff

/-- Lists the places of the set bits before other numbers. The highest bit goes first, in front of what is
above it. -/
def places : (count : Nat) → (bits : Nat) → (above : List Nat) → List Nat
  | 0, _, above => above
  | count + 1, bits, above =>
    if bits = 0 then above
    else places count (bits ^^^ (1 <<< bits.log2)) (bits.log2 :: above)

/-- Without its highest bit a number is below that bit. -/
theorem xor_log2_lt {bits : Nat} (h : bits ≠ 0) : bits ^^^ (1 <<< bits.log2) < 1 <<< bits.log2 := by
  rw [Nat.one_shiftLeft]
  refine Nat.lt_pow_two_of_testBit _ fun i hi => ?_
  rw [Nat.testBit_xor, Nat.testBit_two_pow]
  rcases Nat.lt_or_eq_of_le hi with hlt | rfl
  · have hbits := Nat.testBit_lt_two_pow ((Nat.log2_lt h).1 hlt)
    simp [hbits, Nat.ne_of_lt hlt]
  · simp [Nat.testBit_log2 h]

theorem xor_log2_lt_of_lt {bits count : Nat} (h : bits ≠ 0) (hlt : bits < 1 <<< (count + 1)) :
    bits ^^^ (1 <<< bits.log2) < 1 <<< count := by
  refine Nat.lt_of_lt_of_le (xor_log2_lt h) ?_
  rw [Nat.one_shiftLeft, Nat.one_shiftLeft]
  rw [Nat.one_shiftLeft] at hlt
  exact Nat.pow_le_pow_right Nat.two_pos (Nat.le_of_lt_succ ((Nat.log2_lt h).2 hlt))

/-- The bits of a number are its highest bit and those below it. -/
theorem testBit_iff_xor_log2 {bits : Nat} (h : bits ≠ 0) (m : Nat) :
    bits.testBit m = true ↔ (bits ^^^ (1 <<< bits.log2)).testBit m = true ∨ m = bits.log2 := by
  rw [Nat.testBit_xor, testBit_one_shiftLeft]
  by_cases hm : m = bits.log2
  · subst hm
    simp [Nat.testBit_log2 h]
  · simp [hm]

theorem mem_places {count : Nat} : ∀ {bits : Nat} {above : List Nat} {m : Nat},
    bits < 1 <<< count → (m ∈ places count bits above ↔ bits.testBit m = true ∨ m ∈ above) := by
  induction count with
  | zero =>
    intro bits above m h
    have : bits = 0 := Nat.lt_one_iff.1 h
    simp [places, this]
  | succ count ih =>
    intro bits above m h
    unfold places
    split
    · next hz => simp [hz]
    · next hz =>
      rw [ih (xor_log2_lt_of_lt hz h), testBit_iff_xor_log2 hz, List.mem_cons, or_assoc]

theorem pairwise_places {count : Nat} : ∀ {bits : Nat} {above : List Nat},
    above.Pairwise (· < ·) → (∀ m ∈ above, bits < 1 <<< m) → bits < 1 <<< count →
      (places count bits above).Pairwise (· < ·) := by
  induction count with
  | zero =>
    intro bits above hp _ _
    exact hp
  | succ count ih =>
    intro bits above hp ha h
    unfold places
    split
    · exact hp
    · next hz =>
      refine ih (List.pairwise_cons.2 ⟨fun m hm => ?_, hp⟩) (fun m hm => ?_) (xor_log2_lt_of_lt hz h)
      · have := ha m hm
        rw [Nat.one_shiftLeft] at this
        exact (Nat.log2_lt hz).2 this
      · rcases List.mem_cons.1 hm with rfl | hm
        · exact xor_log2_lt hz
        · have := ha m hm
          rw [Nat.one_shiftLeft] at this
          refine Nat.lt_trans (xor_log2_lt hz) ?_
          rw [Nat.one_shiftLeft, Nat.one_shiftLeft]
          exact Nat.pow_lt_pow_right Nat.one_lt_two ((Nat.log2_lt hz).2 this)

/-- The numbers of a set in ascending order. -/
def toList (s : IdSet) : List Nat := places (s.bits.log2 + 1) s.bits []

theorem bits_lt (s : IdSet) : s.bits < 1 <<< (s.bits.log2 + 1) := by
  rw [Nat.one_shiftLeft]
  exact Nat.lt_log2_self

theorem mem_toList {n : Nat} {s : IdSet} : n ∈ s.toList ↔ n ∈ s := by
  rw [toList, mem_places s.bits_lt, mem_iff_testBit]
  simp

theorem pairwise_toList (s : IdSet) : s.toList.Pairwise (· < ·) :=
  pairwise_places .nil (by simp) s.bits_lt

def size (s : IdSet) : Nat := s.toList.length

def filter (s : IdSet) (p : Nat → Bool) : IdSet := ofList (s.toList.filter p)

theorem mem_filter {s : IdSet} {p : Nat → Bool} {m : Nat} : m ∈ s.filter p ↔ m ∈ s ∧ p m := by
  rw [filter, mem_ofList, List.mem_filter, mem_toList]

/-- Whether a list comes before another or is the same: the first place where they differ decides. -/
def lexLe : List Nat → List Nat → Bool
  | [], _ => true
  | _ :: _, [] => false
  | a :: as, b :: bs => a < b || (a == b && lexLe as bs)

end IdSet

end WebBundle
