import Mathlib.Data.Finset.Card
import Mathlib.Data.Finset.Range
import Mathlib.Logic.Relation
import WebBundle.Graph.Digraph

namespace WebBundle.Proofs.Reachability

open Relation

def Edge (g : Digraph) (source target : Nat) : Prop := target ∈ g.next source

/-- The edges of a graph lead to its nodes. -/
def Closed (g : Digraph) : Prop := ∀ node < g.size, ∀ target ∈ g.next node, target < g.size

/-- The nodes to which a search has not come. -/
def remaining (size : Nat) (found : Nat → Prop) [DecidablePred found] : Finset Nat :=
  (Finset.range size).filter (¬ found ·)

section Remaining

variable {size : Nat} {found found' : Nat → Prop} [DecidablePred found] [DecidablePred found']

theorem mem_remaining {n : Nat} : n ∈ remaining size found ↔ n < size ∧ ¬ found n := by
  simp [remaining]

theorem card_remaining_le_size : (remaining size found).card ≤ size :=
  (Finset.card_filter_le _ _).trans (Finset.card_range size).le

theorem card_remaining_le (h : ∀ n, found n → found' n) :
    (remaining size found').card ≤ (remaining size found).card := by
  apply Finset.card_le_card
  intro n hn
  obtain ⟨hlt, hout⟩ := mem_remaining.mp hn
  exact mem_remaining.mpr ⟨hlt, fun hin => hout (h n hin)⟩

theorem card_remaining_lt (h : ∀ n, found n → found' n) {n : Nat} (hlt : n < size)
    (hold : ¬ found n) (hnew : found' n) :
    (remaining size found').card < (remaining size found).card := by
  apply Finset.card_lt_card
  rw [Finset.ssubset_iff_of_subset]
  · exact ⟨n, mem_remaining.mpr ⟨hlt, hold⟩, fun hn => (mem_remaining.mp hn).2 hnew⟩
  · intro m hm
    obtain ⟨hm, hout⟩ := mem_remaining.mp hm
    exact mem_remaining.mpr ⟨hm, fun hin => hout (h m hin)⟩

end Remaining

theorem isEmpty_iff {s : IdSet} : s.isEmpty = true ↔ ∀ n, n ∉ s := by
  constructor
  · intro h n hn
    have hzero : s.bits = 0 := by simpa [IdSet.isEmpty] using h
    simp [IdSet.mem_iff_testBit, hzero] at hn
  · intro h
    have heq : s = ∅ := IdSet.ext fun n => iff_of_false (h n) (IdSet.not_mem_empty n)
    rw [heq]
    rfl

/-- The successors of a frontier that were not reached before. -/
def fresh (next : Nat → List Nat) (frontier reached : IdSet) : IdSet :=
  (IdSet.ofList (frontier.toList.flatMap next)).diff reached

section Rounds

variable {next : Nat → List Nat} {rounds size n : Nat} {frontier reached : IdSet}

theorem spread_succ : Digraph.spread next (rounds + 1) frontier reached =
    if (fresh next frontier reached).isEmpty then reached
    else Digraph.spread next rounds (fresh next frontier reached)
      (reached.union (fresh next frontier reached)) := rfl

theorem mem_fresh :
    n ∈ fresh next frontier reached ↔ (∃ m ∈ frontier, n ∈ next m) ∧ n ∉ reached := by
  simp [fresh, IdSet.mem_diff, IdSet.mem_ofList, IdSet.mem_toList]

theorem card_remaining_round (hlt : n < size) (hn : n ∈ fresh next frontier reached) :
    (remaining size (· ∈ reached.union (fresh next frontier reached))).card <
      (remaining size (· ∈ reached)).card :=
  card_remaining_lt (fun _ hm => IdSet.mem_union.mpr (.inl hm)) hlt (mem_fresh.mp hn).2
    (IdSet.mem_union.mpr (.inr hn))

theorem mem_spread_of_mem (hn : n ∈ reached) : n ∈ Digraph.spread next rounds frontier reached := by
  induction rounds generalizing frontier reached with
  | zero => exact hn
  | succ rounds ih =>
      rw [spread_succ]
      split
      · exact hn
      · exact ih (IdSet.mem_union.mpr (.inl hn))

theorem spread_sound {P : Nat → Prop} (hstep : ∀ a, P a → ∀ b ∈ next a, P b)
    (hfrontier : ∀ a ∈ frontier, P a) (hreached : ∀ a ∈ reached, P a) :
    ∀ a ∈ Digraph.spread next rounds frontier reached, P a := by
  induction rounds generalizing frontier reached with
  | zero => exact hreached
  | succ rounds ih =>
      rw [spread_succ]
      split
      · exact hreached
      · have hfresh : ∀ a ∈ fresh next frontier reached, P a := by
          intro a ha
          obtain ⟨⟨m, hm, ham⟩, -⟩ := mem_fresh.mp ha
          exact hstep m (hfrontier m hm) a ham
        refine ih hfresh fun a ha => ?_
        rcases IdSet.mem_union.mp ha with h | h
        · exact hreached a h
        · exact hfresh a h

end Rounds

/-- A search on its way: it has reached nodes of the graph, and only those of the frontier have successors
that were not reached. -/
structure Spreading (g : Digraph) (frontier reached : IdSet) : Prop where
  lt : ∀ n ∈ reached, n < g.size
  sub : ∀ n ∈ frontier, n ∈ reached
  done : ∀ a ∈ reached, a ∉ frontier → ∀ b ∈ g.next a, b ∈ reached

namespace Spreading

variable {g : Digraph} {frontier reached : IdSet}

theorem initial (h : ∀ n ∈ reached, n < g.size) : Spreading g reached reached :=
  ⟨h, fun _ hn => hn, fun _ ha hout => absurd ha hout⟩

theorem fresh_lt (h : Spreading g frontier reached) (hg : Closed g) :
    ∀ n ∈ fresh g.next frontier reached, n < g.size := by
  intro n hn
  obtain ⟨⟨m, hm, hmn⟩, -⟩ := mem_fresh.mp hn
  exact hg m (h.lt m (h.sub m hm)) n hmn

theorem round (h : Spreading g frontier reached) (hg : Closed g) :
    Spreading g (fresh g.next frontier reached)
      (reached.union (fresh g.next frontier reached)) where
  lt n hn := (IdSet.mem_union.mp hn).elim (h.lt n) (h.fresh_lt hg n)
  sub n hn := IdSet.mem_union.mpr (.inr hn)
  done a ha hnew b hb := by
    have hold : a ∈ reached := (IdSet.mem_union.mp ha).resolve_right hnew
    rw [IdSet.mem_union, mem_fresh]
    by_cases hreached : b ∈ reached
    · exact .inl hreached
    · have hfront : a ∈ frontier := by_contra fun hout => hreached (h.done a hold hout b hb)
      exact .inr ⟨⟨a, hfront, hb⟩, hreached⟩

theorem closed_of_isEmpty (h : Spreading g frontier reached)
    (hempty : (fresh g.next frontier reached).isEmpty = true) :
    ∀ a ∈ reached, ∀ b ∈ g.next a, b ∈ reached := by
  intro a ha b hb
  by_cases hfront : a ∈ frontier
  · by_contra hout
    exact isEmpty_iff.mp hempty b (mem_fresh.mpr ⟨⟨a, hfront, hb⟩, hout⟩)
  · exact h.done a ha hfront b hb

end Spreading

/-- With a round for each unreached node, the search ends in a set that no edge leaves. -/
theorem spread_closed {g : Digraph} (hg : Closed g) {rounds : Nat} {frontier reached : IdSet}
    (h : Spreading g frontier reached)
    (hrounds : (remaining g.size (· ∈ reached)).card ≤ rounds) :
    ∀ a ∈ Digraph.spread g.next rounds frontier reached, ∀ b ∈ g.next a,
      b ∈ Digraph.spread g.next rounds frontier reached := by
  induction rounds generalizing frontier reached with
  | zero =>
      intro a ha b hb
      simp only [Digraph.spread] at ha ⊢
      by_contra hout
      have hmem := mem_remaining.mpr ⟨hg a (h.lt a ha) b hb, hout⟩
      have hempty := Finset.card_eq_zero.mp (Nat.le_zero.mp hrounds)
      rw [hempty] at hmem
      exact Finset.notMem_empty b hmem
  | succ rounds ih =>
      rw [spread_succ]
      split
      · next hempty => exact h.closed_of_isEmpty hempty
      · next hnew =>
          rw [isEmpty_iff, not_forall] at hnew
          obtain ⟨n, hn⟩ := hnew
          have hless := card_remaining_round (h.fresh_lt hg n (not_not.mp hn)) (not_not.mp hn)
          exact ih (h.round hg) (by omega)

theorem mem_reachFrom_of_mem {g : Digraph} {start : IdSet} {n : Nat} (hn : n ∈ start) :
    n ∈ g.reachFrom start :=
  mem_spread_of_mem hn

theorem reachFrom_closed {g : Digraph} (hg : Closed g) {start : IdSet}
    (hstart : ∀ n ∈ start, n < g.size) {a b : Nat} (ha : a ∈ g.reachFrom start)
    (hb : b ∈ g.next a) : b ∈ g.reachFrom start :=
  spread_closed hg (.initial hstart) card_remaining_le_size a ha b hb

/-- A search finds what a walk along edges reaches. -/
theorem mem_reachFrom_iff {g : Digraph} (hg : Closed g) {start : IdSet}
    (hstart : ∀ n ∈ start, n < g.size) {m : Nat} :
    m ∈ g.reachFrom start ↔ ∃ n ∈ start, ReflTransGen (Edge g) n m := by
  constructor
  · intro hm
    refine spread_sound (P := fun m => ∃ n ∈ start, ReflTransGen (Edge g) n m) ?_ ?_ ?_ m hm
    · rintro a ⟨n, hn, hwalk⟩ b hb
      exact ⟨n, hn, hwalk.tail hb⟩
    · exact fun a ha => ⟨a, ha, .refl⟩
    · exact fun a ha => ⟨a, ha, .refl⟩
  · rintro ⟨n, hn, hwalk⟩
    induction hwalk with
    | refl => exact mem_reachFrom_of_mem hn
    | tail _ hedge ih => exact reachFrom_closed hg hstart ih hedge

theorem mem_reach_iff {g : Digraph} (hg : Closed g) {node m : Nat} (hnode : node < g.size) :
    m ∈ g.reach node ↔ ReflTransGen (Edge g) node m := by
  have hstart : ∀ n ∈ IdSet.ofList [node], n < g.size := by
    intro n hn
    simp only [IdSet.mem_ofList, List.mem_singleton] at hn
    omega
  rw [Digraph.reach, mem_reachFrom_iff hg hstart]
  simp [IdSet.mem_ofList]

theorem mem_reach_self {g : Digraph} {node : Nat} : node ∈ g.reach node :=
  mem_reachFrom_of_mem (by simp [IdSet.mem_ofList])

end WebBundle.Proofs.Reachability
