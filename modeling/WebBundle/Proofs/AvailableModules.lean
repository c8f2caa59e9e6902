import Mathlib.Algebra.BigOperators.Group.List.Basic
import Mathlib.Algebra.Order.BigOperators.Group.List
import Mathlib.Algebra.Order.Ring.Nat
import Mathlib.Data.Finset.Card
import WebBundle.Chunk.Boundary

namespace WebBundle.Proofs.AvailableModules

open WebBundle.Boundary

theorem size_eq_card (s : IdSet) : s.size = s.toList.toFinset.card :=
  (List.toFinset_card_of_nodup (s.pairwise_toList.imp fun h => h.ne)).symm

section Subset

variable {s t : IdSet} (h : ∀ m ∈ s, m ∈ t)
include h

theorem toFinset_subset : s.toList.toFinset ⊆ t.toList.toFinset := by
  intro m hm
  rw [List.mem_toFinset, IdSet.mem_toList] at hm ⊢
  exact h m hm

theorem size_le_of_subset : s.size ≤ t.size := by
  rw [size_eq_card, size_eq_card]
  exact Finset.card_le_card (toFinset_subset h)

theorem size_lt_of_subset (hne : s ≠ t) : s.size < t.size := by
  rw [size_eq_card, size_eq_card]
  apply Finset.card_lt_card
  refine lt_of_le_of_ne (toFinset_subset h) fun heq => hne ?_
  apply IdSet.ext
  intro m
  have hm := congrArg (m ∈ ·) heq
  simpa [IdSet.mem_toList] using hm

end Subset

/-- Knowing more: a set is narrower than a set that holds it, and every set is narrower than
nothing known. -/
def Narrower (x y : Option IdSet) : Prop := ∀ t, y = some t → ∃ s, x = some s ∧ ∀ m ∈ s, m ∈ t

theorem Narrower.refl (x : Option IdSet) : Narrower x x := fun t ht => ⟨t, ht, fun _ h => h⟩

theorem Narrower.trans {x y z : Option IdSet} (h : Narrower x y) (h' : Narrower y z) :
    Narrower x z := by
  intro u hu
  obtain ⟨t, ht, htu⟩ := h' u hu
  obtain ⟨s, hs, hst⟩ := h t ht
  exact ⟨s, hs, fun m hm => htu m (hst m hm)⟩

theorem Narrower.antisymm {x y : Option IdSet} (h : Narrower x y) (h' : Narrower y x) : x = y := by
  cases x with
  | none =>
      cases y with
      | none => rfl
      | some t =>
          obtain ⟨s, hs, -⟩ := h t rfl
          contradiction
  | some s =>
      obtain ⟨t, rfl, hts⟩ := h' s rfl
      obtain ⟨s', hs, hst⟩ := h t rfl
      cases hs
      exact congrArg some (IdSet.ext fun m => ⟨hst m, hts m⟩)

/-- What is known of a boundary. -/
def at? (known : Known) (b : Nat) : Option IdSet := known.getD b none

theorem at?_eq (known : Known) (b : Nat) : at? known b = known[b]?.join := by
  rw [at?, Array.getD_eq_getD_getElem?]
  cases known[b]? with
  | none => rfl
  | some x => cases x <;> rfl

theorem ext_at? {known known' : Known} (hsize : known.size = known'.size)
    (h : ∀ b, at? known b = at? known' b) : known = known' := by
  apply Array.ext hsize
  intro b hb hb'
  have := h b
  rwa [at?_eq, at?_eq, Array.getElem?_eq_getElem hb, Array.getElem?_eq_getElem hb'] at this

/-- Of every boundary as much is known as before. -/
def Refines (known known' : Known) : Prop :=
  known.size = known'.size ∧ ∀ b, Narrower (at? known b) (at? known' b)

theorem Refines.refl (known : Known) : Refines known known := ⟨rfl, fun _ => .refl _⟩

theorem Refines.trans {known known' known'' : Known} (h : Refines known known')
    (h' : Refines known' known'') : Refines known known'' :=
  ⟨h.1.trans h'.1, fun b => (h.2 b).trans (h'.2 b)⟩

theorem Refines.antisymm {known known' : Known} (h : Refines known known')
    (h' : Refines known' known) : known = known' :=
  ext_at? h.1 fun b => (h.2 b).antisymm (h'.2 b)

theorem mem_foldl_inter {sets : List IdSet} {s : IdSet} {m : Nat} :
    m ∈ sets.foldl IdSet.inter s ↔ m ∈ s ∧ ∀ t ∈ sets, m ∈ t := by
  induction sets generalizing s with
  | nil => simp
  | cons t rest ih => simp [ih, IdSet.mem_inter, and_assoc]

theorem mem_foldl_union {sets : List IdSet} {s : IdSet} {m : Nat} :
    m ∈ sets.foldl IdSet.union s ↔ m ∈ s ∨ ∃ t ∈ sets, m ∈ t := by
  induction sets generalizing s with
  | nil => simp
  | cons t rest ih => simp [ih, IdSet.mem_union, or_assoc]

theorem common_eq_some {sets : List IdSet} {s : IdSet} (h : common sets = some s) :
    sets ≠ [] ∧ ∀ m, m ∈ s ↔ ∀ t ∈ sets, m ∈ t := by
  cases sets with
  | nil => contradiction
  | cons t rest =>
      obtain rfl : rest.foldl IdSet.inter t = s := Option.some.inj h
      exact ⟨by simp, fun m => by simp [mem_foldl_inter]⟩

theorem exists_common {sets : List IdSet} (h : sets ≠ []) : ∃ s, common sets = some s := by
  cases sets with
  | nil => contradiction
  | cons t rest => exact ⟨_, rfl⟩

variable {r : Reach} {known known' : Known} {b : Nat}

/-- A boundary from which a dynamic import leads to another. -/
def Parent (r : Reach) (p b : Nat) : Prop := p ∈ r.parents.getD b []

theorem loadedBehind_eq_some {p : Nat} {s : IdSet} :
    r.loadedBehind known p = some s ↔
      ∃ before, at? known p = some before ∧ before.union (r.closure p) = s := by
  simp [Reach.loadedBehind, at?]

theorem loadedBefore_eq_some {s : IdSet} (h : r.loadedBefore known b = some s) :
    (∃ p before, Parent r p b ∧ at? known p = some before) ∧
      ∀ m, m ∈ s ↔ ∀ p before, Parent r p b → at? known p = some before →
        m ∈ before ∨ m ∈ r.closure p := by
  obtain ⟨hne, hmem⟩ := common_eq_some h
  constructor
  · obtain ⟨t, ht⟩ := List.exists_mem_of_ne_nil _ hne
    obtain ⟨p, hp, hbehind⟩ := List.mem_filterMap.mp ht
    obtain ⟨before, hbefore, -⟩ := loadedBehind_eq_some.mp hbehind
    exact ⟨p, before, hp, hbefore⟩
  · intro m
    rw [hmem]
    constructor
    · intro hall p before hp hbefore
      exact IdSet.mem_union.mp (hall _ (List.mem_filterMap.mpr
        ⟨p, hp, loadedBehind_eq_some.mpr ⟨before, hbefore, rfl⟩⟩))
    · intro hall t ht
      obtain ⟨p, hp, hbehind⟩ := List.mem_filterMap.mp ht
      obtain ⟨before, hbefore, rfl⟩ := loadedBehind_eq_some.mp hbehind
      exact IdSet.mem_union.mpr (hall p before hp hbefore)

theorem exists_loadedBefore {p : Nat} {before : IdSet} (hp : Parent r p b)
    (hbefore : at? known p = some before) : ∃ s, r.loadedBefore known b = some s :=
  exists_common (List.ne_nil_of_mem (List.mem_filterMap.mpr
    ⟨p, hp, loadedBehind_eq_some.mpr ⟨before, hbefore, rfl⟩⟩))

theorem loadedBefore_mono (h : Refines known known') (b : Nat) :
    Narrower (r.loadedBefore known b) (r.loadedBefore known' b) := by
  intro t ht
  obtain ⟨⟨p, before', hp, hbefore'⟩, hmem'⟩ := loadedBefore_eq_some ht
  obtain ⟨before, hbefore, -⟩ := h.2 p before' hbefore'
  obtain ⟨s, hs⟩ := exists_loadedBefore hp hbefore
  refine ⟨s, hs, fun m hm => (hmem' m).mpr ?_⟩
  intro q before' hq hbefore'
  obtain ⟨before, hbefore, hsub⟩ := h.2 q before' hbefore'
  rcases ((loadedBefore_eq_some hs).2 m).mp hm q before hq hbefore with hin | hin
  · exact .inl (hsub m hin)
  · exact .inr hin

theorem size_learn : (r.learn known b).size = known.size := by
  rw [Reach.learn]
  split <;> simp

theorem at?_learn_of_ne {c : Nat} (h : b ≠ c) : at? (r.learn known b) c = at? known c := by
  rw [Reach.learn]
  split
  · simp [at?_eq, Array.getElem?_setIfInBounds_ne h]
  · rfl

theorem at?_learn_self (hb : b < known.size) :
    at? (r.learn known b) b = (r.loadedBefore known b).or (at? known b) := by
  rw [Reach.learn]
  split
  · next loaded h => simp [at?_eq, h, Array.getElem?_setIfInBounds_self_of_lt hb]
  · next h => simp [h]

theorem learn_of_size_le (hb : known.size ≤ b) : r.learn known b = known := by
  rw [Reach.learn]
  split
  · exact Array.setIfInBounds_eq_of_size_le hb
  · rfl

/-- What the parents of a boundary know by now is no wider than what is known of it. -/
def Declining (r : Reach) (known : Known) : Prop :=
  ∀ b, (∃ p, Parent r p b) → Narrower (r.loadedBefore known b) (at? known b)

theorem Declining.learn_refines (h : Declining r known) (b : Nat) :
    Refines (r.learn known b) known := by
  refine ⟨size_learn, fun c => ?_⟩
  by_cases hc : b = c
  · subst hc
    rcases Nat.lt_or_ge b known.size with hlt | hge
    · rw [at?_learn_self hlt]
      cases hloaded : r.loadedBefore known b with
      | none => exact .refl _
      | some s =>
          obtain ⟨⟨p, _, hp, -⟩, -⟩ := loadedBefore_eq_some hloaded
          have hbelow := h b ⟨p, hp⟩
          rwa [hloaded] at hbelow
    · rw [learn_of_size_le hge]
      exact .refl _
  · rw [at?_learn_of_ne hc]
    exact .refl _

theorem Declining.learn (h : Declining r known) (b : Nat) : Declining r (r.learn known b) := by
  intro c hc
  have hmono := loadedBefore_mono (r := r) (h.learn_refines b) c
  by_cases hbc : b = c
  · subst hbc
    rcases Nat.lt_or_ge b known.size with hlt | hge
    · rw [at?_learn_self hlt]
      cases hloaded : r.loadedBefore known b with
      | none => exact hmono.trans (h b hc)
      | some s => rwa [hloaded] at hmono
    · rw [learn_of_size_le hge]
      exact h b hc
  · rw [at?_learn_of_ne hbc]
    exact hmono.trans (h c hc)

theorem foldl_learn {P : Known → Prop} (hlearn : ∀ known b, P known → P (r.learn known b))
    (bs : List Nat) (h : P known) : P (bs.foldl r.learn known) := by
  induction bs generalizing known with
  | nil => exact h
  | cons b rest ih => exact ih (hlearn known b h)

theorem pass_induction {P : Known → Prop} (hlearn : ∀ known b, P known → P (r.learn known b))
    (h : P known) : P (r.pass known) :=
  foldl_learn hlearn _ h

theorem Declining.foldl_refines (h : Declining r known) (bs : List Nat) :
    Declining r (bs.foldl r.learn known) ∧ Refines (bs.foldl r.learn known) known :=
  foldl_learn (P := fun later => Declining r later ∧ Refines later known)
    (fun _ b hP => ⟨hP.1.learn b, (hP.1.learn_refines b).trans hP.2⟩) bs ⟨h, .refl known⟩

theorem Declining.pass (h : Declining r known) : Declining r (r.pass known) :=
  (h.foldl_refines _).1

theorem Declining.pass_refines (h : Declining r known) : Refines (r.pass known) known :=
  (h.foldl_refines _).2

theorem Declining.learn_eq_self (h : Declining r known) (hpass : r.pass known = known) (b : Nat) :
    r.learn known b = known := by
  rcases Nat.lt_or_ge b known.size with hlt | hge
  · obtain ⟨before, after, hsplit⟩ := List.append_of_mem (List.mem_range.mpr hlt)
    rw [Reach.pass, hsplit, List.foldl_append, List.foldl_cons] at hpass
    -- The pass goes down to where it began, so all that is known on the way is the same.
    obtain ⟨hdecl, hbefore⟩ := h.foldl_refines before
    have hafter := ((hdecl.learn b).foldl_refines after).2
    rw [hpass] at hafter
    have heq : before.foldl r.learn known = known :=
      hbefore.antisymm (hafter.trans (hdecl.learn_refines b))
    rw [heq] at hafter
    exact (h.learn_refines b).antisymm hafter
  · exact learn_of_size_le hge

/-- Nothing is known to be loaded that no boundary needs. -/
def Within (r : Reach) (known : Known) : Prop :=
  ∀ b s, at? known b = some s → ∀ m ∈ s, m ∈ r.needed

theorem mem_needed_of_mem_closure {p m : Nat} (h : m ∈ r.closure p) : m ∈ r.needed := by
  rw [Reach.needed, ← Array.foldl_toList, mem_foldl_union]
  rw [Reach.closure, Array.getD_eq_getD_getElem?] at h
  cases hp : r.closures[p]? with
  | none =>
      rw [hp] at h
      exact absurd h (IdSet.not_mem_empty m)
  | some closure =>
      rw [hp] at h
      exact .inr ⟨closure, Array.mem_toList_iff.mpr (Array.mem_of_getElem? hp), h⟩

theorem Within.loadedBefore (h : Within r known) {s : IdSet}
    (hs : r.loadedBefore known b = some s) : ∀ m ∈ s, m ∈ r.needed := by
  intro m hm
  obtain ⟨⟨p, before, hp, hbefore⟩, hmem⟩ := loadedBefore_eq_some hs
  rcases (hmem m).mp hm p before hp hbefore with hin | hin
  · exact h p before hbefore m hin
  · exact mem_needed_of_mem_closure hin

theorem at?_learn_eq_some {c : Nat} {s : IdSet} (h : at? (r.learn known b) c = some s) :
    r.loadedBefore known c = some s ∨ at? known c = some s := by
  by_cases hbc : b = c
  · subst hbc
    rcases Nat.lt_or_ge b known.size with hlt | hge
    · rw [at?_learn_self hlt, Option.or_eq_some_iff] at h
      exact h.imp_right And.right
    · rw [learn_of_size_le hge] at h
      exact .inr h
  · rw [at?_learn_of_ne hbc] at h
    exact .inr h

theorem Within.learn (known : Known) (b : Nat) (h : Within r known) :
    Within r (r.learn known b) := by
  intro c s hs
  rcases at?_learn_eq_some hs with hs | hs
  · exact h.loadedBefore hs
  · exact h c s hs

/-- How much can still be learned of one boundary. -/
def slack (r : Reach) : Option IdSet → Nat
  | none => r.needed.size + 1
  | some s => s.size

theorem Narrower.slack_le {x y : Option IdSet} (h : Narrower x y)
    (hx : ∀ s, x = some s → ∀ m ∈ s, m ∈ r.needed) : slack r x ≤ slack r y := by
  cases y with
  | none =>
      cases x with
      | none => exact le_rfl
      | some s => exact (size_le_of_subset (hx s rfl)).trans (Nat.le_succ _)
  | some t =>
      obtain ⟨s, rfl, hst⟩ := h t rfl
      exact size_le_of_subset hst

theorem Narrower.slack_lt {x y : Option IdSet} (h : Narrower x y) (hne : x ≠ y)
    (hx : ∀ s, x = some s → ∀ m ∈ s, m ∈ r.needed) : slack r x < slack r y := by
  cases y with
  | none =>
      cases x with
      | none => contradiction
      | some s => exact Nat.lt_succ_of_le (size_le_of_subset (hx s rfl))
  | some t =>
      obtain ⟨s, rfl, hst⟩ := h t rfl
      exact size_lt_of_subset hst fun heq => hne (congrArg some heq)

/-- How much can still be learned. -/
def totalSlack (r : Reach) (known : Known) : Nat :=
  ((List.range known.size).map fun b => slack r (at? known b)).sum

theorem Refines.totalSlack_lt (h : Refines known known') (hne : known ≠ known')
    (hwithin : Within r known) : totalSlack r known < totalSlack r known' := by
  rw [totalSlack, totalSlack, h.1]
  apply List.sum_lt_sum
  · exact fun b _ => (h.2 b).slack_le (hwithin b)
  · by_contra hall
    simp only [not_exists, not_and, Nat.not_lt] at hall
    refine hne (ext_at? h.1 fun b => ?_)
    rcases Nat.lt_or_ge b known'.size with hlt | hge
    · by_contra hb
      exact absurd ((h.2 b).slack_lt hb (hwithin b))
        (Nat.not_lt.mpr (hall b (List.mem_range.mpr hlt)))
    · simp [at?_eq, hge, h.1]

theorem totalSlack_le (hwithin : Within r known) :
    totalSlack r known ≤ known.size * (r.needed.size + 1) := by
  have hle : ∀ n ∈ (List.range known.size).map fun b => slack r (at? known b),
      n ≤ r.needed.size + 1 := by
    intro n hn
    obtain ⟨b, -, rfl⟩ := List.mem_map.mp hn
    have hwide : Narrower (at? known b) none := fun _ h => by simp at h
    exact hwide.slack_le (hwithin b)
  simpa [totalSlack] using List.sum_le_card_nsmul _ _ hle

/-- With a round for each thing that can be learned, the last pass changes nothing. -/
theorem settle_spec (rounds : Nat) (hdecl : Declining r known) (hwithin : Within r known)
    (hrounds : totalSlack r known ≤ rounds) :
    ∃ n, r.settle rounds known = r.pass^[n] known ∧
      r.pass (r.settle rounds known) = r.settle rounds known := by
  induction rounds generalizing known with
  | zero =>
      refine ⟨0, rfl, ?_⟩
      by_contra hne
      have hlt := hdecl.pass_refines.totalSlack_lt hne (pass_induction Within.learn hwithin)
      omega
  | succ rounds ih =>
      simp only [Reach.settle]
      split
      · next heq => exact ⟨0, rfl, heq⟩
      · next hne =>
          have hwithin' := pass_induction Within.learn hwithin
          have hlt := hdecl.pass_refines.totalSlack_lt hne hwithin'
          obtain ⟨n, hn, hfixed⟩ := ih hdecl.pass hwithin' (by omega)
          exact ⟨n + 1, by rw [hn, Function.iterate_succ_apply], hfixed⟩

theorem iterate_pass {P : Known → Prop} (hlearn : ∀ known b, P known → P (r.learn known b))
    (n : Nat) (h : P known) : P (r.pass^[n] known) := by
  induction n generalizing known with
  | zero => exact h
  | succ n ih => exact ih (pass_induction hlearn h)

end WebBundle.Proofs.AvailableModules
