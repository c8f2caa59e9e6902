import WebBundle.Proofs.AvailableModules
import WebBundle.Proofs.ModuleReach

namespace WebBundle.Proofs.BoundaryMembers

open Relation
open WebBundle.Boundary (Known Reach available)
open WebBundle.Proofs.ModuleReach
open WebBundle.Proofs.AvailableModules

/-- A boundary before it loads anything. -/
def bare (b : Boundary) : Boundary := { b with base := none, loads := [] }

/-- Where a boundary is, and whether it is an entry. -/
def site (b : Boundary) : ModuleId × Bool := (b.root, b.initial)

theorem sites_addAll (initial : Bool) (wanted : List (String × ModuleId)) (done : List Boundary) :
    (Boundary.addAll initial wanted done).map site =
      done.map site ++ wanted.map fun w => (w.2, initial) := by
  induction wanted generalizing done with
  | nil => simp [Boundary.addAll]
  | cons w rest ih => simp [Boundary.addAll, ih, site]

theorem bare_addAll {initial : Bool} {wanted : List (String × ModuleId)} {done : List Boundary}
    (h : ∀ b ∈ done, bare b = b) : ∀ b ∈ Boundary.addAll initial wanted done, bare b = b := by
  induction wanted generalizing done with
  | nil => exact h
  | cons w rest ih =>
      apply ih
      intro b hb
      rcases List.mem_append.mp hb with hb | hb
      · exact h b hb
      · rw [List.mem_singleton.mp hb]
        rfl

variable {g : ModuleGraph}

theorem sites_ofGraph (g : ModuleGraph) :
    (Boundary.ofGraph g).map site =
      (g.entries.map fun e => (e.2, true)) ++ g.dynamicTargets.map fun root => (root, false) := by
  simp [Boundary.ofGraph, sites_addAll]

theorem bare_ofGraph {b : Boundary} (hb : b ∈ Boundary.ofGraph g) : bare b = b :=
  bare_addAll (bare_addAll (by simp)) b hb

theorem site_mem_ofGraph {b : Boundary} (hb : b ∈ Boundary.ofGraph g) :
    (b.initial = true ∧ ∃ e ∈ g.entries, e.2 = b.root) ∨
      (b.initial = false ∧ b.root ∈ g.dynamicTargets) := by
  have hsite : site b ∈ (Boundary.ofGraph g).map site := List.mem_map_of_mem hb
  rw [sites_ofGraph, List.mem_append, List.mem_map, List.mem_map] at hsite
  rcases hsite with ⟨e, he, heq⟩ | ⟨root, hroot, heq⟩
  · obtain ⟨hroot, hinitial⟩ := Prod.mk.inj heq
    exact .inl ⟨hinitial.symm, e, he, hroot⟩
  · obtain ⟨rfl, hinitial⟩ := Prod.mk.inj heq
    exact .inr ⟨hinitial.symm, hroot⟩

theorem root_lt_of_mem_ofGraph (hg : WellFormed g) {b : Boundary} (hb : b ∈ Boundary.ofGraph g) :
    b.root < g.size := by
  rcases site_mem_ofGraph hb with ⟨-, e, he, heq⟩ | ⟨-, hroot⟩
  · exact heq ▸ hg.entry_lt e he
  · obtain ⟨importer, himport⟩ := mem_dynamicTargets_iff.mp hroot
    exact hg.import_lt himport

theorem isEntry_of_mem_ofGraph {b : Boundary} (hb : b ∈ Boundary.ofGraph g)
    (hinitial : b.initial = true) : g.isEntry b.root = true := by
  rcases site_mem_ofGraph hb with ⟨-, e, he, heq⟩ | ⟨hfalse, -⟩
  · exact List.any_eq_true.mpr ⟨e, he, by simp [heq]⟩
  · simp [hinitial] at hfalse

variable {boundaries : List Boundary}

/-- The number of a boundary that is an entry. -/
def EntryAt (boundaries : List Boundary) (b : Nat) : Prop :=
  ∃ boundary, boundaries[b]? = some boundary ∧ boundary.initial = true

/-- A way from one boundary to another: a dynamic import in the static closure of the one has
the root of the other as its target. -/
def Way (g : ModuleGraph) (boundaries : List Boundary) (source target : Nat) : Prop :=
  ∃ first second, boundaries[source]? = some first ∧ boundaries[target]? = some second ∧
    second.initial = false ∧
    ∃ importer ∈ g.staticClosure first.root, Imports g .dynamic importer second.root

/-- A way on which a module is not loaded before its last boundary. -/
def WayWithout (g : ModuleGraph) (boundaries : List Boundary) (m : ModuleId)
    (source target : Nat) : Prop :=
  Way g boundaries source target ∧
    ∀ first, boundaries[source]? = some first → m ∉ g.staticClosure first.root

theorem closure_reach {b : Nat} {boundary : Boundary} (hb : boundaries[b]? = some boundary) :
    (Reach.of g boundaries).closure b = g.staticClosure boundary.root := by
  simp [Reach.closure, Reach.of, Array.getD_eq_getD_getElem?, hb]

theorem mem_leadingTo {targets : List IdSet} {root : ModuleId} {p : Nat} :
    p ∈ Reach.leadingTo targets root ↔ ∃ reached, targets[p]? = some reached ∧ root ∈ reached := by
  simp only [Reach.leadingTo, List.mem_filterMap, Prod.exists, List.mem_zipIdx_iff_getElem?]
  constructor
  · rintro ⟨reached, other, hother, hp⟩
    split at hp
    · next hroot =>
        cases hp
        exact ⟨reached, hother, hroot⟩
    · simp at hp
  · rintro ⟨reached, hp, hroot⟩
    exact ⟨reached, p, hp, if_pos hroot⟩

theorem parent_iff {p b : Nat} : Parent (Reach.of g boundaries) p b ↔ Way g boundaries p b := by
  simp only [Parent, Reach.of, Array.getD_eq_getD_getElem?, List.getElem?_toArray,
    List.getElem?_map, Way]
  cases hb : boundaries[b]? with
  | none => simp
  | some second =>
      cases hinitial : second.initial with
      | true => simp [hinitial]
      | false =>
          cases hp : boundaries[p]? with
          | none => simp [hinitial, mem_leadingTo, hp]
          | some first =>
              simp [hinitial, mem_leadingTo, hp, IdSet.mem_ofList, IdSet.mem_toList, next_ofKind,
                Imports]

theorem Way.target_lt {source target : Nat} (h : Way g boundaries source target) :
    target < boundaries.length := by
  obtain ⟨_, second, _, hsecond, _⟩ := h
  exact (List.getElem?_eq_some_iff.mp hsecond).1

theorem not_way_entry {source target : Nat} (h : EntryAt boundaries target) :
    ¬ Way g boundaries source target := by
  rintro ⟨_, second, _, hsecond, hinitial, _⟩
  obtain ⟨boundary, hboundary, hentry⟩ := h
  obtain rfl : boundary = second := Option.some.inj (hboundary.symm.trans hsecond)
  simp [hentry] at hinitial

/-- A boundary to which a way leads from an entry. -/
def Reached (g : ModuleGraph) (boundaries : List Boundary) (b : Nat) : Prop :=
  ∃ entry, EntryAt boundaries entry ∧ ReflTransGen (Way g boundaries) entry b

/-- A boundary to which a way leads from an entry that does not load a module before. -/
def ReachedWithout (g : ModuleGraph) (boundaries : List Boundary) (m : ModuleId)
    (b : Nat) : Prop :=
  ∃ entry, EntryAt boundaries entry ∧ ReflTransGen (WayWithout g boundaries m) entry b

theorem ReachedWithout.reached {m : ModuleId} {b : Nat} (h : ReachedWithout g boundaries m b) :
    Reached g boundaries b := by
  obtain ⟨entry, hentry, hway⟩ := h
  exact ⟨entry, hentry, hway.lift id fun _ _ h => h.1⟩

theorem wayWithout_iff {m : ModuleId} {p b : Nat} :
    WayWithout g boundaries m p b ↔
      Way g boundaries p b ∧ m ∉ (Reach.of g boundaries).closure p := by
  refine and_congr_right fun hway => ?_
  obtain ⟨first, _, hfirst, -⟩ := hway
  simp [closure_reach hfirst, hfirst]

theorem at?_start {b : Nat} :
    at? (Known.start boundaries) b =
      boundaries[b]?.bind fun boundary => if boundary.initial then some ∅ else none := by
  rw [at?_eq, Known.start, List.getElem?_toArray, List.getElem?_map]
  cases boundaries[b]? <;> rfl

theorem declining_start : Declining (Reach.of g boundaries) (Known.start boundaries) := by
  rintro b ⟨p, hp⟩
  obtain ⟨_, second, _, hsecond, hinitial, _⟩ := parent_iff.mp hp
  intro t ht
  simp [at?_start, hsecond, hinitial] at ht

theorem within_start (r : Reach) : Within r (Known.start boundaries) := by
  intro b s hs m hm
  rw [at?_start, Option.bind_eq_some_iff] at hs
  obtain ⟨boundary, -, hs⟩ := hs
  split at hs
  · cases hs
    exact absurd hm (IdSet.not_mem_empty m)
  · simp at hs

/-- What is known is true: a boundary of which something is known is reached, and for each module
that is not known to be loaded before there is a way without it. -/
def Sound (g : ModuleGraph) (boundaries : List Boundary) (known : Known) : Prop :=
  ∀ b s, at? known b = some s →
    Reached g boundaries b ∧ ∀ m, m ∉ s → ReachedWithout g boundaries m b

theorem sound_start : Sound g boundaries (Known.start boundaries) := by
  intro b s hs
  rw [at?_start, Option.bind_eq_some_iff] at hs
  obtain ⟨boundary, hb, hs⟩ := hs
  split at hs
  · next hinitial =>
      have hentry : EntryAt boundaries b := ⟨boundary, hb, hinitial⟩
      exact ⟨⟨b, hentry, .refl⟩, fun m _ => ⟨b, hentry, .refl⟩⟩
  · simp at hs

theorem Sound.learn (known : Known) (b : Nat) (h : Sound g boundaries known) :
    Sound g boundaries ((Reach.of g boundaries).learn known b) := by
  intro c s hs
  rcases at?_learn_eq_some hs with hs | hs
  · obtain ⟨⟨p, before, hp, hbefore⟩, hmem⟩ := loadedBefore_eq_some hs
    constructor
    · obtain ⟨entry, hentry, hway⟩ := (h p before hbefore).1
      exact ⟨entry, hentry, hway.tail (parent_iff.mp hp)⟩
    · intro m hm
      simp only [hmem, not_forall, not_or] at hm
      obtain ⟨q, before, hq, hbefore, hout, hclosure⟩ := hm
      obtain ⟨entry, hentry, hway⟩ := (h q before hbefore).2 m hout
      exact ⟨entry, hentry, hway.tail (wayWithout_iff.mpr ⟨parent_iff.mp hq, hclosure⟩)⟩
  · exact h c s hs

/-- Of the entries it stays known that nothing is loaded before them. -/
def EntriesBare (boundaries : List Boundary) (known : Known) : Prop :=
  ∀ b, EntryAt boundaries b → at? known b = some ∅

theorem entriesBare_start : EntriesBare boundaries (Known.start boundaries) := by
  rintro b ⟨boundary, hb, hinitial⟩
  simp [at?_start, hb, hinitial]

theorem EntriesBare.learn (known : Known) (b : Nat) (h : EntriesBare boundaries known) :
    EntriesBare boundaries ((Reach.of g boundaries).learn known b) := by
  intro c hc
  by_cases hbc : b = c
  · subst hbc
    cases hloaded : (Reach.of g boundaries).loadedBefore known b with
    | none =>
        rw [Reach.learn, hloaded]
        exact h b hc
    | some s =>
        obtain ⟨⟨p, _, hp, -⟩, -⟩ := loadedBefore_eq_some hloaded
        exact absurd (parent_iff.mp hp) (not_way_entry hc)
  · rw [at?_learn_of_ne hbc]
    exact h c hc

/-- The passes end in what no further pass changes. -/
theorem available_spec (g : ModuleGraph) (boundaries : List Boundary) :
    (∃ n, available g boundaries = (Reach.of g boundaries).pass^[n] (Known.start boundaries)) ∧
      (Reach.of g boundaries).pass (available g boundaries) = available g boundaries := by
  have hsize : (Known.start boundaries).size = (Reach.of g boundaries).closures.size := by
    simp [Known.start, Reach.of]
  have hslack : totalSlack (Reach.of g boundaries) (Known.start boundaries) ≤
      (Reach.of g boundaries).rounds := by
    rw [Reach.rounds, ← hsize]
    exact totalSlack_le (within_start _)
  obtain ⟨n, hn, hfixed⟩ := settle_spec (Reach.of g boundaries).rounds declining_start
    (within_start _) hslack
  exact ⟨⟨n, hn⟩, hfixed⟩

theorem available_induction {P : Known → Prop}
    (hlearn : ∀ known b, P known → P ((Reach.of g boundaries).learn known b))
    (hstart : P (Known.start boundaries)) : P (available g boundaries) := by
  obtain ⟨⟨n, hn⟩, -⟩ := available_spec g boundaries
  rw [hn]
  exact iterate_pass hlearn n hstart

theorem learn_available (b : Nat) :
    (Reach.of g boundaries).learn (available g boundaries) b = available g boundaries :=
  Declining.learn_eq_self
    (available_induction (fun _ b h => Declining.learn h b) declining_start)
    (available_spec g boundaries).2 b

theorem size_available : (available g boundaries).size = boundaries.length :=
  available_induction (P := fun known => known.size = boundaries.length)
    (fun _ _ h => size_learn.trans h) (by simp [Known.start])

theorem at?_available_of_way {p b : Nat} {before : IdSet} (hway : Way g boundaries p b)
    (hbefore : at? (available g boundaries) p = some before) :
    ∃ s, at? (available g boundaries) b = some s ∧
      ∀ m ∈ s, m ∈ before ∨ m ∈ (Reach.of g boundaries).closure p := by
  have hp := parent_iff.mpr hway
  obtain ⟨s, hs⟩ := exists_loadedBefore hp hbefore
  have hlt : b < (available g boundaries).size := hway.target_lt.trans_eq size_available.symm
  have hlearn := at?_learn_self (r := Reach.of g boundaries) hlt
  rw [learn_available, hs] at hlearn
  exact ⟨s, hlearn, fun m hm => ((loadedBefore_eq_some hs).2 m).mp hm p before hp hbefore⟩

theorem at?_available_of_entry {b : Nat} (h : EntryAt boundaries b) :
    at? (available g boundaries) b = some ∅ :=
  available_induction EntriesBare.learn entriesBare_start b h

theorem exists_available {b : Nat} (h : Reached g boundaries b) :
    ∃ s, at? (available g boundaries) b = some s := by
  obtain ⟨entry, hentry, hway⟩ := h
  induction hway with
  | refl => exact ⟨∅, at?_available_of_entry hentry⟩
  | tail _ hstep ih =>
      obtain ⟨before, hbefore⟩ := ih
      obtain ⟨s, hs, -⟩ := at?_available_of_way hstep hbefore
      exact ⟨s, hs⟩

theorem not_mem_available {b : Nat} {m : ModuleId} {s : IdSet}
    (h : ReachedWithout g boundaries m b) (hs : at? (available g boundaries) b = some s) :
    m ∉ s := by
  obtain ⟨entry, hentry, hway⟩ := h
  induction hway generalizing s with
  | refl =>
      rw [at?_available_of_entry hentry] at hs
      cases hs
      exact IdSet.not_mem_empty m
  | tail hbefore hstep ih =>
      obtain ⟨hway, hclosure⟩ := wayWithout_iff.mp hstep
      obtain ⟨before, hknown⟩ := exists_available (ReachedWithout.reached ⟨entry, hentry, hbefore⟩)
      obtain ⟨s', hs', hsub⟩ := at?_available_of_way hway hknown
      obtain rfl : s' = s := Option.some.inj (hs'.symm.trans hs)
      exact fun hm => (hsub m hm).elim (ih hknown) hclosure

theorem at?_available_eq_some {b : Nat} {s : IdSet} (hs : at? (available g boundaries) b = some s) :
    Reached g boundaries b ∧ ∀ m, m ∉ s ↔ ReachedWithout g boundaries m b := by
  obtain ⟨hreached, hout⟩ := available_induction Sound.learn sound_start b s hs
  exact ⟨hreached, fun m => ⟨hout m, fun h => not_mem_available h hs⟩⟩

theorem length_members (g : ModuleGraph) (boundaries : List Boundary) :
    (Boundary.members g boundaries).length = boundaries.length := by
  simp [Boundary.members]

theorem getElem?_members {b : Nat} {boundary : Boundary} (hb : boundaries[b]? = some boundary) :
    (Boundary.members g boundaries)[b]? =
      some ((at? (available g boundaries) b).elim (g.staticClosure boundary.root)
        (g.staticClosure boundary.root).diff) := by
  simp [Boundary.members, at?, hb]

/-- A boundary has to load what its closure has and what some way to it has not loaded. -/
theorem mem_members_iff {b : Nat} {boundary : Boundary} {modules : IdSet}
    (hb : boundaries[b]? = some boundary)
    (hmodules : (Boundary.members g boundaries)[b]? = some modules) {m : ModuleId} :
    m ∈ modules ↔ m ∈ g.staticClosure boundary.root ∧
      (Reached g boundaries b → ReachedWithout g boundaries m b) := by
  obtain rfl := Option.some.inj ((getElem?_members hb).symm.trans hmodules)
  cases hs : at? (available g boundaries) b with
  | none =>
      have hunreached : ¬ Reached g boundaries b := by
        intro h
        obtain ⟨s, hs'⟩ := exists_available h
        simp [hs] at hs'
      simp [hunreached]
  | some s =>
      obtain ⟨hreached, hout⟩ := at?_available_eq_some hs
      simp [IdSet.mem_diff, hout, hreached]

end WebBundle.Proofs.BoundaryMembers
