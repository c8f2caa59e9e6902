import WebBundle.Proofs.ExtractionInvariant

namespace WebBundle.Proofs.InitialDraft

open WebBundle.Proofs.BoundaryMembers
open WebBundle.Proofs.DraftInvariant
open WebBundle.Proofs.Extraction
open WebBundle.Proofs.ExtractionInvariant
open WebBundle.Proofs.LoadList
open WebBundle.Proofs.ModuleReach
open WebBundle.Proofs.Reachability

def baseChunk (b : Boundary) (modules : IdSet) : DraftChunk :=
  { name := b.name, origin := originOf b, modules }

/-- A boundary with a base chunk, unless it has nothing to load. -/
inductive Based (first : Nat) (chunks : List DraftChunk) (b : Boundary) (modules : IdSet) :
    Boundary → Prop
  | empty : modules.isEmpty = true → Based first chunks b modules b
  | base {base : Nat} : modules.isEmpty = false → first ≤ base →
      chunks[base]? = some (baseChunk b modules) →
      Based first chunks b modules { b with base := some base }

theorem baseChunks_cons_of_isEmpty {b : Boundary} {modules : IdSet} (h : modules.isEmpty = true)
    (rest : List (Boundary × IdSet)) (chunks : List DraftChunk) :
    Draft.baseChunks ((b, modules) :: rest) chunks =
      (b :: (Draft.baseChunks rest chunks).1, (Draft.baseChunks rest chunks).2) := by
  rw [Draft.baseChunks, if_pos h]

theorem baseChunks_cons {b : Boundary} {modules : IdSet} (h : modules.isEmpty = false)
    (rest : List (Boundary × IdSet)) (chunks : List DraftChunk) :
    Draft.baseChunks ((b, modules) :: rest) chunks =
      ({ b with base := some chunks.length } ::
          (Draft.baseChunks rest (chunks ++ [baseChunk b modules])).1,
        (Draft.baseChunks rest (chunks ++ [baseChunk b modules])).2) := by
  rw [Draft.baseChunks, if_neg (by simp [h])]
  rfl

theorem baseChunks_prefix (pairs : List (Boundary × IdSet)) (chunks : List DraftChunk) :
    chunks <+: (Draft.baseChunks pairs chunks).2 := by
  induction pairs generalizing chunks with
  | nil => exact List.prefix_refl chunks
  | cons pair rest ih =>
      obtain ⟨b, modules⟩ := pair
      cases hempty : modules.isEmpty with
      | true =>
          rw [baseChunks_cons_of_isEmpty hempty]
          exact ih chunks
      | false =>
          rw [baseChunks_cons hempty]
          exact (List.prefix_append chunks _).trans (ih _)

theorem mem_baseChunks (pairs : List (Boundary × IdSet)) (chunks : List DraftChunk) :
    ∀ c ∈ (Draft.baseChunks pairs chunks).2, c ∈ chunks ∨ ∃ b modules, c = baseChunk b modules := by
  induction pairs generalizing chunks with
  | nil => exact fun c hc => .inl hc
  | cons pair rest ih =>
      obtain ⟨b, modules⟩ := pair
      cases hempty : modules.isEmpty with
      | true =>
          rw [baseChunks_cons_of_isEmpty hempty]
          exact ih chunks
      | false =>
          rw [baseChunks_cons hempty]
          intro c hc
          rcases ih _ c hc with hc | hc
          · rcases List.mem_append.mp hc with hc | hc
            · exact .inl hc
            · exact .inr ⟨b, modules, List.mem_singleton.mp hc⟩
          · exact .inr hc

theorem baseChunks_dependencies (pairs : List (Boundary × IdSet)) (chunks : List DraftChunk)
    (h : ∀ c ∈ chunks, c.dependencies = []) :
    ∀ c ∈ (Draft.baseChunks pairs chunks).2, c.dependencies = [] := by
  intro c hc
  rcases mem_baseChunks pairs chunks c hc with hold | ⟨b, modules, rfl⟩
  · exact h c hold
  · rfl

theorem length_baseChunks (pairs : List (Boundary × IdSet)) (chunks : List DraftChunk) :
    (Draft.baseChunks pairs chunks).1.length = pairs.length := by
  induction pairs generalizing chunks with
  | nil => rfl
  | cons pair rest ih =>
      obtain ⟨b, modules⟩ := pair
      cases hempty : modules.isEmpty with
      | true => rw [baseChunks_cons_of_isEmpty hempty, List.length_cons, List.length_cons, ih]
      | false => rw [baseChunks_cons hempty, List.length_cons, List.length_cons, ih]

theorem getElem?_baseChunks (pairs : List (Boundary × IdSet)) (chunks : List DraftChunk) {i : Nat}
    {b : Boundary} {modules : IdSet} (hi : pairs[i]? = some (b, modules)) :
    ∃ b', (Draft.baseChunks pairs chunks).1[i]? = some b' ∧
      Based chunks.length (Draft.baseChunks pairs chunks).2 b modules b' := by
  induction pairs generalizing chunks i with
  | nil => simp at hi
  | cons pair rest ih =>
      obtain ⟨first, members⟩ := pair
      cases hempty : members.isEmpty with
      | true =>
          rw [baseChunks_cons_of_isEmpty hempty]
          cases i with
          | zero =>
              obtain ⟨rfl, rfl⟩ := Prod.mk.inj (Option.some.inj hi)
              exact ⟨first, rfl, .empty hempty⟩
          | succ i => exact ih chunks hi
      | false =>
          rw [baseChunks_cons hempty]
          cases i with
          | zero =>
              obtain ⟨rfl, rfl⟩ := Prod.mk.inj (Option.some.inj hi)
              have hprefix := baseChunks_prefix rest (chunks ++ [baseChunk first members])
              refine ⟨{ first with base := some chunks.length }, rfl,
                .base hempty (Nat.le_refl _) ?_⟩
              rw [List.prefix_iff_getElem?.mp hprefix chunks.length (by simp)]
              simp
          | succ i =>
              obtain ⟨b', hb', hbased⟩ := ih (chunks ++ [baseChunk first members]) hi
              refine ⟨b', hb', ?_⟩
              cases hbased with
              | empty hempty' => exact .empty hempty'
              | base hempty' hle hchunk =>
                  rw [List.length_append] at hle
                  exact .base hempty' (Nat.le_of_succ_le hle) hchunk

theorem based_of_getElem? {pairs : List (Boundary × IdSet)} {chunks : List DraftChunk} {i : Nat}
    {b' : Boundary} (hi : (Draft.baseChunks pairs chunks).1[i]? = some b') :
    ∃ b modules, pairs[i]? = some (b, modules) ∧
      Based chunks.length (Draft.baseChunks pairs chunks).2 b modules b' := by
  have hlt : i < pairs.length := by
    rw [← length_baseChunks pairs chunks]
    exact (List.getElem?_eq_some_iff.mp hi).1
  obtain ⟨b'', hb'', hbased⟩ := getElem?_baseChunks pairs chunks (List.getElem?_eq_getElem hlt)
  obtain rfl : b' = b'' := Option.some.inj (hi.symm.trans hb'')
  exact ⟨_, _, List.getElem?_eq_getElem hlt, hbased⟩

variable {g : ModuleGraph} {pairs : List (Boundary × IdSet)} {chunks : List DraftChunk}

theorem le_base (hbare : ∀ pair ∈ pairs, pair.1.base = none) {b : Boundary} {base : Nat}
    (hb : b ∈ (Draft.baseChunks pairs chunks).1) (hbase : b.base = some base) :
    chunks.length ≤ base := by
  obtain ⟨i, hi⟩ := List.mem_iff_getElem?.mp hb
  obtain ⟨old, modules, hpair, hbased⟩ := based_of_getElem? hi
  cases hbased with
  | empty =>
      have hnone : b.base = none := hbare (b, modules) (List.mem_of_getElem? hpair)
      rw [hbase] at hnone
      exact absurd hnone (Option.some_ne_none base)
  | base _ hle _ => exact Option.some.inj hbase ▸ hle

theorem base_unique (hbare : ∀ pair ∈ pairs, pair.1.base = none) {i j base : Nat}
    {first second : Boundary} (hi : (Draft.baseChunks pairs chunks).1[i]? = some first)
    (hj : (Draft.baseChunks pairs chunks).1[j]? = some second) (hfirst : first.base = some base)
    (hsecond : second.base = some base) : i = j := by
  induction pairs generalizing chunks i j with
  | nil => simp [Draft.baseChunks] at hi
  | cons pair rest ih =>
      obtain ⟨b, modules⟩ := pair
      have hnone : b.base = none := hbare (b, modules) (by simp)
      have hrest : ∀ pair ∈ rest, pair.1.base = none := fun pair hpair =>
        hbare pair (List.mem_cons_of_mem _ hpair)
      cases hempty : modules.isEmpty with
      | true =>
          rw [baseChunks_cons_of_isEmpty hempty] at hi hj
          cases i with
          | zero =>
              obtain rfl : b = first := Option.some.inj hi
              simp [hnone] at hfirst
          | succ i =>
              cases j with
              | zero =>
                  obtain rfl : b = second := Option.some.inj hj
                  simp [hnone] at hsecond
              | succ j => exact congrArg Nat.succ (ih hrest hi hj)
      | false =>
          rw [baseChunks_cons hempty] at hi hj
          -- The base chunks of later boundaries come behind that of this one.
          have hbehind : ∀ (k : Nat) (b' : Boundary),
              (Draft.baseChunks rest (chunks ++ [baseChunk b modules])).1[k]? = some b' →
              b'.base ≠ some chunks.length := by
            intro k b' hk hbase
            have hle := le_base hrest (List.mem_of_getElem? hk) hbase
            rw [List.length_append] at hle
            exact absurd hle (Nat.not_succ_le_self _)
          cases i with
          | zero =>
              obtain rfl : { b with base := some chunks.length } = first := Option.some.inj hi
              cases j with
              | zero => rfl
              | succ j => exact absurd (hsecond.trans hfirst.symm) (hbehind j second hj)
          | succ i =>
              cases j with
              | zero =>
                  obtain rfl : { b with base := some chunks.length } = second :=
                    Option.some.inj hj
                  exact absurd (hfirst.trans hsecond.symm) (hbehind i first hi)
              | succ j => exact congrArg Nat.succ (ih hrest hi hj)

theorem exists_base (pairs : List (Boundary × IdSet)) (chunks : List DraftChunk) {chunk : Nat}
    (hle : chunks.length ≤ chunk) (hlt : chunk < (Draft.baseChunks pairs chunks).2.length) :
    ∃ b ∈ (Draft.baseChunks pairs chunks).1, b.base = some chunk := by
  induction pairs generalizing chunks with
  | nil => exact absurd hlt (Nat.not_lt_of_le hle)
  | cons pair rest ih =>
      obtain ⟨b, modules⟩ := pair
      cases hempty : modules.isEmpty with
      | true =>
          rw [baseChunks_cons_of_isEmpty hempty] at hlt ⊢
          obtain ⟨b', hb', hbase⟩ := ih chunks hle hlt
          exact ⟨b', List.mem_cons_of_mem _ hb', hbase⟩
      | false =>
          rw [baseChunks_cons hempty] at hlt ⊢
          rcases Nat.eq_or_lt_of_le hle with rfl | hlater
          · exact ⟨_, List.mem_cons_self, rfl⟩
          · obtain ⟨b', hb', hbase⟩ := ih _ (by rwa [List.length_append]) hlt
            exact ⟨b', List.mem_cons_of_mem _ hb', hbase⟩

theorem length_boundaries_ofGraph :
    (Draft.ofGraph g).boundaries.length = (Boundary.ofGraph g).length := by
  have hlength := length_baseChunks
    ((Boundary.ofGraph g).zip (Boundary.members g (Boundary.ofGraph g))) []
  rwa [List.length_zip, length_members, Nat.min_self] at hlength

theorem getElem?_boundaries_ofGraph {i : Nat} {b' : Boundary}
    (hi : (Draft.ofGraph g).boundaries[i]? = some b') :
    ∃ b modules, (Boundary.ofGraph g)[i]? = some b ∧
      (Boundary.members g (Boundary.ofGraph g))[i]? = some modules ∧
      Based 0 (Draft.ofGraph g).chunks b modules b' := by
  obtain ⟨b, modules, hpair, hbased⟩ := based_of_getElem? hi
  obtain ⟨hb, hmodules⟩ := List.getElem?_zip_eq_some.mp hpair
  exact ⟨b, modules, hb, hmodules, hbased⟩

theorem Based.bare_eq {b b' : Boundary} {first : Nat} (h : Based first chunks b modules b') :
    bare b' = bare b := by
  cases h <;> rfl

theorem Based.loads_eq {b b' : Boundary} {first : Nat} (h : Based first chunks b modules b') :
    b'.loads = b.loads := by
  cases h <;> rfl

theorem loads_ofGraph {b : Boundary} (hb : b ∈ (Draft.ofGraph g).boundaries) : b.loads = [] := by
  obtain ⟨i, hi⟩ := List.mem_iff_getElem?.mp hb
  obtain ⟨old, _, hold, -, hbased⟩ := getElem?_boundaries_ofGraph hi
  rw [hbased.loads_eq, ← bare_ofGraph (List.mem_of_getElem? hold)]
  rfl

theorem needs_ofGraph (chunk : Nat) : needsOf (Draft.ofGraph g).chunks chunk = [] := by
  cases hc : (Draft.ofGraph g).chunks[chunk]? with
  | none => simp [needsOf, hc]
  | some c =>
      rw [needsOf_of_getElem? hc]
      exact baseChunks_dependencies _ [] (by simp) c (List.mem_of_getElem? hc)

theorem wellLoaded_nil {d : Draft} : WellLoaded d [] where
  lt := by simp
  free := by simp
  nodup := List.nodup_nil
  needsFirst := needsFirst_nil

/-- The base chunk of a boundary in the draft of a graph holds what the boundary has to load
itself. -/
theorem base_ofGraph {i base : Nat} {b' : Boundary}
    (hi : (Draft.ofGraph g).boundaries[i]? = some b') (hbase : b'.base = some base) :
    ∃ modules, (Boundary.members g (Boundary.ofGraph g))[i]? = some modules ∧
      (Draft.ofGraph g).chunks[base]? = some (baseChunk b' modules) := by
  obtain ⟨b, modules, hb, hmodules, hbased⟩ := getElem?_boundaries_ofGraph hi
  refine ⟨modules, hmodules, ?_⟩
  cases hbased with
  | empty =>
      rw [← bare_ofGraph (List.mem_of_getElem? hb)] at hbase
      exact absurd hbase (Option.some_ne_none base).symm
  | base _ _ hchunk => exact Option.some.inj hbase ▸ hchunk

theorem exists_base_ofGraph {i : Nat} {b' : Boundary} {modules : IdSet} {m : ModuleId}
    (hi : (Draft.ofGraph g).boundaries[i]? = some b')
    (hmodules : (Boundary.members g (Boundary.ofGraph g))[i]? = some modules) (hm : m ∈ modules) :
    ∃ base, b'.base = some base ∧ (Draft.ofGraph g).modulesOf base = modules := by
  obtain ⟨b, modules', hb, hmodules', hbased⟩ := getElem?_boundaries_ofGraph hi
  obtain rfl : modules = modules' := Option.some.inj (hmodules.symm.trans hmodules')
  cases hbased with
  | empty hempty => exact absurd hm (isEmpty_iff.mp hempty m)
  | base _ _ hchunk => exact ⟨_, rfl, modulesOf_of_getElem? hchunk⟩

theorem not_free_ofGraph {chunk : Nat} {m : ModuleId}
    (hm : m ∈ (Draft.ofGraph g).modulesOf chunk) : ¬ Free (Draft.ofGraph g) chunk := by
  obtain ⟨c, hc, -⟩ := exists_chunk_of_mem hm
  obtain ⟨b, hb, hbase⟩ :=
    exists_base _ [] (Nat.zero_le chunk) (List.getElem?_eq_some_iff.mp hc).1
  exact fun hfree => hfree b hb hbase

theorem map_bare_ofGraph : (Draft.ofGraph g).boundaries.map bare = Boundary.ofGraph g := by
  apply List.ext_getElem?
  intro i
  rw [List.getElem?_map]
  cases hi : (Draft.ofGraph g).boundaries[i]? with
  | none =>
      rw [List.getElem?_eq_none_iff, length_boundaries_ofGraph] at hi
      exact (List.getElem?_eq_none hi).symm
  | some b' =>
      obtain ⟨b, _, hb, -, hbased⟩ := getElem?_boundaries_ofGraph hi
      rw [hb, Option.map_some, hbased.bare_eq, bare_ofGraph (List.mem_of_getElem? hb)]

theorem sound_ofGraph : Sound (Draft.ofGraph g) where
  base_chunk := by
    intro b hb base hbase
    obtain ⟨i, hi⟩ := List.mem_iff_getElem?.mp hb
    obtain ⟨modules, -, hchunk⟩ := base_ofGraph hi hbase
    exact ⟨_, hchunk, rfl⟩
  base_unique := by
    intro i j base hi hj
    obtain ⟨first, hfirst, hbase⟩ := baseOf_eq_some.mp hi
    obtain ⟨second, hsecond, hbase'⟩ := baseOf_eq_some.mp hj
    refine base_unique ?_ hfirst hsecond hbase hbase'
    intro pair hpair
    have hb : pair.1 ∈ Boundary.ofGraph g := (List.of_mem_zip hpair).1
    rw [← bare_ofGraph hb]
    rfl
  loads := by
    intro b hb
    rw [loads_ofGraph hb]
    exact wellLoaded_nil
  needs := by
    intro chunk
    rw [needs_ofGraph]
    exact wellLoaded_nil
  former_base := by
    intro chunk c hc hdependencies
    rw [← needsOf_of_getElem? hc, needs_ofGraph] at hdependencies
    exact absurd rfl hdependencies

theorem invariant_ofGraph : Invariant g (Draft.ofGraph g) where
  sound := sound_ofGraph
  boundaries := map_bare_ofGraph
  entry := by
    intro b' hb' hinitial
    obtain ⟨i, hi⟩ := List.mem_iff_getElem?.mp hb'
    obtain ⟨b, modules, hb, hmodules, hbased⟩ := getElem?_boundaries_ofGraph hi
    have hbare : b = bare b' := by rw [hbased.bare_eq, bare_ofGraph (List.mem_of_getElem? hb)]
    subst hbare
    have hroot : b'.root ∈ modules := by
      refine (mem_members_iff hb hmodules).mpr
        ⟨mem_staticClosure_self b'.root, fun _ => ?_⟩
      exact ⟨i, ⟨bare b', hb, hinitial⟩, .refl⟩
    obtain ⟨base, hbase, rfl⟩ := exists_base_ofGraph hi hmodules hroot
    exact ⟨base, hbase, hroot⟩
  base_subset := by
    intro b' hb' base hbase m hm
    obtain ⟨i, hi⟩ := List.mem_iff_getElem?.mp hb'
    obtain ⟨modules, hmodules, hchunk⟩ := base_ofGraph hi hbase
    rw [modulesOf_of_getElem? hchunk] at hm
    obtain ⟨b, _, hb, -, hbased⟩ := getElem?_boundaries_ofGraph hi
    have hbare : b = bare b' := by rw [hbased.bare_eq, bare_ofGraph (List.mem_of_getElem? hb)]
    subst hbare
    exact ((mem_members_iff hb hmodules).mp hm).1
  provides := by
    intro i modules hmodules m hm
    have hlt : i < (Draft.ofGraph g).boundaries.length := by
      rw [length_boundaries_ofGraph, ← length_members g]
      exact (List.getElem?_eq_some_iff.mp hmodules).1
    have hi := List.getElem?_eq_getElem hlt
    obtain ⟨base, hbase, rfl⟩ := exists_base_ofGraph hi hmodules hm
    exact ⟨_, hi, base, .inr hbase, hm⟩

end WebBundle.Proofs.InitialDraft
