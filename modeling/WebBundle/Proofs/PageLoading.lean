import WebBundle.Proofs.ChunkOrder

namespace WebBundle.Proofs.PageLoading

open Relation
open WebBundle.Proofs.BoundaryMembers
open WebBundle.Proofs.ChunkNumbering
open WebBundle.Proofs.ChunkOrder
open WebBundle.Proofs.DraftInvariant
open WebBundle.Proofs.ExtractionInvariant
open WebBundle.Proofs.InitialDraft
open WebBundle.Proofs.ModuleReach
open WebBundle.Proofs.SplittingRun

/-- What a page has loaded. -/
structure Page where
  groups : List ChunkGroup
  chunks : List ChunkId

namespace Page

def enter (group : ChunkGroup) : Page := ⟨[group], group.chunks⟩

def load (page : Page) (group : ChunkGroup) : Page :=
  ⟨group :: page.groups, page.chunks ++ group.chunks⟩

end Page

/-- The pages of a chunk graph: a page loads the group of an entry, and then groups of modules
that a module behind a loaded boundary imports on demand. -/
inductive Reachable (g : ModuleGraph) (cg : ChunkGraph) : Page → Prop
  | enter {group : ChunkGroup} : group ∈ cg.entrypoints → Reachable g cg (Page.enter group)
  | load {page : Page} {source group : ChunkGroup} {importer target : ModuleId} :
      Reachable g cg page → source ∈ page.groups → importer ∈ g.staticClosure source.root →
      Imports g .dynamic importer target → cg.asyncGroup target = some group →
      Reachable g cg (page.load group)

variable {s : Splitting} {g : ModuleGraph} {d : Draft} {cg : ChunkGraph} {page : Page}
variable {group : ChunkGroup} {m target : ModuleId} {i : Nat}

/-- A group is what a boundary loads. -/
structure GroupAt (g : ModuleGraph) (d : Draft) (i : Nat) (group : ChunkGroup) : Prop where
  draft : ∃ b, d.boundaries[i]? = some b ∧ group = Draft.groupOf d.kept b
  boundary : ∃ b, (Boundary.ofGraph g)[i]? = some b ∧ b.root = group.root ∧
    b.initial = group.initial

theorem exists_groupAt (h : Invariant g d) (hcg : Built g d cg) (hgroup : group ∈ groups cg) :
    ∃ i, GroupAt g d i group := by
  obtain ⟨i, hi⟩ := List.mem_iff_getElem?.mp hgroup
  rw [groups, hcg.groups, List.getElem?_map, Option.map_eq_some_iff] at hi
  obtain ⟨b, hb, rfl⟩ := hi
  refine ⟨i, ⟨b, hb, rfl⟩, bare b, ?_, rfl, rfl⟩
  rw [← h.boundaries, List.getElem?_map, hb, Option.map_some]

theorem mem_groups_of_asyncGroup (h : cg.asyncGroup target = some group) :
    group ∈ cg.asyncGroups ∧ group.root = target :=
  ⟨List.mem_of_find?_eq_some h, by simpa using List.find?_some h⟩

theorem exists_asyncGroup (hcg : Built g d cg) {importer : ModuleId}
    (h : Imports g .dynamic importer target) : ∃ group, cg.asyncGroup target = some group := by
  have htarget : target ∈ cg.asyncGroups.map ChunkGroup.root :=
    hcg.async_roots ▸ mem_dynamicTargets_iff.mpr ⟨importer, h⟩
  obtain ⟨group, hgroup, hroot⟩ := List.mem_map.mp htarget
  cases hfound : cg.asyncGroup target with
  | none =>
      have hnone := List.find?_eq_none.mp hfound group hgroup
      simp [hroot] at hnone
  | some found => exact ⟨found, rfl⟩

theorem way_of_groupAt (hcg : Built g d cg) {source : ChunkGroup} {importer : ModuleId} {j : Nat}
    (hsource : GroupAt g d i source) (htarget : GroupAt g d j group)
    (himporter : importer ∈ g.staticClosure source.root)
    (himport : Imports g .dynamic importer target)
    (hgroup : cg.asyncGroup target = some group) : Way g (Boundary.ofGraph g) i j := by
  obtain ⟨hmem, hroot⟩ := mem_groups_of_asyncGroup hgroup
  obtain ⟨first, hfirst, hfirstRoot, -⟩ := hsource.boundary
  obtain ⟨second, hsecond, hsecondRoot, hinitial⟩ := htarget.boundary
  refine ⟨first, second, hfirst, hsecond, ?_, importer, ?_, ?_⟩
  · rw [hinitial]
    exact hcg.not_initial group hmem
  · rw [hfirstRoot]
    exact himporter
  · rw [hsecondRoot, hroot]
    exact himport

/-- What holds of every page: the chunks of its groups are loaded, and to every group leads a
way without each module that the page does not have. -/
structure Covered (g : ModuleGraph) (d : Draft) (cg : ChunkGraph) (page : Page)
    (group : ChunkGroup) : Prop where
  chunks : group.chunks ⊆ page.chunks
  boundary : ∃ i, GroupAt g d i group ∧ Reached g (Boundary.ofGraph g) i ∧
    ∀ m, Held cg page.chunks m ∨ ReachedWithout g (Boundary.ofGraph g) m i

/-- A page has every module that a group on it needs. -/
theorem Covered.held (h : Invariant g d) (hcg : Built g d cg)
    (hcovered : Covered g d cg page group) (hm : m ∈ g.staticClosure group.root) :
    Held cg page.chunks m := by
  obtain ⟨i, hi, -, hways⟩ := hcovered.boundary
  rcases hways m with hheld | hwithout
  · exact hheld
  · -- Some way to the boundary has not loaded the module, so the boundary has to load it.
    obtain ⟨b, hb, rfl⟩ := hi.draft
    obtain ⟨bare, hbare, hroot, -⟩ := hi.boundary
    have hlt : i < (Boundary.members g (Boundary.ofGraph g)).length := by
      rw [length_members]
      exact (List.getElem?_eq_some_iff.mp hbare).1
    have hmodules := List.getElem?_eq_getElem hlt
    have hmem := (mem_members_iff hbare hmodules).mpr ⟨hroot ▸ hm, fun _ => hwithout⟩
    obtain ⟨b', hb', chunk, hload, hm⟩ := h.provides i _ hmodules m hmem
    obtain rfl : b = b' := Option.some.inj (hb.symm.trans hb')
    exact ((held_groupOf_iff hcg).mpr ⟨chunk, mem_loadsOf.mpr hload, hm⟩).mono hcovered.chunks

theorem Covered.load (hcovered : Covered g d cg page group) (more : ChunkGroup) :
    Covered g d cg (page.load more) group := by
  obtain ⟨i, hi, hreached, hways⟩ := hcovered.boundary
  have hsubset : page.chunks ⊆ (page.load more).chunks := List.subset_append_left _ _
  exact ⟨fun id hid => hsubset (hcovered.chunks hid), i, hi, hreached,
    fun m => (hways m).imp_left fun hheld => hheld.mono hsubset⟩

theorem Covered.step (h : Invariant g d) (hcg : Built g d cg)
    {source : ChunkGroup} {importer : ModuleId} (hcovered : Covered g d cg page source)
    (himporter : importer ∈ g.staticClosure source.root)
    (himport : Imports g .dynamic importer target)
    (hgroup : cg.asyncGroup target = some group) : Covered g d cg (page.load group) group := by
  obtain ⟨i, hi, ⟨entry, hentry, hpath⟩, hways⟩ := hcovered.boundary
  obtain ⟨j, hj⟩ := exists_groupAt h hcg
    (List.mem_append_right cg.entrypoints (mem_groups_of_asyncGroup hgroup).1)
  have hway := way_of_groupAt hcg hi hj himporter himport hgroup
  refine ⟨List.subset_append_right _ _, j, hj, ⟨entry, hentry, hpath.tail hway⟩, fun m => ?_⟩
  -- A way without a module goes on only from boundaries that do not need the module.
  by_cases hm : m ∈ g.staticClosure source.root
  · exact .inl ((hcovered.held h hcg hm).mono (List.subset_append_left _ _))
  · rcases hways m with hheld | ⟨entry', hentry', hpath'⟩
    · exact .inl (hheld.mono (List.subset_append_left _ _))
    · refine .inr ⟨entry', hentry', hpath'.tail ⟨hway, fun first hfirst => ?_⟩⟩
      obtain ⟨b, hb, hroot, -⟩ := hi.boundary
      obtain rfl : b = first := Option.some.inj (hb.symm.trans hfirst)
      rw [hroot]
      exact hm

theorem covered_enter (h : Invariant g d) (hcg : Built g d cg) (hgroup : group ∈ cg.entrypoints) :
    Covered g d cg (Page.enter group) group := by
  obtain ⟨i, hi⟩ := exists_groupAt h hcg (List.mem_append_left cg.asyncGroups hgroup)
  have hentry : EntryAt (Boundary.ofGraph g) i := by
    obtain ⟨b, hb, -, hinitial⟩ := hi.boundary
    exact ⟨b, hb, hinitial.trans (hcg.initial group hgroup)⟩
  exact ⟨List.Subset.refl _, i, hi, ⟨i, hentry, .refl⟩, fun m => .inr ⟨i, hentry, .refl⟩⟩

theorem covered_of_reachable (h : Invariant g d) (hcg : Built g d cg)
    (hpage : Reachable g cg page) : ∀ group ∈ page.groups, Covered g d cg page group := by
  induction hpage with
  | enter hentry =>
      intro group hgroup
      rw [List.mem_singleton.mp hgroup]
      exact covered_enter h hcg hentry
  | load hpage hsource himporter himport hload ih =>
      intro group hgroup
      rcases List.mem_cons.mp hgroup with rfl | hgroup
      · exact (ih _ hsource).step h hcg himporter himport hload
      · exact (ih group hgroup).load _

/-- A module that the modules of an entry import, statically or on demand, over any number of
imports. -/
def ReachedByImports (g : ModuleGraph) (m : ModuleId) : Prop :=
  ∃ entry ∈ g.entries,
    ReflTransGen (fun importer target => ∃ kind, Imports g kind importer target) entry.2 m

theorem exists_page (hg : WellFormed g) (h : Invariant g d) (hcg : Built g d cg)
    (hm : ReachedByImports g m) :
    ∃ page, Reachable g cg page ∧ ∃ group ∈ page.groups, m ∈ g.staticClosure group.root := by
  obtain ⟨entry, hentry, hpath⟩ := hm
  induction hpath with
  | refl =>
      have hroot : entry.2 ∈ cg.entrypoints.map ChunkGroup.root :=
        hcg.entry_roots ▸ List.mem_map_of_mem hentry
      obtain ⟨group, hgroup, hroot⟩ := List.mem_map.mp hroot
      refine ⟨Page.enter group, .enter hgroup, group, List.mem_singleton_self group, ?_⟩
      rw [hroot]
      exact mem_staticClosure_self entry.2
  | tail _ himport ih =>
      obtain ⟨page, hpage, group, hgroup, hmem⟩ := ih
      obtain ⟨kind, himport⟩ := himport
      cases kind with
      | static =>
          have hlt : group.root < g.size := by
            obtain ⟨i, hi, -⟩ := (covered_of_reachable h hcg hpage group hgroup).boundary
            obtain ⟨b, hb, hroot, -⟩ := hi.boundary
            exact hroot ▸ root_lt_of_mem_ofGraph hg (List.mem_of_getElem? hb)
          refine ⟨page, hpage, group, hgroup, (mem_staticClosure_iff hg hlt).mpr ?_⟩
          exact ((mem_staticClosure_iff hg hlt).mp hmem).tail himport
      | dynamic =>
          obtain ⟨next, hnext⟩ := exists_asyncGroup hcg himport
          refine ⟨page.load next, .load hpage hgroup hmem himport hnext, next,
            List.mem_cons_self, ?_⟩
          rw [(mem_groups_of_asyncGroup hnext).2]
          exact mem_staticClosure_self _

/-- Loading never misses a module. A page has all that its groups need, it can follow every
dynamic import behind them, and every module that entries reach is in a chunk. -/
theorem pages_miss_no_module (s : Splitting) (hg : WellFormed g) :
    ∃ cg, s.chunkGraph g = .ok cg ∧
      (∀ page, Reachable g cg page → ∀ group ∈ page.groups, ∀ m ∈ g.staticClosure group.root,
        Held cg page.chunks m ∧
          ∀ target, Imports g .dynamic m target → ∃ next, cg.asyncGroup target = some next) ∧
      ∀ m, ReachedByImports g m → ∃ (id : ChunkId) (c : Chunk), cg.chunks[id]? = some c ∧
        m ∈ c.modules := by
  have hinvariant : Invariant g (s.draft g) := invariant_draft
  obtain ⟨cg, hcg⟩ := exists_toChunkGraph g hinvariant.sound
  have hbuilt := built_of_toChunkGraph hinvariant hcg
  have hheld : ∀ page, Reachable g cg page → ∀ group ∈ page.groups,
      ∀ m ∈ g.staticClosure group.root, Held cg page.chunks m := fun page hpage group hgroup m hm =>
    (covered_of_reachable hinvariant hbuilt hpage group hgroup).held hinvariant hbuilt hm
  refine ⟨cg, hcg, ?_, ?_⟩
  · intro page hpage group hgroup m hm
    exact ⟨hheld page hpage group hgroup m hm,
      fun target himport => exists_asyncGroup hbuilt himport⟩
  · intro m hm
    obtain ⟨page, hpage, group, hgroup, hm⟩ := exists_page hg hinvariant hbuilt hm
    obtain ⟨id, -, c, hc, hm⟩ := hheld page hpage group hgroup m hm
    exact ⟨id, c, hc, hm⟩

theorem pages_miss_no_module_scripts : WellFormed sharedStylesheet ∧
    ∃ cg, scriptSplitting.chunkGraph sharedStylesheet = .ok cg ∧
      (∀ page, Reachable sharedStylesheet cg page → ∀ group ∈ page.groups,
        ∀ m ∈ sharedStylesheet.staticClosure group.root, Held cg page.chunks m ∧
          ∀ target, Imports sharedStylesheet .dynamic m target →
            ∃ next, cg.asyncGroup target = some next) ∧
      ∀ m, ReachedByImports sharedStylesheet m →
        ∃ (id : ChunkId) (c : Chunk), cg.chunks[id]? = some c ∧ m ∈ c.modules :=
  ⟨wellFormed_sharedStylesheet, pages_miss_no_module scriptSplitting wellFormed_sharedStylesheet⟩

end WebBundle.Proofs.PageLoading
