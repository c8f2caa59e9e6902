import WebBundle.Proofs.ChunkOrder

namespace WebBundle.Proofs.AsyncCode

open Relation
open WebBundle.Proofs.BoundaryMembers
open WebBundle.Proofs.ChunkNumbering
open WebBundle.Proofs.ChunkOrder
open WebBundle.Proofs.DraftInvariant
open WebBundle.Proofs.Extraction
open WebBundle.Proofs.ExtractionInvariant
open WebBundle.Proofs.InitialDraft
open WebBundle.Proofs.LoadList
open WebBundle.Proofs.ModuleReach
open WebBundle.Proofs.SplittingRun

/-- A module that no entry needs at once. -/
def AsyncOnly (g : ModuleGraph) (m : ModuleId) : Prop :=
  ∀ entry ∈ g.entries, m ∉ g.staticClosure entry.2

/-- An entry shares a base chunk that is reused, and the boundary of that chunk loads code that
no entry needs at once. -/
def Leaks (g : ModuleGraph) (p : Policy) (d : Draft) (bucket : Bucket) : Prop :=
  ∃ owner ∈ d.boundaries, owner.base = some (targetOf d p bucket) ∧
    (∃ i ∈ bucket.users, ∃ b, d.boundaries[i]? = some b ∧ b.initial = true) ∧
    ∃ chunk ∈ owner.loads, ∃ m ∈ d.modulesOf chunk, AsyncOnly g m

/-- No entry loads code that no entry needs at once. -/
def Clean (g : ModuleGraph) (d : Draft) : Prop :=
  ∀ b ∈ d.boundaries, b.initial = true → ∀ chunk ∈ loadsOf b, ∀ m ∈ d.modulesOf chunk,
    ¬ AsyncOnly g m

variable {s : Splitting} {g : ModuleGraph} {p : Policy} {d : Draft} {bucket part : Bucket}
variable {m : ModuleId} {i : Nat}

theorem not_asyncOnly_of_closure (h : Invariant g d) {b : Boundary} (hb : b ∈ d.boundaries)
    (hinitial : b.initial = true) (hm : m ∈ g.staticClosure b.root) : ¬ AsyncOnly g m := by
  rcases site_mem_ofGraph (h.bare_mem hb) with ⟨-, entry, hentry, hroot⟩ | ⟨hlate, -⟩
  · intro hasync
    have hroot : entry.2 = b.root := hroot
    exact hasync entry hentry (hroot ▸ hm)
  · have hlate : b.initial = false := hlate
    exact absurd (hlate.symm.trans hinitial) Bool.false_ne_true

theorem modules_of_target (h : Sound d) (hasync : ReusesAsync d bucket) (hname : p.name = none)
    (hm : m ∈ (d.extract p bucket).modulesOf (targetOf d p bucket)) : m ∈ bucket.modules := by
  rcases (mem_modulesOf_extract_target h hasync).mp hm with hm | hm
  · have hcases := target_cases d p bucket.users bucket.modules
    rw [targetOf] at hm
    generalize d.target p bucket.users bucket.modules = target at hcases hm
    cases hcases with
    | reused _ _ _ hmodules => exact hmodules ▸ hm
    | extended hnamed => simp [hname] at hnamed
    | added =>
        obtain ⟨c, hc, -⟩ := exists_chunk_of_mem hm
        exact absurd (List.getElem?_eq_some_iff.mp hc).1 (Nat.lt_irrefl _)
  · exact hm

theorem target_not_mem_loads (h : Sound d) (hname : p.name = none) {b : Boundary}
    (hb : b ∈ d.boundaries) : targetOf d p bucket ∉ b.loads := by
  intro hmem
  have hcases := target_cases d p bucket.users bucket.modules
  rw [targetOf] at hmem
  generalize d.target p bucket.users bucket.modules = target at hcases hmem
  cases hcases with
  | reused _ _ hbase _ =>
      obtain ⟨owner, howner, hbase⟩ := baseOf_eq_some.mp hbase
      exact (h.loads b hb).free _ hmem owner (List.mem_of_getElem? howner) hbase
  | extended hnamed => simp [hname] at hnamed
  | added => exact absurd ((h.loads b hb).lt _ hmem) (Nat.lt_irrefl _)

theorem mem_loads_of_after {b : Boundary} (hbase : b.base ≠ some (targetOf d p bucket))
    {chunk : Nat} (hchunk : chunk ∈ (after d p bucket i b).loads) :
    chunk ∈ b.loads ∨ i ∈ bucket.users ∧
      (chunk = targetOf d p bucket ∨
        chunk ∈ needsOf (moved d p bucket).chunks (targetOf d p bucket)) := by
  rw [after, loads_dropped, released, if_neg hbase, loading] at hchunk
  split at hchunk
  · next hi =>
      rcases mem_withChunk.mp hchunk with hchunk | heq | ⟨-, hneeds⟩
      · exact .inl hchunk
      · exact .inr ⟨hi, .inl heq⟩
      · exact .inr ⟨hi, .inr hneeds⟩
  · exact .inl hchunk

theorem mem_loadsOf_after {b : Boundary} (hbase : b.base ≠ some (targetOf d p bucket))
    {chunk : Nat} (hchunk : chunk ∈ loadsOf (after d p bucket i b)) :
    chunk ∈ loadsOf b ∨ i ∈ bucket.users ∧
      (chunk = targetOf d p bucket ∨
        chunk ∈ needsOf (moved d p bucket).chunks (targetOf d p bucket)) := by
  rcases mem_loadsOf.mp hchunk with hchunk | hbase'
  · exact (mem_loads_of_after hbase hchunk).imp_left fun hold => mem_loadsOf.mpr (.inl hold)
  · exact .inl (mem_loadsOf.mpr (.inr (base_of_after hbase').1))

theorem Clean.extract (h : Invariant g d) (hbucket : Collected g p bucket) (hname : p.name = none)
    (hclean : Clean g d) (hleak : ¬ Leaks g p d bucket) : Clean g (d.extract p bucket) := by
  have hno : ∀ c ∈ bucket, g.isEntry c.id = false := fun c hc => (hbucket.shareable c hc).no_entry
  have hasync := h.reusesAsync hno
  intro b' hb' hinitial chunk hchunk m hm
  obtain ⟨i, b, hi, rfl⟩ := h.exists_old hno hb'
  have hb := List.mem_of_getElem? hi
  rw [initial_after] at hinitial
  have hbase : b.base ≠ some (targetOf d p bucket) := base_ne_target h.sound hasync hb hinitial
  by_cases htarget : chunk = targetOf d p bucket
  · subst htarget
    rcases mem_loadsOf_after hbase hchunk with hold | ⟨huser, -⟩
    · rcases mem_loadsOf.mp hold with hload | hown
      · exact absurd hload (target_not_mem_loads h.sound hname hb)
      · exact absurd hown hbase
    · -- All candidates have the same users, so the module is one of the boundary's own closure.
      obtain ⟨c, hc, rfl⟩ := mem_modules.mp (modules_of_target h.sound hasync hname hm)
      obtain ⟨users, husers⟩ := hbucket.alike hname
      obtain ⟨c', hc', huser⟩ := mem_users.mp huser
      rw [husers c' hc', ← husers c hc] at huser
      obtain ⟨first, hfirst, hm⟩ := (hbucket.shareable c hc).boundary i huser
      rw [← h.boundaries, List.getElem?_map, hi, Option.map_some] at hfirst
      obtain rfl := Option.some.inj hfirst
      exact not_asyncOnly_of_closure h hb hinitial hm
  · have hm := ((mem_modulesOf_extract htarget).mp hm).1
    rcases mem_loadsOf_after hbase hchunk with hold | ⟨huser, heq | hneeds⟩
    · exact hclean b hb hinitial chunk hold m hm
    · exact absurd heq htarget
    · -- What the chunk needs is what the owner of a reused base chunk loads.
      intro hasyncOnly
      by_cases hfree : Free d (targetOf d p bucket)
      · rw [needsOf_target_of_free h.sound hfree] at hneeds
        exact List.not_mem_nil hneeds
      · obtain ⟨owner, howner, hbase⟩ := exists_base_of_not_free hfree
        rw [needsOf_target_of_base h.sound hasync howner hbase] at hneeds
        exact hleak ⟨owner, howner, hbase, ⟨i, huser, b, hi, hinitial⟩, chunk, hneeds, m, hm,
          hasyncOnly⟩

theorem clean_ofGraph : Clean g (Draft.ofGraph g) := by
  have h := invariant_ofGraph (g := g)
  intro b hb hinitial chunk hchunk m hm
  rw [loadsOf, loads_ofGraph hb, List.nil_append, Option.mem_toList] at hchunk
  exact not_asyncOnly_of_closure h hb hinitial (h.base_subset b hb chunk hchunk m hm)

theorem clean_draft (hnames : ∀ p ∈ s.policies, p.name = none)
    (hleak : ∀ p bucket d part, Extracts s g p bucket d part → ¬ Leaks g p d part) :
    Clean g (s.draft g) := by
  refine of_steps (P := Clean g) .refl reaches_draft (clean_ofGraph) ?_
  intro p bucket d part hextracts hclean
  exact hclean.extract hextracts.invariant hextracts.collected
    (hnames p hextracts.mem_policies) (hleak p bucket d part hextracts)

theorem provides_of_leaks (h : Extracts s g p bucket d part)
    (hleak : Leaks g p d part) : ∃ m, AsyncOnly g m ∧ ∃ i b,
      (s.draft g).boundaries[i]? = some b ∧ b.initial = true ∧ Provides (s.draft g) i m := by
  have hsound := h.invariant.sound
  have hasync := h.reusesAsync
  obtain ⟨owner, howner, hbase, ⟨i, hi, b, hb, hinitial⟩, chunk, hchunk, m, hm, hasyncOnly⟩ :=
    hleak
  have hne : chunk ≠ targetOf d p part := by
    rintro rfl
    exact (hsound.loads owner howner).free _ hchunk owner howner hbase
  have hloaded : chunk ∈ (after d p part i b).loads := by
    have hbase' : b.base ≠ some (targetOf d p part) :=
      base_ne_target hsound hasync (List.mem_of_getElem? hb) hinitial
    have hnew : targetOf d p part ∉ b.loads := fun hmem =>
      (hsound.loads b (List.mem_of_getElem? hb)).free _ hmem owner howner hbase
    have hneeds : chunk ∈ needsOf (moved d p part).chunks (targetOf d p part) := by
      rw [needsOf_target_of_base hsound hasync howner hbase]
      exact hchunk
    rw [after, loads_dropped, released, if_neg hbase', loading, if_pos hi]
    exact mem_withChunk.mpr (.inr (.inr ⟨hnew, hneeds⟩))
  have hprovides : Provides (d.extract p part) i m := by
    refine ⟨after d p part i b, by rw [getElem?_extract hsound hasync, hb]; rfl, chunk,
      .inl hloaded, ?_⟩
    refine (mem_modulesOf_extract hne).mpr ⟨hm, ?_⟩
    rintro ⟨c, -, -, j, -, hbase'⟩
    obtain ⟨b', hb', hbase'⟩ := baseOf_eq_some.mp hbase'
    exact (hsound.loads owner howner).free _ hchunk b' (List.mem_of_getElem? hb') hbase'
  -- What the entry loads right after the extraction, it loads in the end.
  obtain ⟨policies, pending, hreaches⟩ := h.reaches_extract
  have hend := provides_of_steps hreaches (steps_draft hreaches) hprovides
  obtain ⟨b', hb', -⟩ := id hend
  have hbare : bare b' = bare b := invariant_draft.bare_eq h.invariant hb' hb
  have hinitial' : (bare b').initial = true := by
    rw [hbare]
    exact hinitial
  exact ⟨m, hasyncOnly, i, b', hb', hinitial', hend⟩

/-- With policies that have no names, entries load only code that some entry needs at once, if
and only if no extraction leaks other code into one. -/
theorem entries_load_no_async_code_iff
    (hnames : ∀ p ∈ s.policies, p.name = none) :
    ∃ cg, s.chunkGraph g = .ok cg ∧
      ((∀ group ∈ cg.entrypoints, ∀ m, AsyncOnly g m → ¬ Held cg group.chunks m) ↔
        ∀ p bucket d part, Extracts s g p bucket d part → ¬ Leaks g p d part) := by
  have hinvariant : Invariant g (s.draft g) := invariant_draft
  obtain ⟨cg, hcg⟩ := exists_toChunkGraph g hinvariant.sound
  have hbuilt := built_of_toChunkGraph hinvariant hcg
  refine ⟨cg, hcg, ?_, ?_⟩
  · intro hentries p bucket d part hextracts hleak
    obtain ⟨m, hasyncOnly, i, b, hb, hinitial, b', hb', chunk, hchunk, hm⟩ :=
      provides_of_leaks hextracts hleak
    obtain rfl : b = b' := Option.some.inj (hb.symm.trans hb')
    have hgroup : Draft.groupOf (s.draft g).kept b ∈ cg.entrypoints :=
      hbuilt.mem_entrypoints_iff.mpr ⟨b, List.mem_of_getElem? hb, hinitial, rfl⟩
    exact hentries _ hgroup m hasyncOnly
      ((held_groupOf_iff hbuilt).mpr ⟨chunk, mem_loadsOf.mpr hchunk, hm⟩)
  · intro hleak group hgroup m hasyncOnly hheld
    have hclean : Clean g (s.draft g) := clean_draft hnames hleak
    obtain ⟨b, hb, hinitial, rfl⟩ := hbuilt.mem_entrypoints_iff.mp hgroup
    obtain ⟨chunk, hchunk, hm⟩ := (held_groupOf_iff hbuilt).mp hheld
    exact hclean b hb hinitial chunk hchunk m hm hasyncOnly

theorem entries_load_no_async_code_iff_scripts :
    ∃ cg, scriptSplitting.chunkGraph sharedStylesheet = .ok cg ∧
      ((∀ group ∈ cg.entrypoints, ∀ m, AsyncOnly sharedStylesheet m → ¬ Held cg group.chunks m) ↔
        ∀ p bucket d part, Extracts scriptSplitting sharedStylesheet p bucket d part →
          ¬ Leaks sharedStylesheet p d part) :=
  entries_load_no_async_code_iff (by decide +kernel)

/-- An entry may load a script that only a dynamic import leads to. -/
theorem entry_loads_async_code :
    Splitting.ofOptions scriptOptions .development = .ok scriptSplitting ∧
      WellFormed sharedStylesheet ∧ (∀ p ∈ scriptSplitting.policies, p.name = none) ∧
      ∃ cg, scriptSplitting.chunkGraph sharedStylesheet = .ok cg ∧
        ∃ group ∈ cg.entrypoints, ∃ m, AsyncOnly sharedStylesheet m ∧ Held cg group.chunks m := by
  have hasync : AsyncOnly sharedStylesheet 3 := by
    have hentries : ∀ entry ∈ sharedStylesheet.entries,
        (sharedStylesheet.staticClosure entry.2).contains 3 = false := by decide +kernel
    intro entry hentry hmem
    exact Bool.false_ne_true ((hentries entry hentry).symm.trans hmem)
  have hheld : (scriptSplitting.chunkGraph sharedStylesheet).toOption.any (fun cg =>
      cg.entrypoints.any fun group => group.chunks.any fun id =>
        cg.chunks[id]?.any fun c => c.modules.contains 3) = true := by decide +kernel
  have hinvariant : Invariant sharedStylesheet (scriptSplitting.draft sharedStylesheet) :=
    invariant_draft
  obtain ⟨cg, hcg⟩ := exists_toChunkGraph sharedStylesheet hinvariant.sound
  have hcg : scriptSplitting.chunkGraph sharedStylesheet = .ok cg := hcg
  rw [hcg, Except.toOption, Option.any_some] at hheld
  obtain ⟨group, hgroup, hany⟩ := List.any_eq_true.mp hheld
  obtain ⟨id, hid, hany⟩ := List.any_eq_true.mp hany
  obtain ⟨c, hc, hm⟩ := (Option.any_eq_true _ _).mp hany
  exact ⟨ofOptions_scriptOptions, wellFormed_sharedStylesheet, by decide +kernel, cg, hcg, group,
    hgroup, 3, hasync, id, hid, c, hc, hm⟩

end WebBundle.Proofs.AsyncCode
