import Mathlib.Data.List.Perm.Subperm
import WebBundle.Proofs.ChunkOrder
import WebBundle.Proofs.ExtractedChunks
import WebBundle.Proofs.RequestBudget

namespace WebBundle.Proofs.SizeThresholds

open Relation
open WebBundle.Proofs.ChunkNumbering
open WebBundle.Proofs.ChunkOrder
open WebBundle.Proofs.DraftInvariant
open WebBundle.Proofs.ExtractedChunks
open WebBundle.Proofs.Extraction
open WebBundle.Proofs.ExtractionInvariant
open WebBundle.Proofs.ModuleReach
open WebBundle.Proofs.PendingBuckets
open WebBundle.Proofs.RequestBudget
open WebBundle.Proofs.SplittingRun

variable {s : Splitting} {g : ModuleGraph} {p : Policy} {d : Draft} {bucket part : Bucket}
variable {ids others : List ModuleId} {i base : Nat} {m : ModuleId}

theorem sizeOf_cons (id : ModuleId) (rest : List ModuleId) :
    g.sizeOf (id :: rest) = (g.get id).size + g.sizeOf rest := rfl

theorem sizeOf_append : g.sizeOf (ids ++ others) = g.sizeOf ids + g.sizeOf others := by
  induction ids with
  | nil => exact (Nat.zero_add _).symm
  | cons id rest ih => rw [List.cons_append, sizeOf_cons, sizeOf_cons, ih, Nat.add_assoc]

theorem sizeOf_perm (h : ids.Perm others) : g.sizeOf ids = g.sizeOf others := by
  induction h with
  | nil => rfl
  | cons id _ ih => rw [sizeOf_cons, sizeOf_cons, ih]
  | swap id other rest =>
      simp only [sizeOf_cons]
      omega
  | trans _ _ ih ih' => exact ih.trans ih'

theorem sizeOf_le_of_sublist (h : ids.Sublist others) : g.sizeOf ids ≤ g.sizeOf others := by
  induction h with
  | slnil => exact Nat.le_refl _
  | cons id _ ih =>
      rw [sizeOf_cons]
      omega
  | cons_cons id _ ih =>
      rw [sizeOf_cons, sizeOf_cons]
      omega

theorem sizeOf_le_of_subset (hnodup : ids.Nodup) (hsub : ids ⊆ others) :
    g.sizeOf ids ≤ g.sizeOf others := by
  obtain ⟨same, hperm, hsub⟩ := List.subperm_of_subset hnodup hsub
  rw [← sizeOf_perm hperm]
  exact sizeOf_le_of_sublist hsub

theorem sizeOf_eq_zero_iff : g.sizeOf ids = 0 ↔ ∀ m ∈ ids, (g.get m).size = 0 := by
  induction ids with
  | nil => simp [ModuleGraph.sizeOf]
  | cons id rest ih => simp [sizeOf_cons, ih]

theorem nodup_toList (modules : IdSet) : modules.toList.Nodup :=
  (IdSet.pairwise_toList modules).imp Nat.ne_of_lt

/-- A script that is imported on demand and needs a stylesheet that is empty. -/
def emptyStylesheet : ModuleGraph where
  modules := [
    { key := "./src/e.js", path := ⟨"/p/src/e.js"⟩, origin := .source
      artifact := .ofText .script "import(\"./b\");\n"
      dependencies := [⟨"./b", 1, .dynamic⟩] },
    { key := "./src/b.js", path := ⟨"/p/src/b.js"⟩, origin := .source
      artifact := .ofText .script "require(\"./z.css\");\n"
      dependencies := [⟨"./z.css", 2, .static⟩] },
    { key := "./src/z.css", path := ⟨"/p/src/z.css"⟩, origin := .source, type := .style
      artifact := ⟨.style, .empty⟩ }]
  entries := [("e", 0)]

theorem wellFormed_emptyStylesheet : WellFormed emptyStylesheet := ⟨by decide, by decide⟩

def sizeOptions : SplitOptions where
  minSize := some 10
  minRemainingSize := some 1
  defaultVendors := false
  cacheGroups := [{
    key := "scripts"
    type := some .javascript
    chunks := some .async
    minChunks := some 1 }]

def sizePolicy : Policy where
  key := "scripts"
  type := some .javascript
  selection := .async
  minChunks := 1
  minSize := 10
  maxAsyncRequests := 30
  maxInitialRequests := 30

def sizeSplitting : Splitting where
  policies := [sizePolicy, Splitting.sharedPolicy sizeOptions .development]
  minRemainingSize := 1
  enforceSizeThreshold := 50000

theorem ofOptions_sizeOptions :
    Splitting.ofOptions sizeOptions .development = .ok sizeSplitting := by
  have hgroups : Splitting.groupPolicies sizeOptions .development []
      (Splitting.groups sizeOptions) = .ok [sizePolicy] := rfl
  simp only [Splitting.ofOptions, hgroups]
  simp [Splitting.positive, sizeOptions, sizeSplitting, bind, Except.bind, pure, Except.pure]
  rfl

/-- The script; the stylesheet stays behind. -/
def demandedBucket : Bucket := [⟨1, .single 1⟩]

theorem extracts_demanded : Extracts sizeSplitting emptyStylesheet sizePolicy demandedBucket
    (Draft.ofGraph emptyStylesheet) demandedBucket := by
  have hbuckets : Splitting.buckets emptyStylesheet sizePolicy (Draft.ofGraph emptyStylesheet) =
      [demandedBucket] := by decide +kernel
  have hstep := Step.collect (s := sizeSplitting) (g := emptyStylesheet) sizePolicy
    [Splitting.sharedPolicy sizeOptions .development] (Draft.ofGraph emptyStylesheet)
  rw [hbuckets] at hstep
  exact ⟨⟨_, [], .single hstep⟩, by decide +kernel⟩

theorem minSize_le_of_admitted? (h : s.admitted? g p d bucket = some part)
    (henforce : p.enforce = false) : p.minSize ≤ part.size g := by
  have hlarge : p.minSize ≤ bucket.size g := by
    rcases (admitted?_eq_some h).1 with hforced | hlarge
    · rw [henforce] at hforced
      exact Bool.noConfusion hforced
    · exact hlarge
  rcases (admitted?_eq_some h).2 with ⟨rfl, -⟩ | ⟨hpart, -⟩
  · exact hlarge
  · rcases withinRequests_eq_some hpart with rfl | ⟨-, hpart⟩
    · exact hlarge
    · exact hpart

theorem size_le_of_modules (h : Standing d bucket) {modules : IdSet}
    (hmodules : ∀ m ∈ bucket.modules, m ∈ modules) : bucket.size g ≤ g.sizeOf modules.toList := by
  refine sizeOf_le_of_subset h.nodup fun m hm => IdSet.mem_toList.mpr (hmodules m ?_)
  obtain ⟨c, hc, rfl⟩ := List.mem_map.mp hm
  exact mem_modules.mpr ⟨c, hc, rfl⟩

theorem size_of_mem_chunksOf {c : Chunk} (hc : c ∈ chunksOf g d) :
    c.size = g.sizeOf c.modules.toList := by
  obtain ⟨chunk, -, hchunk⟩ := List.mem_filterMap.mp hc
  obtain ⟨draft, -, rfl⟩ := Option.map_eq_some_iff.mp hchunk
  rfl

/-- Whenever a policy takes modules without force, the chunk to which they go has them in the end,
and it is as large as the policy wants. -/
theorem extracted_chunks_reach_minSize (s : Splitting) (g : ModuleGraph) :
    ∃ cg, s.chunkGraph g = .ok cg ∧
      ∀ p bucket d part, Extracts s g p bucket d part → p.enforce = false →
        ∃ id c, Draft.idIn? (s.draft g).kept (targetOf d p part) = some id ∧
          cg.chunks[id]? = some c ∧ (∀ m ∈ part.modules, m ∈ c.modules) ∧
          c.size = g.sizeOf c.modules.toList ∧ p.minSize ≤ c.size := by
  have hinvariant : Invariant g (s.draft g) := invariant_draft
  obtain ⟨cg, hcg⟩ := exists_toChunkGraph g hinvariant.sound
  have hbuilt := built_of_toChunkGraph hinvariant hcg
  refine ⟨cg, hcg, fun p bucket d part h henforce => ?_⟩
  have hmodules := (target_of_extracts h).2
  -- The bucket has a module, so the chunk is one of the chunk graph.
  obtain ⟨taken, htaken⟩ := List.exists_mem_of_ne_nil part (ne_nil_of_extracts h)
  obtain ⟨id, c, hid, hc, heq⟩ :=
    hbuilt.exists_chunk (hmodules taken.id (mem_modules.mpr ⟨taken, htaken, rfl⟩))
  have hsize := size_of_mem_chunksOf (hbuilt.chunks ▸ List.mem_of_getElem? hc)
  refine ⟨id, c, hid, hc, heq ▸ hmodules, hsize, ?_⟩
  calc
    p.minSize ≤ part.size g := minSize_le_of_admitted? h.admitted henforce
    _ ≤ g.sizeOf c.modules.toList :=
      size_le_of_modules (standing_of_extracts h) (heq ▸ hmodules)
    _ = c.size := hsize.symm

theorem extracted_chunks_reach_minSize_demanded : WellFormed emptyStylesheet ∧
    ∃ cg, sizeSplitting.chunkGraph emptyStylesheet = .ok cg ∧
      ∃ id c, Draft.idIn? (sizeSplitting.draft emptyStylesheet).kept
          (targetOf (Draft.ofGraph emptyStylesheet) sizePolicy demandedBucket) = some id ∧
        cg.chunks[id]? = some c ∧ (∀ m ∈ demandedBucket.modules, m ∈ c.modules) ∧
        c.size = emptyStylesheet.sizeOf c.modules.toList ∧ 10 ≤ c.size := by
  obtain ⟨cg, hcg, hlarge⟩ :=
    extracted_chunks_reach_minSize sizeSplitting emptyStylesheet
  exact ⟨wellFormed_emptyStylesheet, cg, hcg,
    hlarge sizePolicy demandedBucket _ demandedBucket extracts_demanded rfl⟩

/-- An extraction leaves of a base chunk of which it takes modules nothing, or enough; one that is
reused is no base chunk any more. -/
def LeavesEnough (s : Splitting) (g : ModuleGraph) (p : Policy) (d : Draft) (bucket : Bucket) :
    Prop :=
  ∀ i ∈ bucket.users, ∀ base, d.baseOf i = some base →
    Free (d.extract p bucket) base ∨
      s.minRemainingSize ≤ g.sizeOf ((d.extract p bucket).modulesOf base).toList

/-- A boundary keeps modules of its base chunk, but none that has bytes. -/
def KeepsEmptyModules (g : ModuleGraph) (d : Draft) (bucket : Bucket) (i base : Nat) : Prop :=
  (∃ m ∈ d.modulesOf base, m ∉ bucket.takenFrom i) ∧
    ∀ m ∈ d.modulesOf base, m ∉ bucket.takenFrom i → (g.get m).size = 0

theorem mem_modulesOf_remaining (h : Sound d) (hbase : d.baseOf i = some base)
    (hne : base ≠ targetOf d p bucket) :
    m ∈ (d.extract p bucket).modulesOf base ↔ m ∈ d.modulesOf base ∧ m ∉ bucket.takenFrom i := by
  rw [mem_modulesOf_extract_base h hbase hne, Extraction.mem_takenFrom]

theorem mem_takenFrom_of_reuse (hbucket : Standing d bucket) (h : Sound d)
    (hbase : d.baseOf i = some (targetOf d p bucket))
    (hm : m ∈ d.modulesOf (targetOf d p bucket)) : m ∈ bucket.takenFrom i := by
  obtain ⟨hi, hmodules⟩ := reused_of_base h hbase
  obtain ⟨c, hc, rfl⟩ := mem_modules.mp (hmodules ▸ hm)
  exact Extraction.mem_takenFrom.mpr ⟨c, hc, rfl, hbucket.mem_users hi hc ⟨_, hbase, hm⟩⟩

theorem sizeOf_base (hbucket : Standing d bucket) (h : Sound d) (hbase : d.baseOf i = some base)
    (hne : base ≠ targetOf d p bucket) :
    g.sizeOf (d.modulesOf base).toList = g.sizeOf (bucket.takenFrom i) +
      g.sizeOf ((d.extract p bucket).modulesOf base).toList := by
  rw [← sizeOf_append]
  have htaken : (bucket.takenFrom i).Nodup :=
    hbucket.nodup.sublist (List.filter_sublist.map Candidate.id)
  refine sizeOf_perm ((List.perm_ext_iff_of_nodup (nodup_toList _) ?_).mpr ?_)
  · refine List.Nodup.append htaken (nodup_toList _) fun m hm hm' => ?_
    exact ((mem_modulesOf_remaining h hbase hne).mp (IdSet.mem_toList.mp hm')).2 hm
  · intro m
    rw [List.mem_append, IdSet.mem_toList, IdSet.mem_toList, mem_modulesOf_remaining h hbase hne]
    constructor
    · intro hm
      by_cases hkept : m ∈ bucket.takenFrom i
      · exact .inl hkept
      · exact .inr ⟨hm, hkept⟩
    · rintro (hm | hm)
      · obtain ⟨c, hc, rfl, hi⟩ := Extraction.mem_takenFrom.mp hm
        obtain ⟨base', hbase', hm⟩ := hbucket.holds hc hi
        obtain rfl : base = base' := Option.some.inj (hbase.symm.trans hbase')
        exact hm
      · exact hm.1

theorem free_of_nothing_left (h : Sound d) (hasync : ReusesAsync d bucket) (hi : i ∈ bucket.users)
    (hbase : d.baseOf i = some base)
    (hempty : ∀ m, m ∉ (d.extract p bucket).modulesOf base) : Free (d.extract p bucket) base := by
  refine free_iff.mpr fun j hbase' => ?_
  obtain ⟨hold, hne⟩ := baseOf_of_extract h hasync hbase'
  obtain rfl := h.base_unique j i base hold hbase
  obtain ⟨b', hb', hbase'⟩ := baseOf_eq_some.mp hbase'
  rw [getElem?_extract h hasync, Option.map_eq_some_iff] at hb'
  obtain ⟨b, hb, rfl⟩ := hb'
  have hown := (base_of_after hbase').1
  have hemptied : emptied d bucket j b = true := by
    rw [← isEmpty_modulesOf_extract h hb hown hne]
    exact Reachability.isEmpty_iff.mpr hempty
  rw [after_of_user h hi hb (hown ▸ fun heq => hne (Option.some.inj heq)), hemptied] at hbase'
  exact absurd hbase' (Option.some_ne_none base).symm

theorem remaining_of_admitted? (h : s.admitted? g p d bucket = some part)
    (henforce : p.enforce = false) (hsize : bucket.size g < s.enforceSizeThreshold)
    (hi : i ∈ part.users) (hbase : d.baseOf i = some base) :
    Splitting.residual g d part base i = 0 ∨
      s.minRemainingSize ≤ Splitting.residual g d part base i := by
  rcases (admitted?_eq_some h).2 with ⟨-, hforced⟩ | ⟨-, hleaves⟩
  · rcases hforced with hforced | hforced
    · rw [henforce] at hforced
      exact Bool.noConfusion hforced
    · exact absurd hsize (Nat.not_lt_of_le hforced)
  · have hleaves := List.all_eq_true.mp hleaves i (IdSet.mem_toList.mpr hi)
    rw [hbase] at hleaves
    simpa using hleaves

/-- An extraction that is not forced leaves enough of all base chunks, if and only if no boundary
keeps just modules without bytes. -/
theorem leavesEnough_iff (h : Extracts s g p bucket d part)
    (henforce : p.enforce = false) (hsize : bucket.size g < s.enforceSizeThreshold) :
    LeavesEnough s g p d part ↔
      s.minRemainingSize = 0 ∨
        ∀ i ∈ part.users, ∀ base, d.baseOf i = some base → ¬ KeepsEmptyModules g d part i base := by
  have hsound := h.invariant.sound
  have hasync := h.reusesAsync
  have hstanding := standing_of_extracts h
  constructor
  · intro hleaves
    by_cases hzero : s.minRemainingSize = 0
    · exact .inl hzero
    · refine .inr fun i hi base hbase => ?_
      rintro ⟨⟨m, hm, hkept⟩, hempty⟩
      have hne : base ≠ targetOf d p part := by
        rintro rfl
        exact hkept (mem_takenFrom_of_reuse hstanding hsound hbase hm)
      have hm := (mem_modulesOf_remaining hsound hbase hne).mpr ⟨hm, hkept⟩
      rcases hleaves i hi base hbase with hfree | hlarge
      · exact free_iff.mp hfree i (baseOf_extract hsound hasync hbase hne hm)
      · have hnothing : g.sizeOf ((d.extract p part).modulesOf base).toList = 0 := by
          refine sizeOf_eq_zero_iff.mpr fun m hm => ?_
          obtain ⟨hm, hkept⟩ :=
            (mem_modulesOf_remaining hsound hbase hne).mp (IdSet.mem_toList.mp hm)
          exact hempty m hm hkept
        omega
  · intro hkeeps i hi base hbase
    by_cases htarget : base = targetOf d p part
    · exact .inl (htarget ▸ free_target hsound hasync)
    · by_cases hempty : ∀ m, m ∉ (d.extract p part).modulesOf base
      · exact .inl (free_of_nothing_left hsound hasync hi hbase hempty)
      · right
        have hresidual : Splitting.residual g d part base i =
            g.sizeOf ((d.extract p part).modulesOf base).toList := by
          rw [Splitting.residual, sizeOf_base hstanding hsound hbase htarget,
            Nat.add_sub_cancel_left]
        rcases remaining_of_admitted? h.admitted henforce hsize hi hbase with hzero | hlarge
        · -- Nothing is left in bytes, but modules are.
          rcases hkeeps with hkeeps | hkeeps
          · omega
          · refine absurd ⟨?_, fun m hm hkept => ?_⟩ (hkeeps i hi base hbase)
            · obtain ⟨m, hm⟩ := not_forall_not.mp hempty
              exact ⟨m, (mem_modulesOf_remaining hsound hbase htarget).mp hm⟩
            · refine sizeOf_eq_zero_iff.mp (hresidual ▸ hzero) m (IdSet.mem_toList.mpr ?_)
              exact (mem_modulesOf_remaining hsound hbase htarget).mpr ⟨hm, hkept⟩
        · exact hresidual ▸ hlarge

theorem leavesEnough_iff_demanded : WellFormed emptyStylesheet ∧
    Extracts sizeSplitting emptyStylesheet sizePolicy demandedBucket
      (Draft.ofGraph emptyStylesheet) demandedBucket ∧
    sizePolicy.enforce = false ∧
    demandedBucket.size emptyStylesheet < sizeSplitting.enforceSizeThreshold ∧
    (LeavesEnough sizeSplitting emptyStylesheet sizePolicy (Draft.ofGraph emptyStylesheet)
      demandedBucket ↔
      sizeSplitting.minRemainingSize = 0 ∨
        ∀ i ∈ demandedBucket.users, ∀ base, (Draft.ofGraph emptyStylesheet).baseOf i = some base →
          ¬ KeepsEmptyModules emptyStylesheet (Draft.ofGraph emptyStylesheet) demandedBucket i
            base) := by
  have hsize : demandedBucket.size emptyStylesheet < sizeSplitting.enforceSizeThreshold := by
    decide +kernel
  exact ⟨wellFormed_emptyStylesheet, extracts_demanded, rfl, hsize,
    leavesEnough_iff extracts_demanded rfl hsize⟩

/-- A base chunk may be left with a stylesheet that has no bytes, although at least one byte is
to remain. -/
theorem empty_stylesheet_remains :
    Splitting.ofOptions sizeOptions .development = .ok sizeSplitting ∧
      WellFormed emptyStylesheet ∧
      Extracts sizeSplitting emptyStylesheet sizePolicy demandedBucket
        (Draft.ofGraph emptyStylesheet) demandedBucket ∧
      sizePolicy.enforce = false ∧
      demandedBucket.size emptyStylesheet < sizeSplitting.enforceSizeThreshold ∧
      ¬ LeavesEnough sizeSplitting emptyStylesheet sizePolicy (Draft.ofGraph emptyStylesheet)
        demandedBucket := by
  refine ⟨ofOptions_sizeOptions, wellFormed_emptyStylesheet, extracts_demanded, rfl,
    by decide +kernel, fun hleaves => ?_⟩
  rcases hleaves 1 (by decide +kernel) 1 (by decide +kernel) with hfree | hlarge
  · exact free_iff.mp hfree 1 (by decide +kernel)
  · have hnothing : emptyStylesheet.sizeOf (((Draft.ofGraph emptyStylesheet).extract sizePolicy
        demandedBucket).modulesOf 1).toList = 0 := by decide +kernel
    rw [hnothing] at hlarge
    exact absurd hlarge (by decide)

end WebBundle.Proofs.SizeThresholds
