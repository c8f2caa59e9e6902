import WebBundle.Proofs.AsyncCode
import WebBundle.Proofs.ExtractedChunks

namespace WebBundle.Proofs.RepeatedDownloads

open Relation
open WebBundle.Proofs.AsyncCode
open WebBundle.Proofs.ChunkNumbering
open WebBundle.Proofs.ChunkOrder
open WebBundle.Proofs.DraftInvariant
open WebBundle.Proofs.Extraction
open WebBundle.Proofs.ExtractedChunks
open WebBundle.Proofs.ExtractionInvariant
open WebBundle.Proofs.InitialDraft
open WebBundle.Proofs.LoadList
open WebBundle.Proofs.ModuleReach
open WebBundle.Proofs.PendingBuckets
open WebBundle.Proofs.SplittingRun

/-- A boundary loads a module besides its base chunk. -/
def Loads (d : Draft) (i : Nat) (m : ModuleId) : Prop :=
  ∃ b, d.boundaries[i]? = some b ∧ ∃ chunk ∈ b.loads, m ∈ d.modulesOf chunk

/-- A boundary loads a module that is in its base chunk, too. -/
def Repeats (d : Draft) (i : Nat) (m : ModuleId) : Prop := Holds d i m ∧ Loads d i m

/-- The ways in which an extraction makes a boundary load a module that its base chunk keeps. -/
inductive Doubles (d : Draft) (p : Policy) (bucket : Bucket) : Prop
  /-- The chunk that a user is to load has the module already. -/
  | extended {i : Nat} {m : ModuleId} : i ∈ bucket.users → Holds d i m →
      m ∈ d.modulesOf (targetOf d p bucket) → m ∉ bucket.modules → Doubles d p bucket
  /-- A user shares a reused base chunk, and the boundary of that chunk loads the module. -/
  | shared {i owner : Nat} {m : ModuleId} : i ∈ bucket.users → Holds d i m →
      d.baseOf owner = some (targetOf d p bucket) → Loads d owner m → Doubles d p bucket
  /-- The module is put into a chunk that the boundary loads without being a user. -/
  | unheeded {i : Nat} {m : ModuleId} {b : Boundary} : i ∉ bucket.users → Holds d i m →
      d.boundaries[i]? = some b → targetOf d p bucket ∈ b.loads → m ∈ bucket.modules →
      Doubles d p bucket

variable {s : Splitting} {g : ModuleGraph} {p : Policy} {d : Draft} {bucket part : Bucket}
variable {i : Nat} {m : ModuleId}

theorem Loads.claimed (hm : Loads d i m) (h : Sound d) (hexclusive : Exclusive d) :
    m ∈ d.claimed := by
  obtain ⟨b, hb, chunk, hchunk, hm⟩ := hm
  exact hexclusive.claimed chunk ((h.loads b (List.mem_of_getElem? hb)).free chunk hchunk) m hm

theorem Loads.not_mem_bucket (hm : Loads d i m) (h : Sound d) (hexclusive : Exclusive d)
    (hbucket : Standing d bucket) : m ∉ bucket.modules :=
  fun hmem => hbucket.unclaimed_of_mem hmem (hm.claimed h hexclusive)

theorem Loads.extract (hm : Loads d i m) (h : Sound d) (hasync : ReusesAsync d bucket) :
    Loads (d.extract p bucket) i m := by
  obtain ⟨b, hb, chunk, hchunk, hm⟩ := hm
  have hfree := (h.loads b (List.mem_of_getElem? hb)).free chunk hchunk
  exact ⟨_, boundary_extract h hasync hb, chunk, mem_loads_after hchunk,
    mem_modulesOf_extract_of_free h hasync hfree hm⟩

theorem loads_target (h : Sound d) (hasync : ReusesAsync d bucket) (hi : i ∈ bucket.users)
    (hholds : Holds d i m)
    (hm : m ∈ (d.extract p bucket).modulesOf (targetOf d p bucket)) :
    Loads (d.extract p bucket) i m := by
  obtain ⟨base, hbase, -⟩ := hholds
  obtain ⟨b, hb, -⟩ := baseOf_eq_some.mp hbase
  exact ⟨_, boundary_extract h hasync hb, _, target_mem_of_user hi, hm⟩

theorem loads_of_shared (h : Sound d) (hasync : ReusesAsync d bucket) (hi : i ∈ bucket.users)
    (hholds : Holds d i m) {owner : Nat} (howner : d.baseOf owner = some (targetOf d p bucket))
    (hm : Loads d owner m) (hother : m ∉ d.modulesOf (targetOf d p bucket)) :
    Loads (d.extract p bucket) i m := by
  obtain ⟨base, hbase, hholds⟩ := hholds
  obtain ⟨b, hb, hbase⟩ := baseOf_eq_some.mp hbase
  obtain ⟨first, hfirst, chunk, hchunk, hm⟩ := hm
  obtain ⟨second, hsecond, hreused⟩ := baseOf_eq_some.mp howner
  obtain rfl : first = second := Option.some.inj (hfirst.symm.trans hsecond)
  have howner := List.mem_of_getElem? hfirst
  have hne : b.base ≠ some (targetOf d p bucket) := by
    intro heq
    obtain rfl := Option.some.inj (hbase.symm.trans heq)
    exact hother hholds
  have hnew : targetOf d p bucket ∉ b.loads := fun hmem =>
    (h.loads b (List.mem_of_getElem? hb)).free _ hmem first howner hreused
  refine ⟨_, boundary_extract h hasync hb, chunk, ?_,
    mem_modulesOf_extract_of_free h hasync ((h.loads first howner).free chunk hchunk) hm⟩
  rw [after, loads_dropped, released, if_neg hne, loading, if_pos hi]
  refine mem_withChunk.mpr (.inr (.inr ⟨hnew, ?_⟩))
  rw [needsOf_target_of_base h hasync howner hreused]
  exact hchunk

theorem holds_extract (h : Sound d) (hasync : ReusesAsync d bucket) (hbucket : Standing d bucket)
    (hholds : Holds d i m) (hnot : m ∉ bucket.modules) : Holds (d.extract p bucket) i m := by
  refine (hbucket.holds_extract_iff h hasync).mpr ⟨hholds, ?_⟩
  rintro ⟨c, hc, hid, -⟩
  exact hnot (mem_modules.mpr ⟨c, hc, hid⟩)

theorem Repeats.extract (hm : Repeats d i m) (h : Sound d) (hasync : ReusesAsync d bucket)
    (hbucket : Standing d bucket) (hexclusive : Exclusive d) :
    Repeats (d.extract p bucket) i m :=
  ⟨holds_extract h hasync hbucket hm.1 (hm.2.not_mem_bucket h hexclusive hbucket),
    hm.2.extract h hasync⟩

theorem repeats_of_doubles (h : Sound d) (hasync : ReusesAsync d bucket)
    (hbucket : Standing d bucket) (hexclusive : Exclusive d) (hdoubles : Doubles d p bucket) :
    ∃ i m, Repeats (d.extract p bucket) i m := by
  cases hdoubles with
  | @extended i m hi hholds hm hnot =>
      refine ⟨i, m, holds_extract h hasync hbucket hholds hnot, ?_⟩
      exact loads_target h hasync hi hholds
        ((mem_modulesOf_extract_target h hasync).mpr (.inl hm))
  | @shared i owner m hi hholds howner hm =>
      have hnot := hm.not_mem_bucket h hexclusive hbucket
      refine ⟨i, m, holds_extract h hasync hbucket hholds hnot, ?_⟩
      exact loads_of_shared h hasync hi hholds howner hm ((reused_of_base h howner).2 ▸ hnot)
  | @unheeded i m b hi hholds hb htarget hm =>
      refine ⟨i, m, (hbucket.holds_extract_iff h hasync).mpr ⟨hholds, ?_⟩, _,
        boundary_extract h hasync hb, _, mem_loads_after htarget,
        (mem_modulesOf_extract_target h hasync).mpr (.inr hm)⟩
      rintro ⟨c, hc, -, huser⟩
      exact hi (mem_users.mpr ⟨c, hc, huser⟩)

theorem repeats_or_doubles (h : Sound d) (hasync : ReusesAsync d bucket)
    (hbucket : Standing d bucket) (hm : Repeats (d.extract p bucket) i m) :
    Repeats d i m ∨ Doubles d p bucket := by
  obtain ⟨⟨base, hbase, hkept⟩, b', hb', chunk, hchunk, hm⟩ := hm
  rw [getElem?_extract h hasync, Option.map_eq_some_iff] at hb'
  obtain ⟨b, hb, rfl⟩ := hb'
  obtain ⟨hbase, hne⟩ := baseOf_of_extract h hasync hbase
  obtain ⟨hkept, huntaken⟩ := (mem_modulesOf_extract_base h hbase hne).mp hkept
  have hholds : Holds d i m := ⟨base, hbase, hkept⟩
  have huser : i ∈ bucket.users → m ∉ bucket.modules := by
    intro hi hmem
    obtain ⟨c, hc, rfl⟩ := mem_modules.mp hmem
    exact huntaken ⟨c, hc, rfl, hbucket.mem_users hi hc hholds⟩
  have hbase' : b.base ≠ some (targetOf d p bucket) := fun heq =>
    hne (Option.some.inj (hbase.symm.trans (baseOf_eq_some.mpr ⟨b, hb, heq⟩)))
  by_cases htarget : chunk = targetOf d p bucket
  · subst htarget
    rcases mem_loads_of_after hbase' hchunk with hload | ⟨hi, -⟩
    · rcases (mem_modulesOf_extract_target h hasync).mp hm with hold | hnew
      · exact .inl ⟨hholds, b, hb, _, hload, hold⟩
      · exact .inr (.unheeded (fun hi => huser hi hnew) hholds hb hload hnew)
    · rcases (mem_modulesOf_extract_target h hasync).mp hm with hold | hnew
      · exact .inr (.extended hi hholds hold (huser hi))
      · exact absurd hnew (huser hi)
  · have hm := ((mem_modulesOf_extract htarget).mp hm).1
    rcases mem_loads_of_after hbase' hchunk with hload | ⟨hi, heq | hneeds⟩
    · exact .inl ⟨hholds, b, hb, chunk, hload, hm⟩
    · exact absurd heq htarget
    · -- Only a reused base chunk needs others: those that its boundary loads.
      by_cases hfree : Free d (targetOf d p bucket)
      · rw [needsOf_target_of_free h hfree] at hneeds
        exact absurd hneeds List.not_mem_nil
      · rw [free_iff, not_forall] at hfree
        obtain ⟨owner, howner⟩ := hfree
        obtain ⟨b', hb', hreused⟩ := baseOf_eq_some.mp (not_not.mp howner)
        rw [needsOf_target_of_base h hasync (List.mem_of_getElem? hb') hreused] at hneeds
        exact .inr (.shared hi hholds (not_not.mp howner) ⟨b', hb', chunk, hneeds, hm⟩)

theorem repeats_iff_doubles (s : Splitting) (g : ModuleGraph) :
    (∃ i m, Repeats (s.draft g) i m) ↔
      ∃ p bucket d part, Extracts s g p bucket d part ∧ Doubles d p part := by
  constructor
  · intro hrepeats
    by_contra hnone
    -- Nothing is loaded besides base chunks at first, and no extraction begins to repeat.
    have hnever : ∀ i m, ¬ Repeats (s.draft g) i m := by
      refine of_steps (P := fun d => ∀ i m, ¬ Repeats d i m) .refl reaches_draft ?_ ?_
      · rintro i m ⟨-, b, hb, chunk, hchunk, -⟩
        rw [loads_ofGraph (List.mem_of_getElem? hb)] at hchunk
        exact List.not_mem_nil hchunk
      · intro p bucket d part h hnever i m hm
        rcases repeats_or_doubles h.invariant.sound h.reusesAsync
          (standing_of_extracts h) hm with hold | hdoubles
        · exact hnever i m hold
        · exact hnone ⟨p, bucket, d, part, h, hdoubles⟩
    obtain ⟨i, m, hm⟩ := hrepeats
    exact hnever i m hm
  · rintro ⟨p, bucket, d, part, h, hdoubles⟩
    obtain ⟨i, m, hm⟩ := repeats_of_doubles h.invariant.sound h.reusesAsync
      (standing_of_extracts h) (exclusive_of_extracts h) hdoubles
    obtain ⟨policies, pending, hreaches⟩ := h.reaches_extract
    refine ⟨i, m, of_steps (P := fun d => Repeats d i m) hreaches (steps_draft hreaches) hm ?_⟩
    intro p bucket d part h hm
    exact hm.extract h.invariant.sound h.reusesAsync (standing_of_extracts h)
      (exclusive_of_extracts h)

/-- No two chunks of a list have a module in common. -/
def Separate (cg : ChunkGraph) (ids : List ChunkId) : Prop :=
  ids.Pairwise fun first second => ∀ c c', cg.chunks[first]? = some c →
    cg.chunks[second]? = some c' → ∀ m ∈ c.modules, m ∉ c'.modules

variable {cg : ChunkGraph} {b : Boundary}

theorem separate_groupOf_iff (hcg : Built g d cg) :
    Separate cg (Draft.groupOf d.kept b).chunks ↔
      (loadsOf b).Pairwise fun first second => ∀ m ∈ d.modulesOf first, m ∉ d.modulesOf second := by
  rw [Separate, chunks_groupOf, numbers, List.pairwise_filterMap]
  refine List.Pairwise.iff fun first second => ?_
  constructor
  · intro h m hm hm'
    obtain ⟨id, c, hid, hc, heq⟩ := hcg.exists_chunk hm
    obtain ⟨id', c', hid', hc', heq'⟩ := hcg.exists_chunk hm'
    exact h id hid id' hid' c c' hc hc' m (heq ▸ hm) (heq' ▸ hm')
  · intro h id hid id' hid' c c' hc hc' m hm
    rw [hcg.modules_eq hid hc] at hm
    rw [hcg.modules_eq hid' hc']
    exact h m hm

/-- The chunks that policies made have no module in common, so the base chunk is the only one to
share modules with others. -/
theorem separate_iff_repeats (hcg : Built g d cg) (h : Sound d) (hexclusive : Exclusive d)
    (hb : d.boundaries[i]? = some b) :
    Separate cg (Draft.groupOf d.kept b).chunks ↔ ∀ m, ¬ Repeats d i m := by
  have hloads := h.loads b (List.mem_of_getElem? hb)
  rw [separate_groupOf_iff hcg, loadsOf, List.pairwise_append]
  constructor
  · rintro ⟨-, -, happart⟩ m ⟨⟨base, hbase, hm⟩, b', hb', chunk, hchunk, hm'⟩
    obtain rfl : b = b' := Option.some.inj (hb.symm.trans hb')
    obtain ⟨b', hb', hbase⟩ := baseOf_eq_some.mp hbase
    obtain rfl : b = b' := Option.some.inj (hb.symm.trans hb')
    exact happart chunk hchunk base (Option.mem_toList.mpr hbase) m hm' hm
  · intro hnever
    refine ⟨hloads.nodup.imp_of_mem ?_, ?_, ?_⟩
    · intro first second hfirst hsecond hne m hm hm'
      exact hne (hexclusive.unique first second m (hloads.free first hfirst)
        (hloads.free second hsecond) hm hm')
    · cases b.base <;> simp
    · intro chunk hchunk base hbase m hm hm'
      have hbase' : d.baseOf i = some base := baseOf_eq_some.mpr ⟨b, hb, by simpa using hbase⟩
      exact hnever m ⟨⟨base, hbase', hm'⟩, b, hb, chunk, hchunk, hm⟩

def sharedScript : ModuleGraph where
  modules := [
    { key := "./src/c.js", path := ⟨"/p/src/c.js"⟩, origin := .source
      dependencies := [⟨"./b", 2, .static⟩] },
    { key := "./src/e.js", path := ⟨"/p/src/e.js"⟩, origin := .source
      dependencies := [⟨"./b", 2, .dynamic⟩] },
    { key := "./src/b.js", path := ⟨"/p/src/b.js"⟩, origin := .source
      dependencies := [⟨"./m.css", 3, .static⟩] },
    { key := "./src/m.css", path := ⟨"/p/src/m.css"⟩, origin := .source, type := .style
      artifact := ⟨.style, .empty⟩ }]
  entries := [("c", 0), ("e", 1)]

theorem wellFormed_sharedScript : WellFormed sharedScript := ⟨by decide, by decide⟩

/-- The chunks of every group have no module in common, if and only if no extraction makes a
boundary load a module that its base chunk keeps. -/
theorem groups_separate_iff (s : Splitting) (g : ModuleGraph) :
    ∃ cg, s.chunkGraph g = .ok cg ∧
      ((∀ group ∈ groups cg, Separate cg group.chunks) ↔
        ∀ p bucket d part, Extracts s g p bucket d part → ¬ Doubles d p part) := by
  have hinvariant : Invariant g (s.draft g) := invariant_draft
  have hexclusive : Exclusive (s.draft g) := exclusive_draft
  obtain ⟨cg, hcg⟩ := exists_toChunkGraph g hinvariant.sound
  have hbuilt := built_of_toChunkGraph hinvariant hcg
  refine ⟨cg, hcg, ?_⟩
  rw [groups, hbuilt.groups]
  constructor
  · intro hseparate p bucket d part hextracts hdoubles
    obtain ⟨i, m, hm⟩ := (repeats_iff_doubles s g).mpr ⟨p, bucket, d, part, hextracts, hdoubles⟩
    obtain ⟨-, b, hb, -⟩ := id hm
    exact (separate_iff_repeats hbuilt hinvariant.sound hexclusive hb).mp
      (hseparate _ (List.mem_map_of_mem (List.mem_of_getElem? hb))) m hm
  · intro hnone group hgroup
    obtain ⟨b, hb, rfl⟩ := List.mem_map.mp hgroup
    obtain ⟨i, hi⟩ := List.mem_iff_getElem?.mp hb
    refine (separate_iff_repeats hbuilt hinvariant.sound hexclusive hi).mpr fun m hm => ?_
    obtain ⟨p, bucket, d, part, hextracts, hdoubles⟩ :=
      (repeats_iff_doubles s g).mp ⟨i, m, hm⟩
    exact hnone p bucket d part hextracts hdoubles

theorem groups_separate_iff_scripts : WellFormed sharedScript ∧
    ∃ cg, scriptSplitting.chunkGraph sharedScript = .ok cg ∧
      ((∀ group ∈ groups cg, Separate cg group.chunks) ↔
        ∀ p bucket d part, Extracts scriptSplitting sharedScript p bucket d part →
          ¬ Doubles d p part) :=
  ⟨wellFormed_sharedScript, groups_separate_iff scriptSplitting sharedScript⟩

/-- An entry may load a script twice: in its base chunk, and in a chunk that comes with the reused
base chunk of a boundary that imports the script on demand. -/
theorem entry_loads_script_twice :
    Splitting.ofOptions scriptOptions .development = .ok scriptSplitting ∧
      WellFormed sharedScript ∧
      ∃ cg, scriptSplitting.chunkGraph sharedScript = .ok cg ∧
        ∃ group ∈ cg.entrypoints, ¬ Separate cg group.chunks := by
  have hinvariant : Invariant sharedScript (scriptSplitting.draft sharedScript) :=
    invariant_draft
  have hbase : (scriptSplitting.draft sharedScript).baseOf 0 = some 0 := by decide +kernel
  have hheld : ((scriptSplitting.draft sharedScript).modulesOf 0).contains 2 = true := by
    decide +kernel
  have hloaded : (scriptSplitting.draft sharedScript).boundaries[0]?.any (fun b =>
      b.initial && b.loads.any fun chunk =>
        ((scriptSplitting.draft sharedScript).modulesOf chunk).contains 2) = true := by
    decide +kernel
  obtain ⟨b, hb, hloaded⟩ := (Option.any_eq_true _ _).mp hloaded
  obtain ⟨hinitial, hloaded⟩ := (Bool.and_eq_true _ _).mp hloaded
  obtain ⟨chunk, hchunk, hm⟩ := List.any_eq_true.mp hloaded
  obtain ⟨cg, hcg⟩ := exists_toChunkGraph sharedScript hinvariant.sound
  have hbuilt := built_of_toChunkGraph hinvariant hcg
  refine ⟨ofOptions_scriptOptions, wellFormed_sharedScript, cg, hcg, _,
    hbuilt.mem_entrypoints_iff.mpr ⟨b, List.mem_of_getElem? hb, hinitial, rfl⟩, ?_⟩
  intro hseparate
  have hexclusive : Exclusive (scriptSplitting.draft sharedScript) := exclusive_draft
  exact (separate_iff_repeats hbuilt hinvariant.sound hexclusive hb).mp hseparate 2
    ⟨⟨0, hbase, hheld⟩, b, hb, chunk, hchunk, hm⟩

end WebBundle.Proofs.RepeatedDownloads
