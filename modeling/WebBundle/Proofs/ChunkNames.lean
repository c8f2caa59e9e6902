import Mathlib.Data.List.Perm.Subperm
import WebBundle.Proofs.ChunkOrder

namespace WebBundle.Proofs.ChunkNames

open WebBundle.Proofs.BoundaryMembers
open WebBundle.Proofs.ChunkNumbering
open WebBundle.Proofs.ChunkOrder
open WebBundle.Proofs.DraftInvariant
open WebBundle.Proofs.Extraction
open WebBundle.Proofs.ExtractionInvariant
open WebBundle.Proofs.InitialDraft
open WebBundle.Proofs.ModuleReach
open WebBundle.Proofs.SplittingRun

/-- A name with a number behind it, which is left out if it is zero. -/
def variant (name : String) (n : Nat) : String :=
  if n = 0 then name else name ++ "-" ++ toString n

theorem freshName_eq (taken : List String) (name : String) : Boundary.freshName taken name =
    ((List.range (taken.length + 1)).find? fun n => !taken.contains (variant name n)).elim name
      (variant name) :=
  rfl

theorem variant_injective (name : String) : Function.Injective (variant name) := by
  have hlonger : ∀ n : Nat, name ≠ name ++ "-" ++ toString n := by
    intro n heq
    have hlength := congrArg String.length heq
    rw [String.length_append, String.length_append] at hlength
    have hmark : "-".length = 1 := rfl
    omega
  intro n k h
  rw [variant, variant] at h
  split_ifs at h with hn hk hk
  · exact hn.trans hk.symm
  · exact absurd h (hlonger k)
  · exact absurd h.symm (hlonger n)
  · have hlist := congrArg String.toList h
    simp only [String.toList_append, List.append_cancel_left_eq, Nat.toString_eq_ofList_toDigits,
      String.toList_ofList] at hlist
    rw [← Nat.ofDigitChars_ten_toDigits (n := n), hlist, Nat.ofDigitChars_ten_toDigits]

theorem freshName_not_mem (taken : List String) (name : String) :
    Boundary.freshName taken name ∉ taken := by
  rw [freshName_eq]
  cases hfound : (List.range (taken.length + 1)).find? fun n =>
      !taken.contains (variant name n) with
  | some n => simpa using List.find?_some hfound
  | none =>
      -- All variants would be taken, but there are more of them than names that are taken.
      have htaken : (List.range (taken.length + 1)).map (variant name) ⊆ taken := by
        intro variant' hvariant
        obtain ⟨n, hn, rfl⟩ := List.mem_map.mp hvariant
        simpa using List.find?_eq_none.mp hfound n hn
      have hnodup := List.nodup_range (n := taken.length + 1).map (variant_injective name)
      have hlength := (hnodup.subperm htaken).length_le
      rw [List.length_map, List.length_range] at hlength
      exact absurd hlength (Nat.not_succ_le_self _)

theorem freshName_of_not_mem {taken : List String} {name : String} (h : name ∉ taken) :
    Boundary.freshName taken name = name := by
  have hzero : variant name 0 = name := rfl
  rw [freshName_eq, List.range_succ_eq_map, List.find?_cons_of_pos (by simpa [hzero] using h)]
  rfl

/-- What the name of a boundary stands for. -/
def label (b : Boundary) : String × ModuleId := (b.name, b.root)

variable {initial : Bool} {wanted : List (String × ModuleId)} {done : List Boundary}

theorem nodup_addAll (h : (done.map Boundary.name).Nodup) :
    ((Boundary.addAll initial wanted done).map Boundary.name).Nodup := by
  induction wanted generalizing done with
  | nil => exact h
  | cons w rest ih =>
      apply ih
      rw [List.map_append, List.map_singleton, ← List.concat_eq_append]
      exact h.concat (freshName_not_mem _ _)

theorem exists_addAll (initial : Bool) (wanted : List (String × ModuleId)) (done : List Boundary) :
    ∃ added, Boundary.addAll initial wanted done = done ++ added ∧
      ∀ b ∈ added, b.initial = initial := by
  induction wanted generalizing done with
  | nil => exact ⟨[], (List.append_nil done).symm, by simp⟩
  | cons w rest ih =>
      obtain ⟨added, hadded, hinitial⟩ := ih (done ++ [_])
      refine ⟨_ :: added, by rw [Boundary.addAll, hadded, List.append_assoc]; rfl, ?_⟩
      simpa using hinitial

theorem labels_addAll (h : (done.map Boundary.name ++ wanted.map Prod.fst).Nodup) :
    (Boundary.addAll initial wanted done).map label = done.map label ++ wanted := by
  induction wanted generalizing done with
  | nil => simp [Boundary.addAll]
  | cons w rest ih =>
      have hnew : w.1 ∉ done.map Boundary.name := fun hmem =>
        (List.nodup_append.mp h).2.2 w.1 hmem w.1 (by simp) rfl
      rw [Boundary.addAll, freshName_of_not_mem hnew, ih (by simpa using h)]
      simp [label]

variable {g : ModuleGraph}

theorem names_ofGraph (g : ModuleGraph) : ((Boundary.ofGraph g).map Boundary.name).Nodup :=
  nodup_addAll (nodup_addAll List.nodup_nil)

theorem entries_ofGraph (hnames : (g.entries.map Prod.fst).Nodup) :
    ((Boundary.ofGraph g).filter (·.initial)).map label = g.entries := by
  obtain ⟨entries, hentries, hinitial⟩ := exists_addAll true g.entries []
  obtain ⟨targets, htargets, hlate⟩ := exists_addAll false
    (g.dynamicTargets.map fun root => (Boundary.asyncName (g.get root), root))
    (Boundary.addAll true g.entries [])
  have hlabels : entries.map label = g.entries := by
    rw [← List.nil_append entries, ← hentries, labels_addAll (by simpa using hnames)]
    rfl
  rw [Boundary.ofGraph, htargets, hentries, List.nil_append, List.filter_append,
    List.filter_eq_self.mpr hinitial, List.filter_eq_nil_iff.mpr fun b hb => by simp [hlate b hb],
    List.append_nil, hlabels]

theorem entrypoints_eq_entries {d : Draft} {cg : ChunkGraph} (h : Invariant g d)
    (hcg : Built g d cg) (hnames : (g.entries.map Prod.fst).Nodup) :
    cg.entrypoints.map (fun group => (group.name, group.root)) = g.entries := by
  have hgroups : cg.entrypoints = (groups cg).filter (·.initial) := by
    rw [groups, List.filter_append, List.filter_eq_self.mpr hcg.initial,
      List.filter_eq_nil_iff.mpr fun group hgroup => by simp [hcg.not_initial group hgroup],
      List.append_nil]
  rw [hgroups, groups, hcg.groups, ← entries_ofGraph hnames, ← h.boundaries, List.filter_map,
    List.filter_map, List.map_map, List.map_map]
  rfl

/-- The chunks of a draft have different names, and all of these are taken. -/
structure Named (d : Draft) : Prop where
  nodup : (d.chunks.map DraftChunk.name).Nodup
  taken : ∀ c ∈ d.chunks, c.name ∈ d.names

/-- What an extraction leaves as it is of a chunk. -/
def tag (c : DraftChunk) : String × ChunkOrigin := (c.name, c.origin)

variable {d : Draft} {p : Policy} {bucket : Bucket} {t : Nat}

theorem tags_moveModules : (d.moveModules bucket t).chunks.map tag = d.chunks.map tag := by
  apply List.ext_getElem?
  intro i
  rw [List.getElem?_map, List.getElem?_map, getElem?_moveModules, Option.map_map]
  congr 1
  funext c
  rw [Function.comp_apply]
  split <;> rfl

theorem tags_releaseBase : (d.releaseBase t).chunks.map tag = d.chunks.map tag := by
  rw [Draft.releaseBase]
  split
  · rfl
  · next owner _ =>
      apply List.ext_getElem?
      intro i
      rw [List.getElem?_map, List.getElem?_map, List.getElem?_modify]
      cases d.chunks[i]? with
      | none => rfl
      | some c => by_cases h : t = i <;> simp [h, tag]

theorem tags_extract :
    (d.extract p bucket).chunks.map tag = (withTarget d p bucket).chunks.map tag :=
  tags_releaseBase.trans tags_moveModules

theorem names_extract : (d.extract p bucket).names = (withTarget d p bucket).names := by
  show (moved d p bucket).names = _
  rw [moved, Draft.releaseBase]
  split <;> rfl

/-- Either an extraction takes a chunk of the draft, or it adds one with a new name. -/
theorem withTarget_cases (d : Draft) (p : Policy) (bucket : Bucket) :
    withTarget d p bucket = d ∨
      ∃ c, (withTarget d p bucket).chunks = d.chunks ++ [c] ∧ c.name ∉ d.names ∧
        (withTarget d p bucket).names = d.names ++ [c.name] ∧ c.origin = .split p.key := by
  have hcases := target_cases d p bucket.users bucket.modules
  rw [withTarget]
  generalize d.target p bucket.users bucket.modules = target at hcases
  cases hcases with
  | reused => exact .inl rfl
  | extended => exact .inl rfl
  | added => exact .inr ⟨_, rfl, freshName_not_mem _ _, rfl, rfl⟩

theorem Named.withTarget (h : Named d) : Named (withTarget d p bucket) := by
  rcases withTarget_cases d p bucket with heq | ⟨c, hchunks, hnew, hnames, -⟩
  · rwa [heq]
  · refine ⟨?_, ?_⟩
    · rw [hchunks, List.map_append, List.map_singleton, ← List.concat_eq_append]
      refine h.nodup.concat fun hmem => hnew ?_
      obtain ⟨c', hc', heq⟩ := List.mem_map.mp hmem
      exact heq ▸ h.taken c' hc'
    · intro c' hc'
      rw [hnames]
      rw [hchunks] at hc'
      rcases List.mem_append.mp hc' with hc' | hc'
      · exact List.mem_append_left _ (h.taken c' hc')
      · rw [List.mem_singleton.mp hc']
        exact List.mem_append_right _ List.mem_cons_self

theorem names_of_tags (d : Draft) :
    d.chunks.map DraftChunk.name = (d.chunks.map tag).map Prod.fst := by
  rw [List.map_map]
  rfl

theorem Named.extract (h : Named d) : Named (d.extract p bucket) where
  nodup := by
    rw [names_of_tags, tags_extract, ← names_of_tags]
    exact h.withTarget.nodup
  taken := by
    intro c hc
    have hname : c.name ∈ (ExtractionInvariant.withTarget d p bucket).chunks.map DraftChunk.name := by
      rw [names_of_tags, ← tags_extract, ← names_of_tags]
      exact List.mem_map_of_mem hc
    obtain ⟨c', hc', heq⟩ := List.mem_map.mp hname
    rw [names_extract, ← heq]
    exact h.withTarget.taken c' hc'

theorem names_baseChunks (pairs : List (Boundary × IdSet)) (chunks : List DraftChunk) :
    ∃ based, based.Sublist (pairs.map fun pair => pair.1.name) ∧
      (Draft.baseChunks pairs chunks).2.map DraftChunk.name =
        chunks.map DraftChunk.name ++ based := by
  induction pairs generalizing chunks with
  | nil => exact ⟨[], List.nil_sublist _, by simp [Draft.baseChunks]⟩
  | cons pair rest ih =>
      obtain ⟨b, modules⟩ := pair
      cases hempty : modules.isEmpty with
      | true =>
          obtain ⟨based, hbased, hnames⟩ := ih chunks
          exact ⟨based, hbased.cons _, by rw [baseChunks_cons_of_isEmpty hempty, hnames]⟩
      | false =>
          obtain ⟨based, hbased, hnames⟩ := ih (chunks ++ [baseChunk b modules])
          refine ⟨b.name :: based, hbased.cons_cons _, ?_⟩
          rw [baseChunks_cons hempty, hnames, List.map_append, List.append_assoc]
          rfl

theorem named_ofGraph (g : ModuleGraph) : Named (Draft.ofGraph g) := by
  have hboundaries : (Draft.ofGraph g).names = (Boundary.ofGraph g).map Boundary.name := by
    show (Draft.ofGraph g).boundaries.map Boundary.name = _
    rw [← map_bare_ofGraph, List.map_map]
    rfl
  obtain ⟨based, hbased, hnames⟩ :=
    names_baseChunks ((Boundary.ofGraph g).zip (Boundary.members g (Boundary.ofGraph g))) []
  have hfirst : ((Boundary.ofGraph g).zip (Boundary.members g (Boundary.ofGraph g))).map Prod.fst =
      Boundary.ofGraph g := List.map_fst_zip (by rw [length_members])
  have hpairs : based.Sublist ((Boundary.ofGraph g).map Boundary.name) := by
    rw [← hfirst, List.map_map]
    exact hbased
  have hchunks : (Draft.ofGraph g).chunks.map DraftChunk.name = based := hnames
  refine ⟨hchunks ▸ hpairs.nodup (names_ofGraph g), fun c hc => ?_⟩
  rw [hboundaries]
  exact hpairs.subset (hchunks ▸ List.mem_map_of_mem hc)

theorem named_draft (s : Splitting) (g : ModuleGraph) : Named (s.draft g) :=
  of_steps .refl reaches_draft (named_ofGraph g) fun _ _ _ _ _ h => h.extract

theorem exists_name {id : ChunkId} {c : Chunk} (hid : (chunksOf g d)[id]? = some c) :
    ∃ chunk draft, d.kept[id]? = some chunk ∧ d.chunks[chunk]? = some draft ∧
      draft.name = c.name ∧ draft.origin = c.origin := by
  rw [getElem?_chunksOf, Option.bind_eq_some_iff] at hid
  obtain ⟨chunk, hchunk, hc⟩ := hid
  obtain ⟨draft, hdraft, rfl⟩ := Option.map_eq_some_iff.mp hc
  exact ⟨chunk, draft, hchunk, hdraft, rfl, rfl⟩

theorem names_chunksOf (h : Named d) : ((chunksOf g d).map Chunk.name).Nodup := by
  rw [List.nodup_iff_getElem?_ne_getElem?]
  intro i j hij hj heq
  rw [List.length_map] at hj
  obtain ⟨chunk, draft, hchunk, hdraft, hname, -⟩ :=
    exists_name (List.getElem?_eq_getElem (hij.trans hj))
  obtain ⟨chunk', draft', hchunk', hdraft', hname', -⟩ := exists_name (List.getElem?_eq_getElem hj)
  rw [List.getElem?_map, List.getElem?_map, List.getElem?_eq_getElem (hij.trans hj),
    List.getElem?_eq_getElem hj, Option.map_some, Option.map_some, ← hname, ← hname',
    Option.some.injEq] at heq
  have hsame : (d.chunks.map DraftChunk.name)[chunk]? = (d.chunks.map DraftChunk.name)[chunk']? := by
    rw [List.getElem?_map, List.getElem?_map, hdraft, hdraft', Option.map_some, Option.map_some, heq]
  have hlt : chunk < (d.chunks.map DraftChunk.name).length := by
    rw [List.length_map]
    exact (List.getElem?_eq_some_iff.mp hdraft).1
  obtain rfl := (List.getElem?_inj hlt h.nodup).mp hsame
  have hkept := (List.getElem?_inj (List.getElem?_eq_some_iff.mp hchunk).1 nodup_kept).mp
    (hchunk.trans hchunk'.symm)
  exact absurd hkept (Nat.ne_of_lt hij)

end WebBundle.Proofs.ChunkNames
