import Mathlib.Data.List.Induction
import Mathlib.Data.List.Nodup
import WebBundle.Chunk.Draft

namespace WebBundle.Proofs.LoadList

/-- The chunks that a draft of a chunk needs. -/
def needsOf (chunks : List DraftChunk) (chunk : Nat) : List Nat :=
  (chunks[chunk]?.map DraftChunk.dependencies).getD []

/-- Every chunk of a list comes behind those that it needs. -/
def NeedsFirst (needs : Nat → List Nat) (loads : List Nat) : Prop :=
  ∀ before chunk after, loads = before ++ chunk :: after → ∀ n ∈ needs chunk, n ∈ before

/-- The chunks of a list that are not loaded. -/
def missing (loads needed : List Nat) : List Nat := needed.filter fun n => !loads.contains n

theorem mem_missing {loads needed : List Nat} {n : Nat} :
    n ∈ missing loads needed ↔ n ∈ needed ∧ n ∉ loads := by
  simp [missing]

variable {needs : Nat → List Nat} {loads : List Nat}

theorem needsFirst_nil : NeedsFirst needs [] := by
  intro before chunk after h
  simp at h

theorem needsFirst_concat {chunk : Nat} :
    NeedsFirst needs (loads ++ [chunk]) ↔
      NeedsFirst needs loads ∧ ∀ n ∈ needs chunk, n ∈ loads := by
  constructor
  · intro h
    refine ⟨?_, fun n hn => h loads chunk [] rfl n hn⟩
    rintro before other after rfl n hn
    exact h before other (after ++ [chunk]) (by simp) n hn
  · rintro ⟨hloads, hchunk⟩ before other after heq n hn
    rcases List.eq_nil_or_concat after with rfl | ⟨after, last, rfl⟩
    · obtain ⟨rfl, hlast⟩ := List.append_inj' heq rfl
      obtain rfl : chunk = other := by simpa using hlast
      exact hchunk n hn
    · have heq' : loads ++ [chunk] = (before ++ other :: after) ++ [last] := by simpa using heq
      obtain ⟨rfl, -⟩ := List.append_inj' heq' rfl
      exact hloads before other after rfl n hn

theorem NeedsFirst.congr {needs' : Nat → List Nat} (h : NeedsFirst needs loads)
    (heq : ∀ chunk ∈ loads, needs' chunk = needs chunk) : NeedsFirst needs' loads := by
  rintro before chunk after rfl n hn
  rw [heq chunk (by simp)] at hn
  exact h before chunk after rfl n hn

theorem NeedsFirst.append_missing {needed : List Nat} (h : NeedsFirst needs loads)
    (hneeded : NeedsFirst needs needed) : NeedsFirst needs (loads ++ missing loads needed) := by
  induction needed using List.reverseRecOn with
  | nil => simpa [missing] using h
  | append_singleton needed last ih =>
      obtain ⟨hneeded, hlast⟩ := needsFirst_concat.mp hneeded
      have ih := ih hneeded
      by_cases hloaded : last ∈ loads
      · simpa [missing, hloaded] using ih
      · have hsplit : loads ++ missing loads (needed ++ [last]) =
            (loads ++ missing loads needed) ++ [last] := by
          simp [missing, hloaded]
        rw [hsplit]
        refine needsFirst_concat.mpr ⟨ih, fun n hn => ?_⟩
        by_cases hn' : n ∈ loads
        · exact List.mem_append_left _ hn'
        · exact List.mem_append_right _ (mem_missing.mpr ⟨hlast n hn, hn'⟩)

/-- What is loaded once a chunk was added: its missing needs and the chunk itself come last. -/
def withChunk (chunks : List DraftChunk) (loads : List Nat) (chunk : Nat) : List Nat :=
  if chunk ∈ loads then loads else loads ++ missing loads (needsOf chunks chunk) ++ [chunk]

variable {chunks : List DraftChunk} {base : Option Nat}

theorem addLoad_of_mem {depth chunk : Nat} (h : chunk ∈ loads) :
    Draft.addLoad chunks base depth loads chunk = loads := by
  cases depth with
  | zero => rfl
  | succ depth => simp [Draft.addLoad, h]

theorem foldl_addLoad_of_mem {depth : Nat} {added : List Nat} (h : ∀ n ∈ added, n ∈ loads) :
    added.foldl (Draft.addLoad chunks base depth) loads = loads := by
  induction added with
  | nil => rfl
  | cons first rest ih =>
      rw [List.foldl_cons, addLoad_of_mem (h first (by simp))]
      exact ih fun n hn => h n (by simp [hn])

theorem addLoad_succ {depth chunk : Nat} (hbase : base ≠ some chunk) :
    Draft.addLoad chunks base (depth + 1) loads chunk =
      if chunk ∈ loads then loads
      else (needsOf chunks chunk).foldl (Draft.addLoad chunks base depth) loads ++ [chunk] := by
  simp [Draft.addLoad, needsOf, hbase]

/-- Adding chunks in an order in which each comes behind those that it needs puts the missing
ones behind the list. The chunks before `rest` are loaded already, so no addition goes deeper
than one step. -/
theorem foldl_addLoad {depth : Nat} {before rest : List Nat}
    (hordered : NeedsFirst (needsOf chunks) (before ++ rest)) (hnodup : rest.Nodup)
    (hloaded : ∀ n ∈ before, n ∈ loads) (hbase : ∀ n ∈ rest, base ≠ some n) :
    rest.foldl (Draft.addLoad chunks base (depth + 1)) loads = loads ++ missing loads rest := by
  induction rest generalizing before loads with
  | nil => simp [missing]
  | cons first rest ih =>
      have hneeds : ∀ n ∈ needsOf chunks first, n ∈ loads :=
        fun n hn => hloaded n (hordered before first rest rfl n hn)
      obtain ⟨hfresh, hnodup⟩ := List.nodup_cons.mp hnodup
      have hordered' : NeedsFirst (needsOf chunks) ((before ++ [first]) ++ rest) := by
        simpa using hordered
      have hbase' : ∀ n ∈ rest, base ≠ some n := fun n hn => hbase n (by simp [hn])
      rw [List.foldl_cons, addLoad_succ (hbase first (by simp)), foldl_addLoad_of_mem hneeds]
      by_cases hfirst : first ∈ loads
      · have hloaded' : ∀ n ∈ before ++ [first], n ∈ loads := by
          intro n hn
          rcases List.mem_append.mp hn with hn | hn
          · exact hloaded n hn
          · exact List.mem_singleton.mp hn ▸ hfirst
        rw [if_pos hfirst, ih hordered' hnodup hloaded' hbase']
        simp [missing, hfirst]
      · have hloaded' : ∀ n ∈ before ++ [first], n ∈ loads ++ [first] := by
          intro n hn
          rcases List.mem_append.mp hn with hn | hn
          · exact List.mem_append_left _ (hloaded n hn)
          · exact List.mem_append_right _ hn
        rw [if_neg hfirst, ih hordered' hnodup hloaded' hbase']
        have hrest : missing (loads ++ [first]) rest = missing loads rest := by
          apply List.filter_congr
          intro n hn
          have hne : n ≠ first := fun heq => hfresh (heq ▸ hn)
          simp [hne]
        rw [hrest]
        simp [missing, hfirst]

theorem addLoad_eq_withChunk {depth chunk : Nat} (hbase : base ≠ some chunk)
    (hneeds : ∀ n ∈ needsOf chunks chunk, base ≠ some n)
    (hordered : NeedsFirst (needsOf chunks) (needsOf chunks chunk))
    (hnodup : (needsOf chunks chunk).Nodup)
    (hdepth : needsOf chunks chunk ≠ [] → 0 < depth) :
    Draft.addLoad chunks base (depth + 1) loads chunk = withChunk chunks loads chunk := by
  rw [addLoad_succ hbase, withChunk]
  split
  · rfl
  · congr 1
    cases depth with
    | zero =>
        have hnil : needsOf chunks chunk = [] := by
          by_contra hne
          exact absurd (hdepth hne) (Nat.lt_irrefl 0)
        simp [hnil, missing]
    | succ depth =>
        have hordered' : NeedsFirst (needsOf chunks) ([] ++ needsOf chunks chunk) := hordered
        exact foldl_addLoad hordered' hnodup (by simp) hneeds

theorem mem_withChunk {chunk n : Nat} :
    n ∈ withChunk chunks loads chunk ↔
      n ∈ loads ∨ n = chunk ∨ (chunk ∉ loads ∧ n ∈ needsOf chunks chunk) := by
  rw [withChunk]
  split
  · next h =>
      constructor
      · exact .inl
      · rintro (hn | rfl | ⟨hout, -⟩)
        · exact hn
        · exact h
        · exact absurd h hout
  · next h =>
      simp only [List.mem_append, mem_missing, List.mem_singleton]
      by_cases hn : n ∈ loads
      · simp [hn]
      · simp [hn, h, or_comm]

theorem subset_withChunk {chunk n : Nat} (hn : n ∈ loads) : n ∈ withChunk chunks loads chunk :=
  mem_withChunk.mpr (.inl hn)

theorem nodup_withChunk {chunk : Nat} (hnodup : loads.Nodup)
    (hneeds : (needsOf chunks chunk).Nodup) (hself : chunk ∉ needsOf chunks chunk) :
    (withChunk chunks loads chunk).Nodup := by
  rw [withChunk]
  split
  · exact hnodup
  · next h =>
      rw [List.append_assoc]
      refine List.Nodup.append hnodup ?_ ?_
      · refine List.Nodup.append (hneeds.filter _) (List.nodup_singleton chunk) ?_
        intro n hn hchunk
        obtain rfl := List.mem_singleton.mp hchunk
        exact hself (mem_missing.mp hn).1
      · intro n hn hadded
        rcases List.mem_append.mp hadded with hmissing | hchunk
        · exact (mem_missing.mp hmissing).2 hn
        · obtain rfl := List.mem_singleton.mp hchunk
          exact h hn

theorem NeedsFirst.withChunk {chunk : Nat} (h : NeedsFirst (needsOf chunks) loads)
    (hneeds : NeedsFirst (needsOf chunks) (needsOf chunks chunk)) :
    NeedsFirst (needsOf chunks) (withChunk chunks loads chunk) := by
  rw [LoadList.withChunk]
  split
  · exact h
  · refine needsFirst_concat.mpr ⟨h.append_missing hneeds, fun n hn => ?_⟩
    by_cases hn' : n ∈ loads
    · exact List.mem_append_left _ hn'
    · exact List.mem_append_right _ (mem_missing.mpr ⟨hn, hn'⟩)

theorem length_withChunk {chunk : Nat} (h : chunk ∉ loads) :
    (withChunk chunks loads chunk).length =
      loads.length + (missing loads (needsOf chunks chunk)).length + 1 := by
  simp [withChunk, h, Nat.add_assoc]

end WebBundle.Proofs.LoadList
