import WebBundle.Proofs.PendingBuckets

namespace WebBundle.Proofs.ExtractedChunks

open Relation
open WebBundle.Proofs.DraftInvariant
open WebBundle.Proofs.Extraction
open WebBundle.Proofs.ExtractionInvariant
open WebBundle.Proofs.InitialDraft
open WebBundle.Proofs.ModuleReach
open WebBundle.Proofs.PendingBuckets
open WebBundle.Proofs.SplittingRun

variable {s : Splitting} {g : ModuleGraph} {p : Policy} {d : Draft} {bucket part : Bucket}
variable {chunk : Nat} {m : ModuleId}

theorem free_iff : Free d chunk ↔ ∀ i, d.baseOf i ≠ some chunk := by
  constructor
  · intro hfree i hbase
    obtain ⟨b, hb, hbase⟩ := baseOf_eq_some.mp hbase
    exact hfree b (List.mem_of_getElem? hb) hbase
  · intro h b hb hbase
    obtain ⟨i, hi⟩ := List.mem_iff_getElem?.mp hb
    exact h i (baseOf_eq_some.mpr ⟨b, hi, hbase⟩)

theorem free_extract (h : Sound d) (hasync : ReusesAsync d bucket) (hfree : Free d chunk) :
    Free (d.extract p bucket) chunk :=
  free_iff.mpr fun i hbase => free_iff.mp hfree i (baseOf_of_extract h hasync hbase).1

theorem free_target (h : Sound d) (hasync : ReusesAsync d bucket) :
    Free (d.extract p bucket) (targetOf d p bucket) :=
  free_iff.mpr fun _ hbase => (baseOf_of_extract h hasync hbase).2 rfl

theorem mem_modulesOf_extract_of_free (h : Sound d) (hasync : ReusesAsync d bucket)
    (hfree : Free d chunk) (hm : m ∈ d.modulesOf chunk) :
    m ∈ (d.extract p bucket).modulesOf chunk := by
  by_cases htarget : chunk = targetOf d p bucket
  · rw [htarget, mem_modulesOf_extract_target h hasync]
    exact .inl (htarget ▸ hm)
  · refine (mem_modulesOf_extract htarget).mpr ⟨hm, ?_⟩
    rintro ⟨c, -, -, i, -, hbase⟩
    exact free_iff.mp hfree i hbase

theorem mem_of_free_extract (h : Sound d) (hasync : ReusesAsync d bucket)
    (hfree : Free (d.extract p bucket) chunk) (hm : m ∈ (d.extract p bucket).modulesOf chunk) :
    (chunk = targetOf d p bucket ∧ m ∈ bucket.modules) ∨
      (Free d chunk ∧ m ∈ d.modulesOf chunk) := by
  by_cases htarget : chunk = targetOf d p bucket
  · subst htarget
    rcases (mem_modulesOf_extract_target h hasync).mp hm with hold | hnew
    · by_cases hfree' : Free d (targetOf d p bucket)
      · exact .inr ⟨hfree', hold⟩
      · rw [free_iff, not_forall] at hfree'
        obtain ⟨i, hbase⟩ := hfree'
        exact .inl ⟨rfl, (reused_of_base h (not_not.mp hbase)).2 ▸ hold⟩
    · exact .inl ⟨rfl, hnew⟩
  · refine .inr ⟨free_iff.mpr fun i hbase => ?_, ((mem_modulesOf_extract htarget).mp hm).1⟩
    exact free_iff.mp hfree i (baseOf_extract h hasync hbase htarget hm)

structure Exclusive (d : Draft) : Prop where
  claimed : ∀ chunk, Free d chunk → ∀ m ∈ d.modulesOf chunk, m ∈ d.claimed
  unique : ∀ first second m, Free d first → Free d second → m ∈ d.modulesOf first →
    m ∈ d.modulesOf second → first = second

theorem Exclusive.extract (hexclusive : Exclusive d) (h : Sound d) (hasync : ReusesAsync d bucket)
    (hbucket : Standing d bucket) : Exclusive (d.extract p bucket) where
  claimed := by
    intro chunk hfree m hm
    rw [claimed_extract, IdSet.mem_union]
    rcases mem_of_free_extract h hasync hfree hm with ⟨-, hnew⟩ | ⟨hfree, hold⟩
    · exact .inr hnew
    · exact .inl (hexclusive.claimed chunk hfree m hold)
  unique := by
    intro first second m hfirst hsecond hm hm'
    -- What is new in the chunk of the extraction was claimed by nobody, so it is in no other.
    rcases mem_of_free_extract h hasync hfirst hm with ⟨rfl, hnew⟩ | ⟨hfirst, hold⟩
    · rcases mem_of_free_extract h hasync hsecond hm' with ⟨rfl, -⟩ | ⟨hsecond, hold⟩
      · rfl
      · exact absurd (hexclusive.claimed second hsecond m hold) (hbucket.unclaimed_of_mem hnew)
    · rcases mem_of_free_extract h hasync hsecond hm' with ⟨-, hnew⟩ | ⟨hsecond, hold'⟩
      · exact absurd (hexclusive.claimed first hfirst m hold) (hbucket.unclaimed_of_mem hnew)
      · exact hexclusive.unique first second m hfirst hsecond hold hold'

theorem exclusive_ofGraph : Exclusive (Draft.ofGraph g) where
  claimed := fun _ hfree _ hm => absurd hfree (not_free_ofGraph hm)
  unique := fun _ _ _ hfree _ hm _ => absurd hfree (not_free_ofGraph hm)

theorem exclusive_of_reaches {progress : Progress}
    (h : Reaches s g progress) : Exclusive progress.draft := by
  refine of_steps (P := Exclusive) .refl h exclusive_ofGraph ?_
  intro p bucket d part hextracts hexclusive
  exact hexclusive.extract hextracts.invariant.sound hextracts.reusesAsync
    (standing_of_extracts hextracts)

theorem exclusive_of_extracts (h : Extracts s g p bucket d part) :
    Exclusive d := by
  obtain ⟨policies, pending, hreaches⟩ := h.reaches
  exact exclusive_of_reaches hreaches

theorem exclusive_draft : Exclusive (s.draft g) :=
  exclusive_of_reaches reaches_draft

theorem modules_of_steps {progress next : Progress}
    (h : Reaches s g progress) (hsteps : ReflTransGen (Step s g) progress next)
    {modules : IdSet} (hfree : Free progress.draft chunk)
    (hmodules : ∀ m ∈ modules, m ∈ progress.draft.modulesOf chunk) :
    Free next.draft chunk ∧ ∀ m ∈ modules, m ∈ next.draft.modulesOf chunk := by
  refine of_steps (P := fun d => Free d chunk ∧ ∀ m ∈ modules, m ∈ d.modulesOf chunk) h hsteps
    ⟨hfree, hmodules⟩ ?_
  rintro p bucket d part hextracts ⟨hfree, hmodules⟩
  have hsound := hextracts.invariant.sound
  have hasync := hextracts.reusesAsync
  exact ⟨free_extract hsound hasync hfree,
    fun m hm => mem_modulesOf_extract_of_free hsound hasync hfree (hmodules m hm)⟩

/-- The chunk that takes the modules of an extraction is no base chunk in the end, and has them. -/
theorem target_of_extracts (h : Extracts s g p bucket d part) :
    Free (s.draft g) (targetOf d p part) ∧
      ∀ m ∈ part.modules, m ∈ (s.draft g).modulesOf (targetOf d p part) := by
  have hsound := h.invariant.sound
  have hasync := h.reusesAsync
  obtain ⟨policies, pending, hreaches⟩ := h.reaches_extract
  exact modules_of_steps hreaches (steps_draft hreaches) (free_target hsound hasync)
    fun m hm => (mem_modulesOf_extract_target hsound hasync).mpr (.inr hm)

end WebBundle.Proofs.ExtractedChunks
