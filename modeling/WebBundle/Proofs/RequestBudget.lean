import WebBundle.Proofs.SplittingRun

namespace WebBundle.Proofs.RequestBudget

open WebBundle.Proofs.DraftInvariant
open WebBundle.Proofs.Extraction
open WebBundle.Proofs.ExtractionInvariant
open WebBundle.Proofs.LoadList
open WebBundle.Proofs.ModuleReach
open WebBundle.Proofs.SplittingRun

/-- Some boundaries load no more chunks than a policy allows. -/
def WithinBudget (p : Policy) (d : Draft) (users : IdSet) : Prop :=
  ∀ i ∈ users, ∀ b, d.boundaries[i]? = some b → b.requests ≤ p.requestLimit b.initial

/-- Whether an extraction takes all that the base chunk of a boundary has. -/
def emptied (d : Draft) (bucket : Bucket) (i : Nat) (b : Boundary) : Bool :=
  b.base.any fun base => (d.modulesOf base).toList.all (bucket.takenFrom i).contains

variable {s : Splitting} {g : ModuleGraph} {p : Policy} {d : Draft} {bucket part : Bucket}
variable {i : Nat} {b : Boundary}

theorem isEmpty_modulesOf_extract (h : Sound d) (hb : d.boundaries[i]? = some b) {base : Nat}
    (hbase : b.base = some base) (hne : base ≠ targetOf d p bucket) :
    ((d.extract p bucket).modulesOf base).isEmpty = emptied d bucket i b := by
  rw [Bool.eq_iff_iff, Reachability.isEmpty_iff, emptied, hbase, Option.any_some,
    List.all_eq_true]
  simp only [IdSet.mem_toList, List.contains_iff_mem, mem_takenFrom, mem_modulesOf_extract hne]
  constructor
  · intro hempty m hm
    have htaken := hempty m
    rw [not_and_not_right] at htaken
    obtain ⟨c, hc, hid, j, hj, hbase'⟩ := htaken hm
    obtain rfl := h.base_unique j i base hbase' (baseOf_eq_some.mpr ⟨b, hb, hbase⟩)
    exact ⟨c, hc, hid, hj⟩
  · rintro htaken m ⟨hm, hkept⟩
    obtain ⟨c, hc, hid, hi⟩ := htaken m hm
    exact hkept ⟨c, hc, hid, i, hi, baseOf_eq_some.mpr ⟨b, hb, hbase⟩⟩

theorem after_of_base (hbase : b.base = some (targetOf d p bucket)) :
    after d p bucket i b =
      { b with base := none, loads := b.loads ++ [targetOf d p bucket] } := by
  have hloaded : withChunk (moved d p bucket).chunks (b.loads ++ [targetOf d p bucket])
      (targetOf d p bucket) = b.loads ++ [targetOf d p bucket] := by
    rw [withChunk, if_pos (List.mem_append_right _ (List.mem_singleton_self _))]
  rw [after, released, if_pos hbase, loading, hloaded, ite_self, dropped, if_neg]
  simp

theorem after_of_user (h : Sound d) (hi : i ∈ bucket.users) (hb : d.boundaries[i]? = some b)
    (hbase : b.base ≠ some (targetOf d p bucket)) :
    after d p bucket i b = { b with
      loads := withChunk (moved d p bucket).chunks b.loads (targetOf d p bucket)
      base := if emptied d bucket i b then none else b.base } := by
  rw [after, released, if_neg hbase, loading, if_pos hi, dropped]
  have hdropped : (bucket.users.contains i && b.base.any fun base =>
      ((loaded d p bucket).modulesOf base).isEmpty) = emptied d bucket i b := by
    rw [IdSet.contains_iff.mpr hi, Bool.true_and]
    cases hbase' : b.base with
    | none => simp [emptied, hbase']
    | some base =>
        have hne : base ≠ targetOf d p bucket := fun heq => hbase (heq ▸ hbase')
        exact isEmpty_modulesOf_extract h hb hbase' hne
  rw [hdropped]
  split <;> rfl

theorem requests_after_of_base (hbase : b.base = some (targetOf d p bucket)) :
    (after d p bucket i b).requests = b.requests := by
  rw [after_of_base hbase]
  simp [Boundary.requests, hbase]

theorem requests_after (h : Sound d) (hi : i ∈ bucket.users) (hb : d.boundaries[i]? = some b)
    (hbase : b.base ≠ some (targetOf d p bucket)) :
    (after d p bucket i b).requests + (emptied d bucket i b).toNat + b.loads.length =
      (withChunk (moved d p bucket).chunks b.loads (targetOf d p bucket)).length +
        b.requests := by
  rw [after_of_user h hi hb hbase]
  cases hempty : emptied d bucket i b with
  | false =>
      simp [Boundary.requests]
      omega
  | true =>
      have hsome : b.base.isSome := by
        cases hnone : b.base with
        | none => simp [emptied, hnone] at hempty
        | some base => rfl
      simp [Boundary.requests, hsome]
      omega

theorem requests_after_of_free (h : Sound d) (hi : i ∈ bucket.users)
    (hb : d.boundaries[i]? = some b) (hfree : Free d (targetOf d p bucket)) :
    (after d p bucket i b).requests ≤ b.requests + 1 := by
  have hcount := requests_after h hi hb (hfree b (List.mem_of_getElem? hb))
  have hlength : (withChunk (moved d p bucket).chunks b.loads (targetOf d p bucket)).length ≤
      b.loads.length + 1 := by
    by_cases hmem : targetOf d p bucket ∈ b.loads
    · rw [withChunk, if_pos hmem]
      exact Nat.le_succ _
    · rw [length_withChunk hmem, needsOf_target_of_free h hfree]
      simp [missing]
  omega

/-- A reused base chunk costs a boundary one request for itself, and one for each chunk of its
own boundary that the other has not loaded. -/
theorem requests_after_of_reuse (h : Sound d) (hasync : ReusesAsync d bucket)
    (hi : i ∈ bucket.users) (hb : d.boundaries[i]? = some b) {owner : Boundary}
    (howner : owner ∈ d.boundaries) (hbase : owner.base = some (targetOf d p bucket))
    (hne : b.base ≠ owner.base) :
    (after d p bucket i b).requests + (emptied d bucket i b).toNat =
      b.requests + (missing b.loads owner.loads).length + 1 := by
  have hcount := requests_after h hi hb (hbase ▸ hne)
  have hmem : targetOf d p bucket ∉ b.loads := fun hmem =>
    (h.loads b (List.mem_of_getElem? hb)).free _ hmem owner howner hbase
  rw [length_withChunk hmem, needsOf_target_of_base h hasync howner hbase] at hcount
  omega

/-- An extraction that is not forced keeps the request limits if and only if no boundary is
brought above its limit by a reused base chunk, with the chunks that the boundary of that chunk
loads. -/
theorem withinBudget_extract_iff (h : Extracts s g p bucket d part)
    (henforce : p.enforce = false) (hsize : bucket.size g < s.enforceSizeThreshold) :
    WithinBudget p (d.extract p part) part.users ↔
      ∀ owner ∈ d.boundaries, owner.base = some (targetOf d p part) →
        ∀ i ∈ part.users, ∀ b, d.boundaries[i]? = some b → b.base ≠ owner.base →
          b.requests + (missing b.loads owner.loads).length + 1 ≤
            p.requestLimit b.initial + (emptied d part i b).toNat := by
  have hsound := h.invariant.sound
  have hasync := h.reusesAsync
  constructor
  · intro hwithin owner howner hbase i hi b hb hne
    have hcount := requests_after_of_reuse hsound hasync hi hb howner hbase hne
    have hlimit := hwithin i hi (after d p part i b)
      (by rw [getElem?_extract hsound hasync, hb]; rfl)
    rw [initial_after] at hlimit
    omega
  · intro hreuse i hi b' hb'
    rw [getElem?_extract hsound hasync, Option.map_eq_some_iff] at hb'
    obtain ⟨b, hb, rfl⟩ := hb'
    obtain ⟨b', hb', hlimit⟩ := requests_lt_of_admitted? h.admitted henforce hsize hi
    obtain rfl : b = b' := Option.some.inj (hb.symm.trans hb')
    rw [initial_after]
    -- The limit has room for one more chunk; only a reused base chunk may bring more than one.
    by_cases hfree : Free d (targetOf d p part)
    · exact (requests_after_of_free hsound hi hb hfree).trans hlimit
    · obtain ⟨owner, howner, hbase⟩ := exists_base_of_not_free hfree
      by_cases hown : b.base = owner.base
      · rw [requests_after_of_base (hown.trans hbase)]
        exact Nat.le_of_lt hlimit
      · have hcount := requests_after_of_reuse hsound hasync hi hb howner hbase hown
        have hbound := hreuse owner howner hbase i hi b hb hown
        omega

theorem withinBudget_extract_iff_stylesheet :
    WithinBudget sharedPolicy (scriptsTaken.extract sharedPolicy stylesheetBucket)
      stylesheetBucket.users ↔
      ∀ owner ∈ scriptsTaken.boundaries,
        owner.base = some (targetOf scriptsTaken sharedPolicy stylesheetBucket) →
        ∀ i ∈ stylesheetBucket.users, ∀ b, scriptsTaken.boundaries[i]? = some b →
          b.base ≠ owner.base →
          b.requests + (missing b.loads owner.loads).length + 1 ≤
            sharedPolicy.requestLimit b.initial +
              (emptied scriptsTaken stylesheetBucket i b).toNat :=
  withinBudget_extract_iff extracts_stylesheet rfl (by decide +kernel)

/-- A boundary may load more chunks than a policy allows right after an extraction of that
policy. -/
theorem reused_base_exceeds_budget :
    Splitting.ofOptions scriptOptions .development = .ok scriptSplitting ∧
      WellFormed sharedStylesheet ∧
      Extracts scriptSplitting sharedStylesheet sharedPolicy stylesheetBucket scriptsTaken
        stylesheetBucket ∧
      sharedPolicy.enforce = false ∧
      stylesheetBucket.size sharedStylesheet < scriptSplitting.enforceSizeThreshold ∧
      ¬ WithinBudget sharedPolicy (scriptsTaken.extract sharedPolicy stylesheetBucket)
        stylesheetBucket.users := by
  refine ⟨ofOptions_scriptOptions, wellFormed_sharedStylesheet, extracts_stylesheet, rfl,
    by decide +kernel, fun hwithin => ?_⟩
  have hcount : (scriptsTaken.extract sharedPolicy stylesheetBucket).boundaries[0]?.map
      (fun b => (b.requests, sharedPolicy.requestLimit b.initial)) = some (3, 2) := by
    decide +kernel
  obtain ⟨b, hb, heq⟩ := Option.map_eq_some_iff.mp hcount
  obtain ⟨hrequests, hlimit⟩ := Prod.mk.inj heq
  have hbound := hwithin 0 (by decide +kernel) b hb
  rw [hrequests, hlimit] at hbound
  exact absurd hbound (by decide)

end WebBundle.Proofs.RequestBudget
