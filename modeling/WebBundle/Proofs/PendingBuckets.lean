import WebBundle.Proofs.SplittingRun

/-!
Buckets that wait to be tried. A policy collects all its buckets at once, and by the time one of them is
tried others were extracted. What was found out about it when it was collected still holds then: nobody has
taken its modules, and its users are the boundaries whose base chunks have them.
-/

namespace WebBundle.Proofs.PendingBuckets

open Relation
open WebBundle.Proofs.BoundaryMembers
open WebBundle.Proofs.DraftInvariant
open WebBundle.Proofs.Extraction
open WebBundle.Proofs.ExtractionInvariant
open WebBundle.Proofs.InitialDraft
open WebBundle.Proofs.ModuleReach
open WebBundle.Proofs.SplittingRun

/-- The base chunk of a boundary has a module. -/
def Holds (d : Draft) (i : Nat) (m : ModuleId) : Prop :=
  ∃ base, d.baseOf i = some base ∧ m ∈ d.modulesOf base

/-- A policy looks at the base chunk of a boundary. -/
def Looks (p : Policy) (d : Draft) (i : Nat) : Prop :=
  ∃ b, d.boundaries[i]? = some b ∧ p.selects b.initial = true

/-- A bucket that tells the truth about a draft. Of the boundaries in question, those that hold a
module are its users. -/
structure Standing (d : Draft) (bucket : Bucket) : Prop where
  nodup : (bucket.map Candidate.id).Nodup
  unclaimed : ∀ c ∈ bucket, c.id ∉ d.claimed
  users : ∃ looks : Nat → Prop, ∀ c ∈ bucket, ∀ i, i ∈ c.users ↔ looks i ∧ Holds d i c.id

variable {s : Splitting} {g : ModuleGraph} {p : Policy} {d : Draft}
variable {bucket part other : Bucket} {c : Candidate} {i : Nat} {m : ModuleId}

theorem Standing.holds (h : Standing d bucket) (hc : c ∈ bucket) (hi : i ∈ c.users) :
    Holds d i c.id := by
  obtain ⟨looks, husers⟩ := h.users
  exact ((husers c hc i).mp hi).2

theorem Standing.mem_users (h : Standing d bucket) (hi : i ∈ bucket.users) (hc : c ∈ bucket)
    (hm : Holds d i c.id) : i ∈ c.users := by
  obtain ⟨looks, husers⟩ := h.users
  obtain ⟨c', hc', hi'⟩ := Extraction.mem_users.mp hi
  exact (husers c hc i).mpr ⟨((husers c' hc' i).mp hi').1, hm⟩

theorem Standing.unclaimed_of_mem (h : Standing d bucket) (hm : m ∈ bucket.modules) :
    m ∉ d.claimed := by
  obtain ⟨c, hc, rfl⟩ := mem_modules.mp hm
  exact h.unclaimed c hc

theorem Standing.of_sublist (h : Standing d bucket) (hsub : part.Sublist bucket) :
    Standing d part where
  nodup := h.nodup.sublist (hsub.map Candidate.id)
  unclaimed := fun c hc => h.unclaimed c (hsub.subset hc)
  users := by
    obtain ⟨looks, husers⟩ := h.users
    exact ⟨looks, fun c hc => husers c (hsub.subset hc)⟩

theorem mem_usersOf_offered :
    i ∈ Splitting.usersOf (Splitting.offered p d) m ↔ Looks p d i ∧ Holds d i m := by
  rw [mem_usersOf]
  constructor
  · rintro ⟨modules, hmodules, hm⟩
    rw [Splitting.offered, List.getElem?_map, Option.map_eq_some_iff] at hmodules
    obtain ⟨b, hb, rfl⟩ := hmodules
    split at hm
    · next hselects =>
        refine ⟨⟨b, hb, hselects⟩, ?_⟩
        cases hbase : b.base with
        | none =>
            rw [hbase] at hm
            exact absurd hm (IdSet.not_mem_empty m)
        | some base =>
            rw [hbase] at hm
            exact ⟨base, baseOf_eq_some.mpr ⟨b, hb, hbase⟩, hm⟩
    · exact absurd hm (IdSet.not_mem_empty m)
  · rintro ⟨⟨b, hb, hselects⟩, base, hbase, hm⟩
    obtain ⟨b', hb', hbase⟩ := baseOf_eq_some.mp hbase
    obtain rfl : b = b' := Option.some.inj (hb.symm.trans hb')
    refine ⟨d.modulesOf base, ?_, hm⟩
    simp [Splitting.offered, hb, hselects, hbase]

theorem candidate?_eq_some {offered : List IdSet}
    (h : Splitting.candidate? g p d offered m = some c) :
    c = ⟨m, Splitting.usersOf offered m⟩ ∧ m ∉ d.claimed := by
  rw [Splitting.candidate?] at h
  split at h
  · simp at h
  · next hallowed =>
      simp only [Bool.or_eq_true, not_or, IdSet.contains_iff] at hallowed
      dsimp only at h
      split at h
      · exact ⟨(Option.some.inj h).symm, hallowed.1.2⟩
      · simp at h

theorem standing_candidates (g : ModuleGraph) (p : Policy) (d : Draft) :
    Standing d (Splitting.candidates g p d) where
  nodup := by
    rw [Splitting.candidates, List.Nodup, List.pairwise_map, List.pairwise_filterMap]
    refine List.Pairwise.imp ?_ (List.nodup_range (n := g.size))
    intro m m' hne c hc c' hc' heq
    rw [(candidate?_eq_some hc).1, (candidate?_eq_some hc').1] at heq
    exact hne heq
  unclaimed := by
    intro c hc
    obtain ⟨m, -, hm⟩ := List.mem_filterMap.mp hc
    obtain ⟨rfl, hunclaimed⟩ := candidate?_eq_some hm
    exact hunclaimed
  users := by
    refine ⟨Looks p d, fun c hc i => ?_⟩
    obtain ⟨m, -, hm⟩ := List.mem_filterMap.mp hc
    obtain ⟨rfl, -⟩ := candidate?_eq_some hm
    exact mem_usersOf_offered

/-- Buckets without a module in common. -/
def Apart (first second : Bucket) : Prop := ∀ m ∈ first.modules, m ∉ second.modules

theorem Apart.symm (h : Apart bucket other) : Apart other bucket :=
  fun m hm hm' => h m hm' hm

theorem standing_of_mem_buckets (hbucket : bucket ∈ Splitting.buckets g p d) :
    Standing d bucket := by
  have hcandidates := standing_candidates g p d
  rw [Splitting.buckets] at hbucket
  split at hbucket
  · simp at hbucket
  · split at hbucket
    · exact List.mem_singleton.mp hbucket ▸ hcandidates
    · obtain ⟨⟨users, _⟩, hgroup, rfl⟩ := List.mem_map.mp hbucket
      obtain ⟨_, -, heq⟩ := List.mem_map.mp (List.mem_mergeSort.mp hgroup)
      obtain ⟨rfl, rfl⟩ := Prod.mk.inj heq
      exact hcandidates.of_sublist List.filter_sublist

theorem ne_nil_of_mem_buckets (hbucket : bucket ∈ Splitting.buckets g p d) : bucket ≠ [] := by
  rw [Splitting.buckets] at hbucket
  split at hbucket
  · simp at hbucket
  · next found hfound =>
      split at hbucket
      · exact List.mem_singleton.mp hbucket ▸ hfound
      · obtain ⟨⟨users, _⟩, hgroup, rfl⟩ := List.mem_map.mp hbucket
        obtain ⟨_, husers, heq⟩ := List.mem_map.mp (List.mem_mergeSort.mp hgroup)
        obtain ⟨rfl, rfl⟩ := Prod.mk.inj heq
        obtain ⟨c, hc, husers⟩ := List.mem_map.mp (List.mem_eraseDups.mp husers)
        exact List.ne_nil_of_mem (List.mem_filter.mpr ⟨hc, decide_eq_true husers⟩)

theorem apart_of_users (h : Standing d bucket) {first second : IdSet} (hne : first ≠ second) :
    Apart (bucket.filter fun c => c.users = first) (bucket.filter fun c => c.users = second) := by
  intro m hm hm'
  obtain ⟨c, hc, rfl⟩ := mem_modules.mp hm
  obtain ⟨c', hc', hid⟩ := mem_modules.mp hm'
  obtain ⟨hc, husers⟩ := List.mem_filter.mp hc
  obtain ⟨hc', husers'⟩ := List.mem_filter.mp hc'
  obtain rfl := List.inj_on_of_nodup_map h.nodup hc' hc hid
  rw [decide_eq_true_eq] at husers husers'
  exact hne (husers.symm.trans husers')

theorem nodup_eraseDups {α : Type} [DecidableEq α] : (list : List α) → list.eraseDups.Nodup
  | [] => by simp
  | a :: rest => by
      have ih := nodup_eraseDups (rest.filter fun b => !b == a)
      rw [List.eraseDups_cons, List.nodup_cons, List.mem_eraseDups]
      exact ⟨by simp, ih⟩
termination_by list => list.length
decreasing_by exact Nat.lt_succ_of_le (List.length_filter_le _ rest)

theorem pairwise_apart_buckets (g : ModuleGraph) (p : Policy) (d : Draft) :
    (Splitting.buckets g p d).Pairwise Apart := by
  have hcandidates := standing_candidates g p d
  rw [Splitting.buckets]
  split
  · exact .nil
  · split
    · exact List.pairwise_singleton ..
    · rw [List.pairwise_map, (List.mergeSort_perm _ _).pairwise_iff fun h => Apart.symm h,
        Splitting.groupByUsers, List.pairwise_map]
      refine List.Pairwise.imp (fun hne => apart_of_users hcandidates hne) ?_
      exact nodup_eraseDups _

theorem claimed_extract :
    (d.extract p bucket).claimed = d.claimed.union bucket.modules := by
  have hrelease : ∀ d' : Draft, (d'.releaseBase (targetOf d p bucket)).claimed = d'.claimed := by
    intro d'
    rw [Draft.releaseBase]
    split <;> rfl
  have htarget : (withTarget d p bucket).claimed = d.claimed := by
    have hcases := target_cases d p bucket.users bucket.modules
    rw [withTarget]
    generalize d.target p bucket.users bucket.modules = target at hcases
    cases hcases <;> rfl
  show (moved d p bucket).claimed.union bucket.modules = _
  rw [moved, hrelease]
  exact congrArg (IdSet.union · bucket.modules) htarget

theorem reused_of_base (h : Sound d) (hbase : d.baseOf i = some (targetOf d p bucket)) :
    i ∈ bucket.users ∧ d.modulesOf (targetOf d p bucket) = bucket.modules := by
  have hcases := target_cases d p bucket.users bucket.modules
  rw [targetOf] at hbase ⊢
  generalize d.target p bucket.users bucket.modules = target at hcases hbase
  cases hcases with
  | reused _ hj hbase' hmodules => exact ⟨h.base_unique _ i _ hbase' hbase ▸ hj, hmodules⟩
  | extended _ hc horigin =>
      obtain ⟨b, hb, hbase⟩ := baseOf_eq_some.mp hbase
      exact absurd hbase (h.free_of_split hc horigin b (List.mem_of_getElem? hb))
  | added =>
      obtain ⟨b, hb, hbase⟩ := baseOf_eq_some.mp hbase
      exact absurd (h.base_lt (List.mem_of_getElem? hb) hbase) (Nat.lt_irrefl _)

theorem baseOf_of_extract (h : Sound d) (hasync : ReusesAsync d bucket) {base : Nat}
    (hbase : (d.extract p bucket).baseOf i = some base) :
    d.baseOf i = some base ∧ base ≠ targetOf d p bucket := by
  obtain ⟨b', hb', hbase⟩ := baseOf_eq_some.mp hbase
  rw [getElem?_extract h hasync, Option.map_eq_some_iff] at hb'
  obtain ⟨b, hb, rfl⟩ := hb'
  obtain ⟨hbase, hne⟩ := base_of_after hbase
  exact ⟨baseOf_eq_some.mpr ⟨b, hb, hbase⟩, hne⟩

theorem baseOf_extract (h : Sound d) (hasync : ReusesAsync d bucket) {base : Nat}
    (hbase : d.baseOf i = some base) (hne : base ≠ targetOf d p bucket)
    (hm : m ∈ (d.extract p bucket).modulesOf base) :
    (d.extract p bucket).baseOf i = some base := by
  obtain ⟨b, hb, hbase⟩ := baseOf_eq_some.mp hbase
  exact baseOf_eq_some.mpr ⟨_, boundary_extract h hasync hb, base_after hbase hne hm⟩

theorem mem_modulesOf_extract_base (h : Sound d) {base : Nat} (hbase : d.baseOf i = some base)
    (hne : base ≠ targetOf d p bucket) :
    m ∈ (d.extract p bucket).modulesOf base ↔
      m ∈ d.modulesOf base ∧ ¬ ∃ c ∈ bucket, c.id = m ∧ i ∈ c.users := by
  rw [mem_modulesOf_extract hne]
  refine and_congr_right fun _ => not_congr ⟨?_, ?_⟩
  · rintro ⟨c, hc, hid, j, hj, hbase'⟩
    exact ⟨c, hc, hid, h.base_unique j i base hbase' hbase ▸ hj⟩
  · rintro ⟨c, hc, hid, hi⟩
    exact ⟨c, hc, hid, i, hi, hbase⟩

theorem Standing.holds_extract_iff (hbucket : Standing d bucket) (h : Sound d)
    (hasync : ReusesAsync d bucket) :
    Holds (d.extract p bucket) i m ↔
      Holds d i m ∧ ¬ ∃ c ∈ bucket, c.id = m ∧ i ∈ c.users := by
  constructor
  · rintro ⟨base, hbase, hm⟩
    obtain ⟨hbase, hne⟩ := baseOf_of_extract h hasync hbase
    obtain ⟨hm, htaken⟩ := (mem_modulesOf_extract_base h hbase hne).mp hm
    exact ⟨⟨base, hbase, hm⟩, htaken⟩
  · rintro ⟨⟨base, hbase, hm⟩, htaken⟩
    -- Of a base chunk that is reused all modules are taken.
    have hne : base ≠ targetOf d p bucket := by
      rintro rfl
      obtain ⟨hi, hmodules⟩ := reused_of_base h hbase
      obtain ⟨c, hc, rfl⟩ := mem_modules.mp (hmodules ▸ hm)
      exact htaken ⟨c, hc, rfl, hbucket.mem_users hi hc ⟨_, hbase, hm⟩⟩
    have hm' := (mem_modulesOf_extract_base (p := p) h hbase hne).mpr ⟨hm, htaken⟩
    exact ⟨base, baseOf_extract h hasync hbase hne hm', hm'⟩

/-- An extraction leaves alone what other buckets say. -/
theorem Standing.extract (hbucket : Standing d bucket) (hother : Standing d other) (h : Sound d)
    (hasync : ReusesAsync d other) (hapart : Apart other bucket) :
    Standing (d.extract p other) bucket := by
  have hout : ∀ c ∈ bucket, c.id ∉ other.modules := fun c hc =>
    hapart.symm c.id (mem_modules.mpr ⟨c, hc, rfl⟩)
  refine ⟨hbucket.nodup, ?_, ?_⟩
  · intro c hc
    rw [claimed_extract, IdSet.mem_union, not_or]
    exact ⟨hbucket.unclaimed c hc, hout c hc⟩
  · obtain ⟨looks, husers⟩ := hbucket.users
    refine ⟨looks, fun c hc i => ?_⟩
    have huntaken : ¬ ∃ c' ∈ other, c'.id = c.id ∧ i ∈ c'.users := by
      rintro ⟨c', hc', hid, -⟩
      exact hout c hc (mem_modules.mpr ⟨c', hc', hid⟩)
    rw [husers c hc i, hother.holds_extract_iff h hasync, and_iff_left huntaken]

theorem Standing.restrict (h : Standing d bucket) (allowed : IdSet) :
    Standing d (Splitting.restrict p allowed bucket) where
  nodup := by
    rw [List.Nodup, List.pairwise_map, Splitting.restrict, List.pairwise_filterMap]
    refine List.Pairwise.imp ?_ (List.pairwise_map.mp h.nodup)
    intro c c' hne kept hkept kept' hkept' heq
    dsimp only at hkept hkept'
    split at hkept
    · split at hkept'
      · rw [← Option.some.inj hkept, ← Option.some.inj hkept'] at heq
        exact hne heq
      · simp at hkept'
    · simp at hkept
  unclaimed := by
    intro c hc
    obtain ⟨c', hc', rfl⟩ := mem_restrict hc
    exact h.unclaimed c' hc'
  users := by
    obtain ⟨looks, husers⟩ := h.users
    refine ⟨fun i => looks i ∧ i ∈ allowed, fun c hc i => ?_⟩
    obtain ⟨c', hc', rfl⟩ := mem_restrict hc
    rw [IdSet.mem_inter, husers c' hc' i]
    exact and_right_comm

theorem Standing.admitted (h : Standing d bucket)
    (hpart : s.admitted? g p d bucket = some part) : Standing d part := by
  cases admission_of_admitted? hpart with
  | forced => exact h
  | whole => exact h
  | restricted => exact h.restrict _

theorem withinRequests_eq_some (h : Splitting.withinRequests g p d bucket = some part) :
    part = bucket ∨ (part ≠ [] ∧ p.minSize ≤ part.size g) := by
  rw [Splitting.withinRequests] at h
  split at h
  · exact .inl (Option.some.inj h).symm
  · dsimp only at h
    split at h
    · simp at h
    · next hlarge =>
        obtain rfl := Option.some.inj h
        exact .inr (by simpa using hlarge)

/-- A part of a bucket that is admitted is large enough, unless the policy enforces it; and it
leaves enough, unless it is forced. -/
theorem admitted?_eq_some (h : s.admitted? g p d bucket = some part) :
    (p.enforce = true ∨ p.minSize ≤ bucket.size g) ∧
      ((part = bucket ∧ (p.enforce = true ∨ s.enforceSizeThreshold ≤ bucket.size g)) ∨
        (Splitting.withinRequests g p d bucket = some part ∧
          s.leavesEnough g d part = true)) := by
  rw [Splitting.admitted?] at h
  split at h
  · simp at h
  · next hlarge =>
      refine ⟨?_, ?_⟩
      · cases henforce : p.enforce with
        | true => exact .inl rfl
        | false => exact .inr (by simpa [henforce] using hlarge)
      · split at h
        · next hforced =>
            exact .inl ⟨(Option.some.inj h).symm, by simpa using hforced⟩
        · exact .inr (Option.filter_eq_some_iff.mp h)

theorem ne_nil_of_admitted? (hne : bucket ≠ []) (h : s.admitted? g p d bucket = some part) :
    part ≠ [] := by
  rcases (admitted?_eq_some h).2 with ⟨rfl, -⟩ | ⟨hpart, -⟩
  · exact hne
  · rcases withinRequests_eq_some hpart with rfl | ⟨hpart, -⟩
    · exact hne
    · exact hpart

theorem modules_subset_of_admitted? (h : s.admitted? g p d bucket = some part) :
    ∀ m ∈ part.modules, m ∈ bucket.modules := by
  cases admission_of_admitted? h with
  | forced => exact fun m hm => hm
  | whole => exact fun m hm => hm
  | restricted =>
      intro m hm
      obtain ⟨c, hc, rfl⟩ := mem_modules.mp hm
      obtain ⟨c', hc', rfl⟩ := mem_restrict hc
      exact mem_modules.mpr ⟨c', hc', rfl⟩

/-- The buckets that wait in a run tell the truth, and no module is in two of them. -/
structure Orderly (progress : Progress) : Prop where
  nonempty : ∀ entry ∈ progress.pending, entry.2 ≠ []
  standing : ∀ entry ∈ progress.pending, Standing progress.draft entry.2
  apart : progress.pending.Pairwise fun first second => Apart first.2 second.2

theorem Orderly.step {progress next : Progress} (h : Orderly progress) (hvalid : Valid s g progress)
    (hstep : Step s g progress next) : Orderly next := by
  cases hstep with
  | collect p policies d =>
      refine ⟨?_, ?_, List.pairwise_map.mpr (pairwise_apart_buckets g p d)⟩
      · intro entry hentry
        obtain ⟨bucket, hbucket, rfl⟩ := List.mem_map.mp hentry
        exact ne_nil_of_mem_buckets hbucket
      · intro entry hentry
        obtain ⟨bucket, hbucket, rfl⟩ := List.mem_map.mp hentry
        exact standing_of_mem_buckets hbucket
  | attempt p bucket policies pending d =>
      obtain ⟨hfirst, hrest⟩ := List.pairwise_cons.mp h.apart
      refine ⟨fun entry hentry => h.nonempty entry (List.mem_cons_of_mem _ hentry),
        fun entry hentry => ?_, hrest⟩
      have hentry' := h.standing entry (List.mem_cons_of_mem _ hentry)
      show Standing (s.applyBucket g p d bucket) entry.2
      rw [Splitting.applyBucket]
      split
      · next part hpart =>
          have hcollected := (hvalid.collected _ List.mem_cons_self).admitted hpart
          refine hentry'.extract ((h.standing _ List.mem_cons_self).admitted hpart)
            hvalid.invariant.sound
            (hvalid.invariant.reusesAsync fun c hc => (hcollected.shareable c hc).no_entry) ?_
          exact fun m hm => hfirst entry hentry m (modules_subset_of_admitted? hpart m hm)
      · exact hentry'

theorem orderly_of_reaches {progress : Progress}
    (h : Reaches s g progress) : Orderly progress := by
  induction h with
  | refl => exact ⟨by simp [start], by simp [start], .nil⟩
  | tail hreaches hstep ih => exact ih.step (valid_of_reaches hreaches) hstep

theorem ne_nil_of_extracts (h : Extracts s g p bucket d part) : part ≠ [] := by
  obtain ⟨policies, pending, hreaches⟩ := h.reaches
  exact ne_nil_of_admitted? ((orderly_of_reaches hreaches).nonempty _ List.mem_cons_self)
    h.admitted

theorem standing_of_extracts (h : Extracts s g p bucket d part) :
    Standing d part := by
  obtain ⟨policies, pending, hreaches⟩ := h.reaches
  exact ((orderly_of_reaches hreaches).standing (p, bucket) List.mem_cons_self).admitted
    h.admitted

end WebBundle.Proofs.PendingBuckets
