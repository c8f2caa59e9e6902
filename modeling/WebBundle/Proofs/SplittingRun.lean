import Mathlib.Logic.Relation
import WebBundle.Chunk.Split
import WebBundle.Proofs.InitialDraft

/-!
Chunk splitting as a system that takes step after step: a policy collects its buckets, and then they are
tried one after another.
-/

namespace WebBundle.Proofs.SplittingRun

open Relation
open WebBundle.Proofs.BoundaryMembers
open WebBundle.Proofs.DraftInvariant
open WebBundle.Proofs.Extraction
open WebBundle.Proofs.ExtractionInvariant
open WebBundle.Proofs.InitialDraft
open WebBundle.Proofs.ModuleReach

/-- How far chunk splitting has come. -/
structure Progress where
  policies : List Policy
  /-- The buckets that are still to be tried, each with the policy that has collected it. -/
  pending : List (Policy × Bucket)
  draft : Draft

inductive Step (s : Splitting) (g : ModuleGraph) : Progress → Progress → Prop
  | collect (p : Policy) (policies : List Policy) (d : Draft) :
      Step s g ⟨p :: policies, [], d⟩
        ⟨policies, (Splitting.buckets g p d).map fun bucket => (p, bucket), d⟩
  | attempt (p : Policy) (bucket : Bucket) (policies : List Policy)
      (pending : List (Policy × Bucket)) (d : Draft) :
      Step s g ⟨policies, (p, bucket) :: pending, d⟩
        ⟨policies, pending, s.applyBucket g p d bucket⟩

def start (s : Splitting) (g : ModuleGraph) : Progress := ⟨s.policies, [], Draft.ofGraph g⟩

def Reaches (s : Splitting) (g : ModuleGraph) (progress : Progress) : Prop :=
  ReflTransGen (Step s g) (start s g) progress

variable {s : Splitting} {g : ModuleGraph} {p : Policy} {d : Draft} {bucket part : Bucket}

/-- The draft after all that is still to be done. -/
def finish (s : Splitting) (g : ModuleGraph) (progress : Progress) : Draft :=
  progress.policies.foldl (s.applyPolicy g)
    (progress.pending.foldl (fun d entry => s.applyBucket g entry.1 d entry.2) progress.draft)

theorem applyPolicy_eq (p : Policy) (d : Draft) : s.applyPolicy g d p =
    ((Splitting.buckets g p d).map fun bucket => (p, bucket)).foldl
      (fun d entry => s.applyBucket g entry.1 d entry.2) d := by
  rw [Splitting.applyPolicy, List.foldl_map]

theorem finish_eq_of_step {progress next : Progress} (h : Step s g progress next) :
    finish s g next = finish s g progress := by
  cases h with
  | collect p policies d =>
      rw [finish, finish, List.foldl_nil, List.foldl_cons, applyPolicy_eq]
  | attempt p bucket policies pending d => rfl

theorem steps_pending (policies : List Policy) (pending : List (Policy × Bucket)) (d : Draft) :
    ReflTransGen (Step s g) ⟨policies, pending, d⟩
      ⟨policies, [], pending.foldl (fun d entry => s.applyBucket g entry.1 d entry.2) d⟩ := by
  induction pending generalizing d with
  | nil => exact .refl
  | cons entry rest ih =>
      obtain ⟨p, bucket⟩ := entry
      exact .head (.attempt p bucket policies rest d) (ih _)

theorem steps_policies (policies : List Policy) (d : Draft) :
    ReflTransGen (Step s g) ⟨policies, [], d⟩ ⟨[], [], policies.foldl (s.applyPolicy g) d⟩ := by
  induction policies generalizing d with
  | nil => exact .refl
  | cons p rest ih =>
      refine .head (.collect p rest d) ((steps_pending rest _ d).trans ?_)
      rw [← applyPolicy_eq]
      exact ih _

theorem steps_finish (progress : Progress) :
    ReflTransGen (Step s g) progress ⟨[], [], finish s g progress⟩ :=
  (steps_pending progress.policies progress.pending progress.draft).trans
    (steps_policies progress.policies _)

theorem finish_of_reaches {progress : Progress} (h : Reaches s g progress) :
    finish s g progress = s.draft g := by
  induction h with
  | refl => rfl
  | tail _ hstep ih => rw [finish_eq_of_step hstep, ih]

theorem steps_draft {progress : Progress} (h : Reaches s g progress) :
    ReflTransGen (Step s g) progress ⟨[], [], s.draft g⟩ :=
  finish_of_reaches h ▸ steps_finish progress

theorem reaches_draft : Reaches s g ⟨[], [], s.draft g⟩ := steps_draft .refl

/-- A candidate that the boundaries of a graph may share. -/
structure Shareable (g : ModuleGraph) (c : Candidate) : Prop where
  no_entry : g.isEntry c.id = false
  boundary : ∀ i ∈ c.users, ∃ b, (Boundary.ofGraph g)[i]? = some b ∧ c.id ∈ g.staticClosure b.root

/-- A bucket that a policy may have collected. -/
structure Collected (g : ModuleGraph) (p : Policy) (bucket : Bucket) : Prop where
  shareable : ∀ c ∈ bucket, Shareable g c
  alike : p.name = none → ∃ users, ∀ c ∈ bucket, c.users = users

theorem mem_usersOf {offered : List IdSet} {id : ModuleId} {i : Nat} :
    i ∈ Splitting.usersOf offered id ↔ ∃ modules, offered[i]? = some modules ∧ id ∈ modules := by
  simp only [Splitting.usersOf, IdSet.mem_ofList, List.mem_filterMap, Prod.exists,
    List.mem_zipIdx_iff_getElem?]
  constructor
  · rintro ⟨modules, j, hj, hi⟩
    split at hi
    · next hid =>
        obtain rfl : j = i := Option.some.inj hi
        exact ⟨modules, hj, hid⟩
    · simp at hi
  · rintro ⟨modules, hi, hid⟩
    exact ⟨modules, i, hi, if_pos hid⟩

theorem base_of_mem_offered {modules : IdSet} {i : Nat} {m : ModuleId}
    (hi : (Splitting.offered p d)[i]? = some modules) (hm : m ∈ modules) :
    ∃ b base, d.boundaries[i]? = some b ∧ b.base = some base ∧ m ∈ d.modulesOf base := by
  rw [Splitting.offered, List.getElem?_map, Option.map_eq_some_iff] at hi
  obtain ⟨b, hb, rfl⟩ := hi
  split at hm
  · cases hbase : b.base with
    | none =>
        rw [hbase] at hm
        exact absurd hm (IdSet.not_mem_empty m)
    | some base =>
        rw [hbase] at hm
        exact ⟨b, base, hb, hbase, hm⟩
  · exact absurd hm (IdSet.not_mem_empty m)

theorem shareable_of_mem_candidates (h : Invariant g d) {c : Candidate}
    (hc : c ∈ Splitting.candidates g p d) : Shareable g c := by
  obtain ⟨id, -, hid⟩ := List.mem_filterMap.mp hc
  rw [Splitting.candidate?] at hid
  split at hid
  · simp at hid
  · next hallowed =>
      dsimp only at hid
      split at hid
      · obtain rfl : ⟨id, _⟩ = c := Option.some.inj hid
        refine ⟨?_, ?_⟩
        · simp only [Bool.or_eq_true, not_or, Bool.not_eq_true] at hallowed
          exact hallowed.1.1
        · intro i hi
          obtain ⟨modules, hmodules, hm⟩ := mem_usersOf.mp hi
          obtain ⟨b, base, hb, hbase, hm⟩ := base_of_mem_offered hmodules hm
          refine ⟨bare b, ?_, h.base_subset b (List.mem_of_getElem? hb) base hbase id hm⟩
          rw [← h.boundaries, List.getElem?_map, hb, Option.map_some]
      · simp at hid

theorem collected_of_mem_buckets (h : Invariant g d)
    (hbucket : bucket ∈ Splitting.buckets g p d) : Collected g p bucket := by
  have hcandidates : (∀ c ∈ bucket, c ∈ Splitting.candidates g p d) ∧
      (p.name = none → ∃ users, ∀ c ∈ bucket, c.users = users) := by
    rw [Splitting.buckets] at hbucket
    split at hbucket
    · simp at hbucket
    · split at hbucket
      · next hname =>
          rw [List.mem_singleton.mp hbucket]
          exact ⟨fun c hc => hc, fun hnone => by simp [hnone] at hname⟩
      · obtain ⟨⟨users, _⟩, hgroup, rfl⟩ := List.mem_map.mp hbucket
        obtain ⟨_, -, heq⟩ := List.mem_map.mp (List.mem_mergeSort.mp hgroup)
        obtain ⟨rfl, rfl⟩ := Prod.mk.inj heq
        exact ⟨fun c hc => (List.mem_filter.mp hc).1,
          fun _ => ⟨_, fun c hc => by simpa using (List.mem_filter.mp hc).2⟩⟩
  exact ⟨fun c hc => shareable_of_mem_candidates h (hcandidates.1 c hc), hcandidates.2⟩

theorem mem_restrict {allowed : IdSet} {c : Candidate}
    (hc : c ∈ Splitting.restrict p allowed bucket) :
    ∃ c' ∈ bucket, c = ⟨c'.id, c'.users.inter allowed⟩ := by
  obtain ⟨c', hc', heq⟩ := List.mem_filterMap.mp hc
  dsimp only at heq
  split at heq
  · exact ⟨c', hc', (Option.some.inj heq).symm⟩
  · simp at heq

theorem Collected.restrict (h : Collected g p bucket) (allowed : IdSet) :
    Collected g p (Splitting.restrict p allowed bucket) where
  shareable := by
    intro c hc
    obtain ⟨c', hc', rfl⟩ := mem_restrict hc
    exact ⟨(h.shareable c' hc').no_entry,
      fun i hi => (h.shareable c' hc').boundary i (IdSet.mem_inter.mp hi).1⟩
  alike := by
    intro hname
    obtain ⟨users, husers⟩ := h.alike hname
    refine ⟨users.inter allowed, fun c hc => ?_⟩
    obtain ⟨c', hc', rfl⟩ := mem_restrict hc
    rw [husers c' hc']

/-- How a bucket is admitted. -/
inductive Admission (s : Splitting) (g : ModuleGraph) (p : Policy) (d : Draft) (bucket : Bucket) :
    Bucket → Prop
  | forced : p.enforce = true ∨ s.enforceSizeThreshold ≤ bucket.size g →
      Admission s g p d bucket bucket
  | whole : Splitting.allowedUsers p d bucket.users = bucket.users →
    Admission s g p d bucket bucket
  | restricted : Admission s g p d bucket
      (Splitting.restrict p (Splitting.allowedUsers p d bucket.users) bucket)

theorem admission_of_admitted? (h : s.admitted? g p d bucket = some part) :
    Admission s g p d bucket part := by
  rw [Splitting.admitted?] at h
  split at h
  · simp at h
  · split at h
    · next hforced =>
        obtain rfl : bucket = part := Option.some.inj h
        exact .forced (by simpa using hforced)
    · obtain ⟨hpart, -⟩ := Option.filter_eq_some_iff.mp h
      rw [Splitting.withinRequests] at hpart
      split at hpart
      · next hallowed =>
          obtain rfl : bucket = part := Option.some.inj hpart
          exact .whole hallowed
      · dsimp only at hpart
        split at hpart
        · simp at hpart
        · obtain rfl := Option.some.inj hpart
          exact .restricted

theorem mem_allowedUsers {users : IdSet} {i : Nat} : i ∈ Splitting.allowedUsers p d users ↔
    i ∈ users ∧ ∃ b, d.boundaries[i]? = some b ∧ b.requests < p.requestLimit b.initial := by
  rw [Splitting.allowedUsers, IdSet.mem_filter, Option.any_eq_true]
  simp only [Draft.boundary?, decide_eq_true_eq]

theorem requests_lt_of_admitted? (h : s.admitted? g p d bucket = some part)
    (henforce : p.enforce = false) (hsize : bucket.size g < s.enforceSizeThreshold) {i : Nat}
    (hi : i ∈ part.users) :
    ∃ b, d.boundaries[i]? = some b ∧ b.requests < p.requestLimit b.initial := by
  have hallowed : i ∈ Splitting.allowedUsers p d bucket.users := by
    cases admission_of_admitted? h with
    | forced hforced =>
        rcases hforced with hforced | hforced
        · rw [henforce] at hforced
          exact Bool.noConfusion hforced
        · exact absurd hsize (Nat.not_lt_of_le hforced)
    | whole hwhole => rwa [hwhole]
    | restricted =>
        obtain ⟨c, hc, hi⟩ := mem_users.mp hi
        obtain ⟨c', -, rfl⟩ := mem_restrict hc
        exact (IdSet.mem_inter.mp hi).2
  exact (mem_allowedUsers.mp hallowed).2

theorem Collected.admitted (h : Collected g p bucket)
    (hpart : s.admitted? g p d bucket = some part) : Collected g p part := by
  cases admission_of_admitted? hpart with
  | forced => exact h
  | whole => exact h
  | restricted => exact h.restrict _

/-- What holds between the steps of chunk splitting. -/
structure Valid (s : Splitting) (g : ModuleGraph) (progress : Progress) : Prop where
  invariant : Invariant g progress.draft
  policies : ∀ p ∈ progress.policies, p ∈ s.policies
  collector : ∀ entry ∈ progress.pending, entry.1 ∈ s.policies
  collected : ∀ entry ∈ progress.pending, Collected g entry.1 entry.2

theorem invariant_applyBucket (h : Invariant g d) (hbucket : Collected g p bucket) :
    Invariant g (s.applyBucket g p d bucket) := by
  rw [Splitting.applyBucket]
  split
  · next part hpart =>
      exact invariant_extract h fun c hc => ((hbucket.admitted hpart).shareable c hc).no_entry
  · exact h

theorem Valid.step {progress next : Progress} (h : Valid s g progress)
    (hstep : Step s g progress next) : Valid s g next := by
  cases hstep with
  | collect p policies d =>
      refine ⟨h.invariant, fun q hq => h.policies q (List.mem_cons_of_mem _ hq), ?_, ?_⟩
      · intro entry hentry
        obtain ⟨bucket, -, rfl⟩ := List.mem_map.mp hentry
        exact h.policies p List.mem_cons_self
      · intro entry hentry
        obtain ⟨bucket, hbucket, rfl⟩ := List.mem_map.mp hentry
        exact collected_of_mem_buckets h.invariant hbucket
  | attempt p bucket policies pending d =>
      exact ⟨invariant_applyBucket h.invariant (h.collected (p, bucket) List.mem_cons_self),
        h.policies,
        fun entry hentry => h.collector entry (List.mem_cons_of_mem _ hentry),
        fun entry hentry => h.collected entry (List.mem_cons_of_mem _ hentry)⟩

theorem valid_of_reaches {progress : Progress} (h : Reaches s g progress) :
    Valid s g progress := by
  induction h with
  | refl => exact ⟨invariant_ofGraph, fun p hp => hp, by simp [start], by simp [start]⟩
  | tail _ hstep ih => exact ih.step hstep

theorem invariant_draft : Invariant g (s.draft g) :=
  (valid_of_reaches reaches_draft).invariant

/-- Chunk splitting extracts a part of a bucket that a policy has collected. -/
structure Extracts (s : Splitting) (g : ModuleGraph) (p : Policy) (bucket : Bucket) (d : Draft)
    (part : Bucket) : Prop where
  reaches : ∃ policies pending, Reaches s g ⟨policies, (p, bucket) :: pending, d⟩
  admitted : s.admitted? g p d bucket = some part

theorem Extracts.invariant (h : Extracts s g p bucket d part) :
    Invariant g d := by
  obtain ⟨policies, pending, hreaches⟩ := h.reaches
  exact (valid_of_reaches hreaches).invariant

theorem Extracts.mem_policies (h : Extracts s g p bucket d part) :
    p ∈ s.policies := by
  obtain ⟨policies, pending, hreaches⟩ := h.reaches
  exact (valid_of_reaches hreaches).collector (p, bucket) List.mem_cons_self

theorem Extracts.collected (h : Extracts s g p bucket d part) :
    Collected g p part := by
  obtain ⟨policies, pending, hreaches⟩ := h.reaches
  exact ((valid_of_reaches hreaches).collected (p, bucket) List.mem_cons_self).admitted
    h.admitted

theorem Extracts.reusesAsync (h : Extracts s g p bucket d part) :
    ReusesAsync d part :=
  h.invariant.reusesAsync fun c hc => (h.collected.shareable c hc).no_entry

/-- What extractions keep holds from any time of a run on. -/
theorem of_steps {P : Draft → Prop} {progress next : Progress} (h : Reaches s g progress)
    (hsteps : ReflTransGen (Step s g) progress next) (hP : P progress.draft)
    (hextract : ∀ p bucket d part, Extracts s g p bucket d part → P d → P (d.extract p part)) :
    P next.draft := by
  induction hsteps with
  | refl => exact hP
  | tail hprefix hstep ih =>
      have hreaches : Reaches s g _ := h.trans hprefix
      cases hstep with
      | collect p policies d => exact ih
      | attempt p bucket policies pending d =>
          show P (s.applyBucket g p d bucket)
          rw [Splitting.applyBucket]
          split
          · next part hpart =>
              exact hextract p bucket d part ⟨⟨policies, pending, hreaches⟩, hpart⟩ ih
          · exact ih

theorem provides_of_steps {progress next : Progress}
    (h : Reaches s g progress) (hsteps : ReflTransGen (Step s g) progress next) {i : Nat}
    {m : ModuleId} (hm : Provides progress.draft i m) : Provides next.draft i m := by
  refine of_steps (P := fun d => Provides d i m) h hsteps hm ?_
  intro p bucket d part hextracts hprovides
  exact provides_extract hextracts.invariant.sound hextracts.reusesAsync hprovides

theorem Extracts.reaches_extract (h : Extracts s g p bucket d part) :
    ∃ policies pending, Reaches s g ⟨policies, pending, d.extract p part⟩ := by
  obtain ⟨policies, pending, hreaches⟩ := h.reaches
  have hstep : Step s g ⟨policies, (p, bucket) :: pending, d⟩
      ⟨policies, pending, s.applyBucket g p d bucket⟩ := .attempt p bucket policies pending d
  refine ⟨policies, pending, hreaches.tail ?_⟩
  rwa [Splitting.applyBucket, h.admitted] at hstep

/-- Options with a cache group that takes scripts out of asynchronous chunks. -/
def scriptOptions : SplitOptions where
  minSize := some 0
  maxInitialRequests := 2
  defaultVendors := false
  cacheGroups := [{
    key := "scripts"
    type := some .javascript
    chunks := some .async
    minChunks := some 1 }]

def scriptPolicy : Policy where
  key := "scripts"
  type := some .javascript
  selection := .async
  minChunks := 1
  minSize := 0
  maxAsyncRequests := 30
  maxInitialRequests := 2

def sharedPolicy : Policy := Splitting.sharedPolicy scriptOptions .development

def scriptSplitting : Splitting where
  policies := [scriptPolicy, sharedPolicy]
  minRemainingSize := 0
  enforceSizeThreshold := 50000

theorem ofOptions_scriptOptions :
    Splitting.ofOptions scriptOptions .development = .ok scriptSplitting := by
  have hgroups : Splitting.groupPolicies scriptOptions .development []
      (Splitting.groups scriptOptions) = .ok [scriptPolicy] := rfl
  simp only [Splitting.ofOptions, hgroups]
  simp [Splitting.positive, scriptOptions, scriptSplitting, bind, Except.bind, pure, Except.pure]
  exact ⟨rfl, rfl⟩

/-- The script that only the asynchronous boundary needs. -/
def scriptBucket : Bucket := [⟨3, .single 2⟩]

/-- The stylesheet that an entry and the asynchronous boundary share. -/
def stylesheetBucket : Bucket := [⟨2, .ofList [0, 2]⟩]

def scriptsTaken : Draft :=
  scriptSplitting.applyBucket sharedStylesheet scriptPolicy
    (Draft.ofGraph sharedStylesheet) scriptBucket

theorem extracts_stylesheet : Extracts scriptSplitting sharedStylesheet sharedPolicy
    stylesheetBucket scriptsTaken stylesheetBucket := by
  have hscripts : Step scriptSplitting sharedStylesheet (start scriptSplitting sharedStylesheet)
      ⟨[sharedPolicy], [(scriptPolicy, scriptBucket)], Draft.ofGraph sharedStylesheet⟩ := by
    have hbuckets : Splitting.buckets sharedStylesheet scriptPolicy
        (Draft.ofGraph sharedStylesheet) = [scriptBucket] := by decide +kernel
    have hstep := Step.collect (s := scriptSplitting) (g := sharedStylesheet) scriptPolicy
      [sharedPolicy] (Draft.ofGraph sharedStylesheet)
    rwa [hbuckets] at hstep
  have hshared : Step scriptSplitting sharedStylesheet ⟨[sharedPolicy], [], scriptsTaken⟩
      ⟨[], [(sharedPolicy, stylesheetBucket)], scriptsTaken⟩ := by
    have hbuckets : Splitting.buckets sharedStylesheet sharedPolicy scriptsTaken =
        [stylesheetBucket] := by decide +kernel
    have hstep := Step.collect (s := scriptSplitting) (g := sharedStylesheet) sharedPolicy
      [] scriptsTaken
    rwa [hbuckets] at hstep
  refine ⟨⟨[], [], ?_⟩, by decide +kernel⟩
  exact ((ReflTransGen.single hscripts).tail (.attempt scriptPolicy scriptBucket _ [] _)).tail
    hshared

end WebBundle.Proofs.SplittingRun
