import WebBundle.Graph.Discovery
import WebBundle.Proofs.ChainIdentity

namespace WebBundle.Proofs.CachedRuns

open WebBundle.Proofs.ChainIdentity

/-- A chain that is to run on what a file holds. -/
structure Call where
  chain : Chain
  input : Artifact
  path : Path

namespace Call

def run (call : Call) (cache : Option Cache) : Except BuildError Outcome × Option Cache :=
  Id.run ((Discovery.runChain call.chain call.input call.path : BuildM Id Outcome).run.run cache)

def key (call : Call) : CacheKey := CacheKey.of call.chain call.input

/-- A call that a cache counts: its chain has stages, and it succeeds. -/
def counts (call : Call) : Bool := !call.chain.declared.isEmpty && (call.run none).1.isOk

end Call

/-- The results of calls one after another, and the cache after them. -/
def runAll : List Call → Option Cache → List (Except BuildError Outcome) × Option Cache
  | [], cache => ([], cache)
  | call :: rest, cache =>
    let (result, cache) := call.run cache
    let (results, cache) := runAll rest cache
    (result :: results, cache)

/-- The path of a file does not change what a transform makes of its content. -/
def InputOnly (t : Transform) : Prop :=
  ∀ (first second : Path) (input : Artifact), @t.apply first input = @t.apply second input

theorem inputOnly_of_mem_builtins {t : Transform} (h : t ∈ Transform.builtins) : InputOnly t := by
  simp only [Transform.builtins, List.mem_cons, List.not_mem_nil, or_false] at h
  rcases h with rfl | rfl | rfl | rfl <;> exact fun _ _ _ => rfl

/-- Calls that keys tell apart: different contents have different hashes, names and versions tell which
transform is meant, and transforms look at nothing but their input. -/
structure Distinguished (calls : List Call) : Prop where
  contents : ∀ first ∈ calls, ∀ second ∈ calls,
    Digest.contentHash first.input.content = Digest.contentHash second.input.content →
      first.input.content = second.input.content
  plain : ∀ call ∈ calls, ∀ s ∈ call.chain.declared, Plain s.transform
  transforms : ∀ first ∈ calls, ∀ second ∈ calls,
    ∀ s ∈ first.chain.declared, ∀ t ∈ second.chain.declared,
      s.transform.name = t.transform.name → s.transform.version = t.transform.version →
        s.transform = t.transform
  inputOnly : ∀ call ∈ calls, ∀ s ∈ call.chain.declared, InputOnly s.transform

variable {calls : List Call} {call first second : Call} {c : Cache} {key : CacheKey}
variable {output : ChainOutput}

theorem runStages_congr {stages : List Stage} (h : ∀ s ∈ stages, InputOnly s.transform)
    (path path' : Path) (cancelled : Bool) (done : ChainOutput) :
    Chain.runStages path cancelled stages done = Chain.runStages path' cancelled stages done := by
  induction stages generalizing done with
  | nil => rfl
  | cons s rest ih =>
      obtain ⟨hs, hrest⟩ := List.forall_mem_cons.mp h
      have hstage : Chain.runStage path cancelled done s = Chain.runStage path' cancelled done s := by
        rw [Chain.runStage, Chain.runStage, hs path path']
      rw [Chain.runStages, Chain.runStages, hstage]
      cases Chain.runStage path' cancelled done s with
      | error e => rfl
      | ok next => exact ih hrest next

theorem execute_congr {chain : Chain} (h : ∀ s ∈ chain.declared, InputOnly s.transform)
    (input : Artifact) (path path' : Path) : chain.execute input path = chain.execute input path' :=
  runStages_congr (fun s hs => h s (List.mem_reverse.mp hs)) path path' false _

theorem Distinguished.execute_eq (h : Distinguished calls) (hfirst : first ∈ calls)
    (hsecond : second ∈ calls) (hne : first.chain.declared ≠ [])
    (hne' : second.chain.declared ≠ []) (hkey : first.key = second.key) :
    first.chain.execute first.input first.path = second.chain.execute second.input second.path := by
  obtain ⟨hidentity, hkind, hhash⟩ := CacheKey.mk.inj hkey
  have hcontent := h.contents first hfirst second hsecond hhash
  have hinput : first.input = second.input :=
    Artifact.eq_of_data hkind (congrArg ByteArray.data hcontent)
  have hchain : first.chain = second.chain :=
    chain_eq_of_identity (h.plain first hfirst) (h.plain second hsecond)
      (h.transforms first hfirst second hsecond) hne hne' hidentity
  rw [hchain, hinput]
  exact execute_congr (h.inputOnly second hsecond) second.input first.path second.path

theorem run_get_bind {α : Type} (rest : Option Cache → BuildM Id α) (cache : Option Cache) :
    (do rest (← get)).run.run cache = (rest cache).run.run cache := rfl

theorem run_set_bind {α : Type} (rest : BuildM Id α) (cache after : Option Cache) :
    (do set after; rest).run.run cache = rest.run.run after := rfl

theorem run_eq (call : Call) (cache : Option Cache) : call.run cache =
    ((call.chain.run call.input false cache call.path).1.mapError (BuildError.ofChain call.path),
      (call.chain.run call.input false cache call.path).2) := by
  rw [Call.run, Discovery.runChain, run_get_bind]
  rcases call.chain.run call.input false cache call.path with ⟨result, after⟩
  rw [run_set_bind]
  cases result <;> rfl

/-- What a call with a cache comes to. -/
inductive Cached (call : Call) (c : Cache) : Except ChainError Outcome × Option Cache → Prop
  /-- There is nothing to run. -/
  | empty : call.chain.declared = [] →
      Cached call c ((call.chain.execute call.input call.path).map (⟨·, false⟩), some c)
  | found {output : ChainOutput} : call.chain.declared ≠ [] → c.get? call.key = some output →
      Cached call c (.ok ⟨output, true⟩, some c.hit)
  | computed {output : ChainOutput} : call.chain.declared ≠ [] → c.get? call.key = none →
      call.chain.execute call.input call.path = .ok output →
      Cached call c (.ok ⟨output, false⟩, some (c.keep call.key output))
  | failed {error : ChainError} : call.chain.declared ≠ [] → c.get? call.key = none →
      call.chain.execute call.input call.path = .error error → Cached call c (.error error, some c)

theorem cached_run (call : Call) (c : Cache) :
    Cached call c (call.chain.run call.input false (some c) call.path) := by
  rw [Chain.run.eq_def]
  split
  · next c' stage rest hcache hdeclared =>
      obtain rfl := Option.some.inj hcache
      have hne : call.chain.declared ≠ [] := hdeclared ▸ List.cons_ne_nil stage rest
      simp only [Chain.runCached]
      split
      · next output hfound => exact .found hne hfound
      · next hnone =>
          split
          · next output houtput => exact .computed hne hnone houtput
          · next error herror => exact .failed hne hnone herror
  · next hempty =>
      refine .empty ?_
      cases hdeclared : call.chain.declared with
      | nil => rfl
      | cons stage rest => exact absurd hdeclared (hempty c stage rest rfl)

theorem run_eq_execute (chain : Chain) (input : Artifact) (path : Path) :
    (chain.run input false none path).1 = (chain.execute input path).map (⟨·, false⟩) := by
  rw [Chain.run]
  exact fun c stage rest hcache => absurd hcache.symm (Option.some_ne_none c)

theorem output_run_none (call : Call) : (call.run none).1.map Outcome.output =
    (call.chain.execute call.input call.path).mapError (BuildError.ofChain call.path) := by
  rw [run_eq, run_eq_execute]
  cases call.chain.execute call.input call.path <;> rfl

theorem counts_iff : call.counts = true ↔
    call.chain.declared ≠ [] ∧ ∃ output, call.chain.execute call.input call.path = .ok output := by
  have hok : (call.run none).1.isOk = (call.chain.execute call.input call.path).isOk := by
    rw [run_eq, run_eq_execute]
    cases call.chain.execute call.input call.path <;> rfl
  rw [Call.counts, hok, Bool.and_eq_true, Bool.not_eq_true', List.isEmpty_eq_false_iff]
  cases call.chain.execute call.input call.path <;> simp [Except.isOk, Except.toBool]

theorem cache_of_failed {cache : Option Cache} (h : (call.run cache).1.isOk = false) :
    (call.run cache).2 = cache := by
  rw [run_eq] at h ⊢
  cases cache with
  | none => rfl
  | some c =>
      have hcached := cached_run call c
      generalize call.chain.run call.input false (some c) call.path = run at hcached h
      cases hcached with
      | empty => rfl
      | found => simp [Except.mapError, Except.isOk, Except.toBool] at h
      | computed => simp [Except.mapError, Except.isOk, Except.toBool] at h
      | failed => rfl

/-- A cache whose entries are outputs of some calls, one for each key. -/
structure Truthful (calls : List Call) (c : Cache) : Prop where
  entries : ∀ key output, c.get? key = some output → ∃ call ∈ calls,
    call.chain.declared ≠ [] ∧ call.key = key ∧ call.chain.execute call.input call.path = .ok output
  nodup : (c.entries.map Prod.fst).Nodup
  misses : c.misses = c.size

theorem truthful_empty (calls : List Call) : Truthful calls {} := ⟨nofun, .nil, rfl⟩

theorem get?_keep (c : Cache) (key other : CacheKey) (output : ChainOutput) :
    (c.keep key output).get? other = if other = key then some output else c.get? other := by
  rw [Cache.get?, Cache.keep, List.lookup_cons]
  split
  · next h => rw [if_pos (eq_of_beq h)]
  · next h => rw [if_neg (ne_of_beq_false h), Cache.get?]

theorem not_mem_keys (h : c.get? key = none) : key ∉ c.entries.map Prod.fst := by
  intro hmem
  obtain ⟨entry, hentry, rfl⟩ := List.mem_map.mp hmem
  have hne := List.lookup_eq_none_iff.mp h entry hentry
  simp at hne

theorem Truthful.keep (h : Truthful calls c) (hcall : call ∈ calls)
    (hne : call.chain.declared ≠ []) (hnone : c.get? call.key = none)
    (houtput : call.chain.execute call.input call.path = .ok output) :
    Truthful calls (c.keep call.key output) where
  entries := by
    intro key output' hentry
    rw [get?_keep] at hentry
    split at hentry
    · next hkey =>
        obtain rfl := Option.some.inj hentry
        exact ⟨call, hcall, hne, hkey.symm, houtput⟩
    · exact h.entries key output' hentry
  nodup := List.nodup_cons.mpr ⟨not_mem_keys hnone, h.nodup⟩
  misses := congrArg (· + 1) h.misses

/-- What calls add to a cache: it keeps its entries, gets one for each call that it counts, and
counts these. -/
structure Advances (calls : List Call) (c after : Cache) : Prop where
  keeps : ∀ key, (c.get? key).isSome → (after.get? key).isSome
  covers : ∀ call ∈ calls, call.counts = true → (after.get? call.key).isSome
  counted : after.hits + after.misses = c.hits + c.misses + calls.countP Call.counts

theorem Advances.refl (c : Cache) : Advances [] c c := ⟨fun _ h => h, nofun, rfl⟩

theorem Advances.cons {next after : Cache} (hcall : Advances [call] c next)
    (hrest : Advances calls next after) : Advances (call :: calls) c after where
  keeps := fun key h => hrest.keeps key (hcall.keeps key h)
  covers := by
    intro other hother hcounts
    rcases List.mem_cons.mp hother with rfl | hother
    · exact hrest.keeps _ (hcall.covers other (List.mem_singleton_self _) hcounts)
    · exact hrest.covers other hother hcounts
  counted := by
    have hfirst := hcall.counted
    have hsecond := hrest.counted
    rw [List.countP_cons] at hfirst ⊢
    simp only [List.countP_nil] at hfirst
    omega

theorem Advances.of_not_counts (h : call.counts = false) : Advances [call] c c where
  keeps := fun _ h => h
  covers := by simp [h]
  counted := by simp [h]

/-- A call with a truthful cache gives what it gives without one. -/
theorem Truthful.run (h : Truthful calls c) (hcalls : Distinguished calls)
    (hcall : call ∈ calls) : ∃ after, (call.run (some c)).2 = some after ∧ Truthful calls after ∧
      (call.run (some c)).1.map Outcome.output = (call.run none).1.map Outcome.output ∧
      Advances [call] c after := by
  have hcached := cached_run call c
  rw [output_run_none, run_eq]
  generalize call.chain.run call.input false (some c) call.path = run at hcached
  cases hcached with
  | empty hempty =>
      have hcounts : call.counts = false :=
        Bool.eq_false_iff.mpr fun h => (counts_iff.mp h).1 hempty
      refine ⟨c, rfl, h, ?_, .of_not_counts hcounts⟩
      cases call.chain.execute call.input call.path <;> rfl
  | @found output hne hfound =>
      obtain ⟨first, hfirst, hne', hkey, houtput⟩ := h.entries _ _ hfound
      rw [← hcalls.execute_eq hcall hfirst hne hne' hkey.symm] at houtput
      have hcounts : call.counts = true := counts_iff.mpr ⟨hne, output, houtput⟩
      have hkept : (c.hit.get? call.key).isSome := Option.isSome_of_eq_some hfound
      refine ⟨c.hit, rfl, ⟨h.entries, h.nodup, h.misses⟩, by rw [houtput]; rfl,
        fun _ h => h, by simp [hkept], ?_⟩
      simp [hcounts, Cache.hit]
      omega
  | @computed output hne hnone houtput =>
      have hcounts : call.counts = true := counts_iff.mpr ⟨hne, output, houtput⟩
      refine ⟨c.keep call.key output, rfl, h.keep hcall hne hnone houtput,
        by rw [houtput]; rfl, fun key hkey => ?_, by simp [get?_keep], ?_⟩
      · rw [get?_keep]
        split
        · rfl
        · exact hkey
      · simp [hcounts, Cache.keep]
        omega
  | @failed error hne hnone herror =>
      have hcounts : call.counts = false := by
        refine Bool.eq_false_iff.mpr fun h => ?_
        obtain ⟨-, output, houtput⟩ := counts_iff.mp h
        rw [herror] at houtput
        cases houtput
      exact ⟨c, rfl, h, by rw [herror]; rfl, .of_not_counts hcounts⟩

theorem runAll_cons (call : Call) (rest : List Call) (cache : Option Cache) :
    runAll (call :: rest) cache = ((call.run cache).1 :: (runAll rest (call.run cache).2).1,
      (runAll rest (call.run cache).2).2) := rfl

theorem Truthful.runAll {all : List Call} (h : Truthful all c) (hall : Distinguished all)
    (hcalls : ∀ call ∈ calls, call ∈ all) :
    ∃ after, (runAll calls (some c)).2 = some after ∧ Truthful all after ∧
      (runAll calls (some c)).1.map (·.map Outcome.output) =
        calls.map (fun call => (call.run none).1.map Outcome.output) ∧
      Advances calls c after := by
  induction calls generalizing c with
  | nil => exact ⟨c, rfl, h, rfl, .refl c⟩
  | cons call rest ih =>
      obtain ⟨next, hnext, htruthful, hresult, hadvances⟩ := h.run hall (hcalls call (by simp))
      obtain ⟨after, hafter, htruthful, hresults, hrest⟩ :=
        ih htruthful fun call hcall => hcalls call (List.mem_cons_of_mem _ hcall)
      rw [runAll_cons, hnext]
      refine ⟨after, hafter, htruthful, ?_, hadvances.cons hrest⟩
      rw [List.map_cons, List.map_cons, hresult, hresults]

/-- Stylesheets are set apart, two with one content; the stage fails on scripts, once where it is
optional and once where it is not. -/
def styleCalls : List Call := [
  ⟨⟨[⟨.extractCss, true⟩]⟩, ⟨.style, .empty⟩, ⟨"/p/a.css"⟩⟩,
  ⟨⟨[⟨.extractCss, true⟩]⟩, ⟨.style, .empty⟩, ⟨"/p/b.css"⟩⟩,
  ⟨⟨[⟨.extractCss, true⟩]⟩, ⟨.script, .empty⟩, ⟨"/p/a.js"⟩⟩,
  ⟨⟨[⟨.extractCss, false⟩]⟩, ⟨.script, .empty⟩, ⟨"/p/a.js"⟩⟩]

theorem distinguished_styleCalls : Distinguished styleCalls := by
  have hcontent : ∀ call ∈ styleCalls, call.input.content = .empty := by simp [styleCalls]
  have hstages : ∀ call ∈ styleCalls, ∀ s ∈ call.chain.declared, s.transform = .extractCss := by
    simp [styleCalls]
  have hplain : Plain .extractCss :=
    ⟨by simp [marks, Transform.extractCss], by simp [marks, Transform.extractCss]⟩
  refine ⟨fun first hfirst second hsecond _ => ?_, fun call hcall s hs => ?_,
    fun first hfirst second hsecond s hs t ht _ _ => ?_, fun call hcall s hs => ?_⟩
  · rw [hcontent first hfirst, hcontent second hsecond]
  · exact (hstages call hcall s hs).symm ▸ hplain
  · rw [hstages first hfirst s hs, hstages second hsecond t ht]
  · rw [hstages call hcall s hs]
    exact inputOnly_of_mem_builtins (by simp [Transform.builtins])

/-- Calls that share a cache, which is empty at first, give the outputs or errors that they give
without one. The cache has an entry for each key of a successful call of a chain with stages, and
has missed once for each entry; it counts these calls, and a failed call leaves it as it was. -/
theorem shared_cache_transparent (h : Distinguished calls) :
    ∃ cache, (runAll calls (some {})).2 = some cache ∧
      (runAll calls (some {})).1.map (·.map Outcome.output) =
        calls.map (fun call => (call.run none).1.map Outcome.output) ∧
      (∀ key, (cache.get? key).isSome ↔ ∃ call ∈ calls, call.counts = true ∧ call.key = key) ∧
      (cache.entries.map Prod.fst).Nodup ∧ cache.misses = cache.size ∧
      cache.hits + cache.misses = calls.countP Call.counts ∧
      ∀ before call after, calls = before ++ call :: after →
        (call.run (runAll before (some {})).2).1.isOk = false →
          (call.run (runAll before (some {})).2).2 = (runAll before (some {})).2 := by
  obtain ⟨cache, hcache, htruthful, hresults, hadvances⟩ :=
    (truthful_empty calls).runAll h fun call hcall => hcall
  refine ⟨cache, hcache, hresults, fun key => ⟨fun hkey => ?_, ?_⟩, htruthful.nodup,
    htruthful.misses, hadvances.counted.trans (Nat.zero_add _), ?_⟩
  · obtain ⟨output, houtput⟩ := Option.isSome_iff_exists.mp hkey
    obtain ⟨call, hcall, hne, hkey, houtput⟩ := htruthful.entries key output houtput
    exact ⟨call, hcall, counts_iff.mpr ⟨hne, output, houtput⟩, hkey⟩
  · rintro ⟨call, hcall, hcounts, rfl⟩
    exact hadvances.covers call hcall hcounts
  · intro before call after _ hfailed
    exact cache_of_failed hfailed

theorem shared_cache_transparent_styles : Distinguished styleCalls ∧
    ∃ cache, (runAll styleCalls (some {})).2 = some cache ∧
      (runAll styleCalls (some {})).1.map (·.map Outcome.output) =
        styleCalls.map (fun call => (call.run none).1.map Outcome.output) ∧
      cache.misses = cache.size ∧ cache.hits + cache.misses = 3 := by
  obtain ⟨cache, hcache, hresults, -, -, hmisses, hcounts, -⟩ :=
    shared_cache_transparent distinguished_styleCalls
  exact ⟨distinguished_styleCalls, cache, hcache, hresults, hmisses, hcounts⟩

end WebBundle.Proofs.CachedRuns
