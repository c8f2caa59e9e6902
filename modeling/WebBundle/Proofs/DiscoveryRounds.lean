import Mathlib.Algebra.Order.BigOperators.Group.List
import Mathlib.Algebra.Order.Group.Nat
import Mathlib.Data.Finset.Card
import Mathlib.Data.Set.Finite.Basic
import WebBundle.Proofs.DiscoveredGraphs
import WebBundle.Proofs.FoundPaths
import WebBundle.Proofs.KeptSources
import WebBundle.Proofs.SourceOrder
import WebBundle.Transform.Registry

/-!
When the waves of a discovery end. Each wave processes the files that the wave before found, and a file is
processed once. The waves end if and only if the backslashes at the ends of the paths stay bounded, since
only finitely many paths and queries are found then.
-/

namespace WebBundle.Proofs.DiscoveryRounds

open WebBundle.Discovery
open WebBundle.Proofs.CachedRuns
open WebBundle.Proofs.DiscoveredGraphs
open WebBundle.Proofs.DiscoveryRun
open WebBundle.Proofs.DiscoverySteps (fileModule)
open WebBundle.Proofs.FoundPaths
open WebBundle.Proofs.GraphGrowth
open WebBundle.Proofs.KeptSources (exists_ok_of_any plan_of_config)
open WebBundle.Proofs.LinkedModules
open WebBundle.Proofs.PathLocations
open WebBundle.Proofs.ProbeLists (Cut lookupPaths_of_isFile resolve_run)
open WebBundle.Proofs.ProcessedFiles
open WebBundle.Proofs.ResolvedFiles (isFile_of_resolve)
open WebBundle.Proofs.SourceOrder

/-- Waves that succeed one after another, each told by the files that it processes. -/
inductive Rounds (p : Project) (view : FileView Id) :
    Discovery → Option Cache → List (List ModuleId) → Discovery → Option Cache → Prop
  | refl {d : Discovery} {cache : Option Cache} : Rounds p view d cache [] d cache
  | wave {d next last : Discovery} {cache between after : Option Cache}
      {rounds : List (List ModuleId)} :
      d.pending ≠ [] → ((wave p view d).run.run cache).run = (.ok next, between) →
      Rounds p view next between rounds last after →
      Rounds p view d cache (d.pending :: rounds) last after

/-- After so many waves no file waits any more, or a wave failed. -/
def EndsWithin (p : Project) (view : FileView Id) : Nat → Discovery → Option Cache → Prop
  | 0, d, _ => d.pending = []
  | n + 1, d, cache => d.pending = [] ∨ ∀ next between,
      ((wave p view d).run.run cache).run = (.ok next, between) → EndsWithin p view n next between

/-- The files that waves find are at paths with so few backslashes at the end. -/
def Bounded (p : Project) (view : FileView Id) (d : Discovery) (cache : Option Cache)
    (bound : Nat) : Prop :=
  ∀ rounds last after, Rounds p view d cache rounds last after →
    ∀ id ∈ sources last.graph, strays (last.graph.get id).path ≤ bound

variable {p : Project} {view : FileView Id} {asked : String → Prop} {d next last : Discovery}
variable {g : ModuleGraph} {cache between after : Option Cache} {rounds : List (List ModuleId)}
variable {n bound limit id : Nat} {paths : Set Path} {outputs : Set ChainOutput}

theorem exists_processed (h : ((wave p view d).run.run cache).run = (.ok next, between)) :
    ∃ items, ((processAll p view d.graph d.pending).run.run cache).run = (.ok items, between) ∧
      ∀ asked : String → Prop, (∀ item ∈ items, ∀ s ∈ specifiers item.outcome.output, asked s) →
        Moves p view asked { d with pending := [] } next ∧
          sources next.graph = sources d.graph ++ next.pending := by
  obtain ⟨items, hprocess, hlink⟩ := exists_items h
  exact ⟨items, hprocess, fun _ hasked => wave_moves hasked hlink⟩

theorem sources_wave (h : ((wave p view d).run.run cache).run = (.ok next, between)) :
    sources next.graph = sources d.graph ++ next.pending := by
  obtain ⟨items, -, hmoves⟩ := exists_processed h
  exact (hmoves (fun _ => True) fun _ _ _ _ => trivial).2

/-- Every file enters one wave, in the order in which the files were found. -/
theorem Rounds.sources (h : Rounds p view d cache rounds last after) {done : List ModuleId}
    (hd : sources d.graph = done ++ d.pending) :
    sources last.graph = done ++ (rounds.flatten ++ last.pending) := by
  induction h generalizing done with
  | refl => exact hd
  | wave _ hwave _ ih =>
      rw [ih ((sources_wave hwave).trans (congrArg (· ++ _) hd)), List.flatten_cons,
        List.append_assoc, List.append_assoc]

theorem EndsWithin.of_nil (h : d.pending = []) : EndsWithin p view n d cache := by
  cases n with
  | zero => exact h
  | succ n => exact .inl h

theorem Rounds.eq_refl (h : Rounds p view d cache rounds last after) (hd : d.pending = []) :
    last = d := by
  cases h with
  | refl => rfl
  | wave hne => exact absurd hd hne

theorem exists_strays_le (g : ModuleGraph) :
    ∃ bound, ∀ id ∈ sources g, strays (g.get id).path ≤ bound :=
  ⟨((sources g).map fun id => strays (g.get id).path).sum, fun _ hid =>
    List.le_sum_of_mem (List.mem_map_of_mem hid)⟩

theorem bounded_of_nil (hd : d.pending = []) : ∃ bound, Bounded p view d cache bound := by
  obtain ⟨bound, hbound⟩ := exists_strays_le d.graph
  refine ⟨bound, fun rounds last after hrounds => ?_⟩
  rw [hrounds.eq_refl hd]
  exact hbound

theorem EndsWithin.bounded (h : EndsWithin p view n d cache) : ∃ bound, Bounded p view d cache bound := by
  induction n generalizing d cache with
  | zero => exact bounded_of_nil h
  | succ n ih =>
      rcases h with hd | h
      · exact bounded_of_nil hd
      · obtain ⟨bound, hbound⟩ := exists_strays_le d.graph
        rcases hwave : ((wave p view d).run.run cache).run with ⟨e | next, between⟩
        · refine ⟨bound, fun rounds last after hrounds => ?_⟩
          cases hrounds with
          | refl => exact hbound
          | wave _ hwave' => exact absurd (hwave.symm.trans hwave') nofun
        · obtain ⟨later, hlater⟩ := ih (h next between hwave)
          refine ⟨max bound later, fun rounds last after hrounds => ?_⟩
          cases hrounds with
          | refl => exact fun id hid => (hbound id hid).trans (Nat.le_max_left ..)
          | wave _ hwave' hrest =>
              obtain ⟨hnext, rfl⟩ := Prod.mk.inj (hwave.symm.trans hwave')
              obtain rfl := Except.ok.inj hnext
              exact fun id hid => (hlater _ _ _ hrest id hid).trans (Nat.le_max_right ..)

theorem waves_of_nil (hd : d.pending = []) : waves p view limit d = pure d := by
  cases limit <;> simp [waves, hd]

theorem waves_of_ne (hd : d.pending ≠ []) :
    waves p view (limit + 1) d = wave p view d >>= waves p view limit := by
  rw [waves, if_neg (by simpa using hd)]

theorem waves_of_endsWithin (h : EndsWithin p view n d cache) (hlimit : n ≤ limit) :
    ((waves p view limit d).run.run cache).run = ((waves p view n d).run.run cache).run := by
  induction n generalizing d cache limit with
  | zero => rw [waves_of_nil h, waves_of_nil h]
  | succ n ih =>
      obtain ⟨limit, rfl⟩ := Nat.exists_eq_add_one_of_ne_zero (Nat.ne_zero_of_lt hlimit)
      by_cases hd : d.pending = []
      · rw [waves_of_nil hd, waves_of_nil hd]
      · rw [waves_of_ne hd, waves_of_ne hd, run_bind, run_bind]
        have hnext := h.resolve_left hd
        generalize ((wave p view d).run.run cache).run = result at hnext
        obtain ⟨e | next, between⟩ := result
        · rfl
        · exact ih (hnext next between rfl) (Nat.le_of_succ_le_succ hlimit)

/-- The outputs of a cache, and what the transforms make of the files at some paths. -/
def outputsOf (p : Project) (view : FileView Id) (paths : Set Path) (cache : Option Cache) :
    Set ChainOutput :=
  {output | (∃ c ∈ cache, output ∈ c.entries.map Prod.snd) ∨ ∃ path ∈ paths, ∃ call,
    call? p view path = some call ∧ call.chain.execute call.input call.path = .ok output}

theorem finite_outputsOf (h : paths.Finite) : (outputsOf p view paths cache).Finite := by
  have hcached : {output | ∃ c ∈ cache, output ∈ c.entries.map Prod.snd}.Finite := by
    cases cache with
    | none => exact Set.finite_empty.subset nofun
    | some c =>
        refine (List.finite_toSet (c.entries.map Prod.snd)).subset ?_
        rintro output ⟨c', hc, houtput⟩
        exact Option.mem_some.mp hc ▸ houtput
  have hmade : {output | ∃ path ∈ paths, ∃ call, call? p view path = some call ∧
      call.chain.execute call.input call.path = .ok output}.Finite := by
    -- a file makes one output at most
    have hone (path : Path) : {output | ∃ call, call? p view path = some call ∧
        call.chain.execute call.input call.path = .ok output}.Subsingleton := by
      rintro output ⟨call, hcall, houtput⟩ other ⟨call', hcall', hother⟩
      obtain rfl := Option.some.inj (hcall.symm.trans hcall')
      exact Except.ok.inj (houtput.symm.trans hother)
    refine (h.biUnion fun path _ => (hone path).finite).subset ?_
    rintro output ⟨path, hpath, houtput⟩
    exact Set.mem_biUnion hpath houtput
  exact hcached.union hmade

/-- The outputs that a cache keeps are among some outputs. -/
def Keeps (outputs : Set ChainOutput) (cache : Option Cache) : Prop :=
  ∀ c ∈ cache, ∀ key output, c.get? key = some output → output ∈ outputs

theorem keeps_outputsOf : Keeps (outputsOf p view paths cache) cache := by
  intro c hc key output hget
  obtain ⟨before, after, hentries, -⟩ := List.lookup_eq_some_iff.mp hget
  exact .inl ⟨c, hc, hentries ▸ List.mem_map_of_mem (List.mem_append_right _ List.mem_cons_self)⟩

theorem execute_of_uncached {executed : Except ChainError ChainOutput} {blame : ChainError → BuildError}
    {outcome : Outcome} (h : (executed.map (⟨·, false⟩ : ChainOutput → Outcome)).mapError blame =
      .ok outcome) : executed = .ok outcome.output := by
  cases executed with
  | error e => cases h
  | ok output => exact congrArg (Except.ok ∘ Outcome.output) (Except.ok.inj h)

theorem run_keeps {call : Call} (h : Keeps outputs cache)
    (hmade : ∀ output, call.chain.execute call.input call.path = .ok output → output ∈ outputs)
    {outcome : Outcome} (hrun : call.run cache = (.ok outcome, after)) :
    outcome.output ∈ outputs ∧ Keeps outputs after := by
  rw [run_eq] at hrun
  obtain ⟨hresult, rfl⟩ := Prod.mk.inj hrun
  cases cache with
  | none =>
      have hafter : (call.chain.run call.input false none call.path).2 = none := rfl
      rw [run_eq_execute] at hresult
      rw [hafter]
      exact ⟨hmade _ (execute_of_uncached hresult), nofun⟩
  | some c =>
      have hcached := cached_run call c
      generalize call.chain.run call.input false (some c) call.path = run at hcached hresult
      cases hcached with
      | empty => exact ⟨hmade _ (execute_of_uncached hresult), h⟩
      | found _ hfound =>
          obtain rfl := Except.ok.inj hresult
          exact ⟨h c rfl _ _ hfound, fun _ hc => Option.mem_some.mp hc ▸ h c rfl⟩
      | computed _ _ hexecute =>
          obtain rfl := Except.ok.inj hresult
          have houtput := hmade _ hexecute
          refine ⟨houtput, ?_⟩
          rintro _ ⟨⟩ key other hget
          rw [get?_keep] at hget
          split at hget
          · exact Option.some.inj hget ▸ houtput
          · exact h c rfl key other hget
      | failed => cases hresult

theorem processAll_keeps {ids : List ModuleId} {items : List Processed} (h : Keeps outputs cache)
    (hmade : ∀ id ∈ ids, ∀ call output, call? p view (g.get id).path = some call →
      call.chain.execute call.input call.path = .ok output → output ∈ outputs)
    (hprocess : ((processAll p view g ids).run.run cache).run = (.ok items, after)) :
    (∀ item ∈ items, item.outcome.output ∈ outputs) ∧ Keeps outputs after := by
  induction ids generalizing cache items with
  | nil =>
      obtain ⟨rfl, rfl⟩ := pure_run_eq_ok.mp hprocess
      exact ⟨nofun, h⟩
  | cons first rest ih =>
      obtain ⟨item, next, others, rfl, hitem, hothers⟩ := processAll_cons hprocess
      obtain ⟨-, content, found, hread, hmatch, -, hrun⟩ := exists_call hitem
      have hcall := call?_eq_some.mpr ⟨content, found, hread, hmatch, rfl⟩
      obtain ⟨houtput, hnext⟩ :=
        run_keeps h (fun output => hmade first List.mem_cons_self _ output hcall) hrun
      obtain ⟨hrest, hafter⟩ :=
        ih hnext (fun id hid => hmade id (List.mem_cons_of_mem _ hid)) hothers
      refine ⟨fun other hother => ?_, hafter⟩
      rcases List.mem_cons.mp hother with rfl | hother
      · exact houtput
      · exact hrest other hother

theorem length_sources_le (h : Labelled p view asked g) {files : Finset (Path × Option String)}
    (hfiles : ∀ id ∈ sources g, ((g.get id).path, (g.get id).query) ∈ files) :
    (sources g).length ≤ files.card := by
  rw [← List.length_map fun id => ((g.get id).path, (g.get id).query),
    ← List.toFinset_card_of_nodup h.nodup_files]
  refine Finset.card_le_card fun file hfile => ?_
  obtain ⟨id, hid, rfl⟩ := List.mem_map.mp (List.mem_toFinset.mp hfile)
  exact hfiles id hid

/-- Some paths, files and outputs hold all that waves can come upon, as long as the backslashes at the ends of
the paths are bounded. -/
structure Enough (p : Project) (view : FileView Id) (asked : String → Prop) (paths : Set Path)
    (files : Set (Path × Option String)) (outputs : Set ChainOutput) (bound : Nat) : Prop where
  found : ∀ {specifier directory path query}, asked specifier →
    (p.resolver.resolve view specifier directory).run = .ok (.file path query) →
    strays path ≤ bound → path ∈ paths ∧ (path, query) ∈ files
  made : ∀ path ∈ paths, ∀ call output, call? p view path = some call →
    call.chain.execute call.input call.path = .ok output → output ∈ outputs
  asked : ∀ output ∈ outputs, ∀ s ∈ specifiers output, asked s

/-- What waves preserve: the files that wait are the last ones, and all were found for specifiers in some
outputs. -/
structure Confined (p : Project) (view : FileView Id) (asked : String → Prop)
    (outputs : Set ChainOutput) (d : Discovery) (cache : Option Cache) : Prop where
  labelled : Labelled p view asked d.graph
  queued : ∃ done, sources d.graph = done ++ d.pending
  keeps : Keeps outputs cache

variable {files : Set (Path × Option String)}

theorem Confined.file (h : Confined p view asked outputs d cache)
    (he : Enough p view asked paths files outputs bound) (hbound : Bounded p view d cache bound)
    (hid : id ∈ sources d.graph) :
    (d.graph.get id).path ∈ paths ∧ ((d.graph.get id).path, (d.graph.get id).query) ∈ files := by
  obtain ⟨specifier, directory, hspecifier, hresolve⟩ := (h.labelled.file hid).found
  exact he.found hspecifier hresolve (hbound [] d cache .refl id hid)

theorem Confined.wave (h : Confined p view asked outputs d cache)
    (he : Enough p view asked paths files outputs bound) (hbound : Bounded p view d cache bound)
    (hwave : ((wave p view d).run.run cache).run = (.ok next, between)) :
    Confined p view asked outputs next between := by
  obtain ⟨done, hdone⟩ := h.queued
  have hpending : ∀ id ∈ d.pending, (d.graph.get id).path ∈ paths := fun id hid =>
    (h.file he hbound (hdone ▸ List.mem_append_right _ hid)).1
  obtain ⟨items, hprocess, hmoves⟩ := exists_processed hwave
  obtain ⟨houtputs, hkeeps⟩ :=
    processAll_keeps h.keeps (fun id hid => he.made _ (hpending id hid)) hprocess
  obtain ⟨hnext, hsources⟩ := hmoves asked fun item hitem => he.asked _ (houtputs item hitem)
  exact ⟨hnext.labelled h.labelled, ⟨_, hsources⟩, hkeeps⟩

/-- Each wave finds a file or is the last one, so there are no more waves than files to find. -/
theorem endsWithin_of_confined (h : Confined p view asked outputs d cache) (hfiles : files.Finite)
    (he : Enough p view asked paths files outputs bound) (hbound : Bounded p view d cache bound)
    (hn : hfiles.toFinset.card < (sources d.graph).length + n) : EndsWithin p view n d cache := by
  induction n generalizing d cache with
  | zero =>
      have hle : (sources d.graph).length ≤ hfiles.toFinset.card :=
        length_sources_le h.labelled fun id hid => hfiles.mem_toFinset.mpr (h.file he hbound hid).2
      omega
  | succ n ih =>
      by_cases hd : d.pending = []
      · exact .inl hd
      refine .inr fun next between hwave => ?_
      by_cases hnext : next.pending = []
      · exact .of_nil hnext
      have hpos : 0 < next.pending.length := List.length_pos_iff.mpr hnext
      have hlength := congrArg List.length (sources_wave hwave)
      rw [List.length_append] at hlength
      have hbound' : Bounded p view next between bound := fun rounds last after hrounds =>
        hbound _ last after (.wave hd hwave hrounds)
      exact ih (h.wave he hbound hwave) hbound' (by omega)

/-- The specifiers of entries, and those in some outputs. -/
def textsOf (entries : List (String × String)) (outputs : Set ChainOutput) : Set String :=
  {text | text ∈ entries.map fun entry => entryRequest entry.2} ∪
    {text | ∃ output ∈ outputs, text ∈ specifiers output}

theorem finite_textsOf (entries : List (String × String)) (h : outputs.Finite) :
    (textsOf entries outputs).Finite := by
  refine (List.finite_toSet _).union ((h.biUnion fun output _ =>
    List.finite_toSet (specifiers output)).subset ?_)
  rintro text ⟨output, houtput, htext⟩
  exact Set.mem_biUnion houtput htext

/-- The files that a bound leaves possible: found paths, with the queries of specifiers. -/
def filesOf (s : FaultyStore) (p : Project) (entries : List (String × String))
    (outputs : Set ChainOutput) (bound : Nat) : Set (Path × Option String) :=
  foundPaths s p.resolver bound ×ˢ
    ((fun text => (Resolver.splitQuery text).2) '' textsOf entries outputs)

theorem finite_filesOf (s : FaultyStore) (p : Project) (entries : List (String × String)) (bound : Nat)
    (h : outputs.Finite) : (filesOf s p entries outputs bound).Finite :=
  (finite_foundPaths s p.resolver bound).prod ((finite_textsOf entries h).image _)

theorem enough_store {s : FaultyStore} (entries : List (String × String))
    (h : outputs = outputsOf p s.view (foundPaths s p.resolver bound) cache) :
    Enough p s.view (· ∈ textsOf entries outputs) (foundPaths s p.resolver bound)
      (filesOf s p entries outputs bound) outputs bound where
  found hspecifier hresolve hstrays := by
    obtain ⟨htried, rfl⟩ := tried_of_resolve hresolve
    have hpath : _ ∈ foundPaths s p.resolver bound := ⟨isFile_of_resolve hresolve, htried, hstrays⟩
    exact ⟨hpath, hpath, Set.mem_image_of_mem _ hspecifier⟩
  made path hpath call output hcall houtput := by
    rw [h]
    exact .inr ⟨path, hpath, call, hcall, houtput⟩
  asked output houtput text htext := .inr ⟨output, houtput, htext⟩

theorem endsWithin_of_bounded {s : FaultyStore} {entries : List (String × String)}
    (h : (addEntries p s.view entries {}).run.run = .ok d) (hbound : Bounded p s.view d cache bound) :
    ∃ n, EndsWithin p s.view n d cache := by
  obtain ⟨outputs, houtputs⟩ : ∃ outputs,
      outputs = outputsOf p s.view (foundPaths s p.resolver bound) cache := ⟨_, rfl⟩
  have hfinite : outputs.Finite := houtputs ▸ finite_outputsOf (finite_foundPaths s p.resolver bound)
  have hfiles := finite_filesOf s p entries bound hfinite
  have hmoves : Moves p s.view (· ∈ textsOf entries outputs) {} d :=
    addEntries_moves (fun entry hentry => .inl (List.mem_map.mpr ⟨entry, hentry, rfl⟩)) h
  obtain ⟨new, hpending, hsources⟩ := hmoves.queues
  have hconfined : Confined p s.view (· ∈ textsOf entries outputs) outputs d cache :=
    ⟨hmoves.labelled labelled_empty, ⟨[], hsources.trans hpending.symm⟩, houtputs ▸ keeps_outputsOf⟩
  exact ⟨hfiles.toFinset.card + 1,
    endsWithin_of_confined hconfined hfiles (enough_store entries houtputs) hbound (by omega)⟩

/-- A discovery after an import was resolved to a file. -/
def follow (d : Discovery) (context : Path) (importer : ModuleId) (i : Import) (path : Path)
    (query : Option String) : Discovery :=
  (d.addSource context path query).1.modify
    (·.addDependency importer ⟨i.specifier, (d.addSource context path query).2, i.kind⟩)

section NewFile

variable {context path : Path} {query : Option String} {importer : ModuleId} {i : Import}

theorem labels_follow (h : ∀ label ∈ labels d.graph, label.key ≠ (fileModule context path query).key) :
    labels (follow d context importer i path query).graph =
      labels d.graph ++ [labelOf (fileModule context path query)] := by
  have hgraph : (d.addSource context path query).1.graph =
      (d.graph.insert (fileModule context path query)).1 := rfl
  calc labels (follow d context importer i path query).graph
    _ = labels (d.addSource context path query).1.graph := labels_addDependency
    _ = labels d.graph ++ [labelOf (fileModule context path query)] := by
      rw [hgraph, insert_of_new h, labels, List.map_append, ← labels, List.map_singleton]

theorem pending_follow (h : ∀ label ∈ labels d.graph, label.key ≠ (fileModule context path query).key) :
    (follow d context importer i path query).pending = d.pending ++ [d.graph.size] := by
  calc (follow d context importer i path query).pending
    _ = (d.addSource context path query).1.pending := rfl
    _ = d.pending ++ [d.graph.size] := by
      rw [pending_addSource, insert_of_new h, size_append, if_pos (Nat.lt_succ_self _)]

end NewFile

theorem link_single {item : Processed} {i : Import} {path : Path} {query : Option String}
    (hside : item.outcome.output.side = [])
    (hparse : parses p item.type ((enterItem d item).graph.get item.id).path = true)
    (himports : item.outcome.output.primary.imports = [i])
    (hresolve : (p.resolver.resolve view i.specifier
      (((enterItem d item).graph.get item.id).directory p.resolver.context)).run =
        .ok (.file path query)) :
    (link p view item d).run.run =
      .ok (follow (enterItem d item) p.resolver.context item.id i path query) := by
  have hfollow : (linkImports p view item.id
      (((enterItem d item).graph.get item.id).directory p.resolver.context)
        item.outcome.output.primary.imports (enterItem d item)).run.run =
      .ok (follow (enterItem d item) p.resolver.context item.id i path query) := by
    rw [himports, linkImports, bind_eq_ok]
    exact ⟨.ok (.file path query), congrArg Except.ok hresolve, rfl⟩
  rw [link, bind_eq_ok]
  refine ⟨enterItem d item, ?_, ?_⟩
  · rw [hside]
    rfl
  · exact (congrArg (fun x : ExceptT BuildError Id Discovery => x.run.run) (if_pos hparse)).trans hfollow

theorem isMatch_empty (text : String) : Pattern.empty.isMatch text = true := by
  rw [Pattern.isMatch, Pattern.route, Pattern.Route.rest, Pattern.Route.follow, Nat.and_self,
    List.replicate_succ, Pattern.Places.ofList, List.foldr_cons]
  simp

/-- A script that requires a package named by two backslashes. -/
def strayText : ByteArray := "require(\"\\\\\");".toUTF8

def strayStore : FaultyStore where
  store := .ofFiles [(⟨"/p/a.js"⟩, strayText)]

/-- A configuration by which the package is sought behind the names of files. -/
def strayConfig : Config where
  context := ⟨"/q"⟩
  entry := .single "/p/a.js"
  module := { rules := [{ test := "", type := some .javascript }] }
  resolve := { modulePaths := [⟨"\\\\"⟩, ⟨"a.js"⟩] }
  optimization := { splitChunks := { defaultVendors := false, defaultGroup := false } }

def strayResolver : Resolver where
  context := ⟨"/q"⟩
  aliases := []
  extensions := [".js", ".json", ".wasm"]
  modulePaths := [⟨"\\\\"⟩, ⟨"a.js"⟩]
  mainFields := ["browser", "module", "main"]
  ignore := []
  externals := ∅

/-- A project of that configuration. -/
structure Stray (p : Project) : Prop where
  resolver : p.resolver = strayResolver
  rules : p.rules.rules = [⟨.empty, [], some .javascript, none, true, none⟩]
  noParse : p.noParse = []

def strayNames : List (List Char) := ["p".toList, "a.js".toList]

/-- The label of the script, found under a path with so many names of backslashes. -/
def strayLabel (count : Nat) : Label :=
  ⟨(deeper strayNames count).slashed, deeper strayNames count, none, .source⟩

/-- After so many waves the script was found under as many paths, and once more. -/
structure Strayed (count : Nat) (d : Discovery) : Prop where
  labels : labels d.graph = (List.range (count + 1)).map strayLabel
  pending : d.pending = [count]

def strayItem (id : ModuleId) : Processed where
  id := id
  type := .javascript
  outcome := { output := { primary := ⟨.script, strayText⟩ }, cacheHit := false }

variable {count : Nat}

theorem isPlain_strayNames : ∀ name ∈ strayNames, IsPlain name := by
  intro name hname
  rcases List.mem_pair.mp hname with rfl | rfl <;> exact ⟨⟨by decide, by decide⟩, by decide⟩

theorem strayNames_ne_nil : strayNames ≠ [] := List.cons_ne_nil _ _

theorem keyOf_stray (count : Nat) : MemoryStore.keyOf (deeper strayNames count) = "/p/a.js" := by
  rw [keyOf_deeper strayNames_ne_nil]
  decide +kernel

theorem isFile_stray (count : Nat) : (strayStore.view.isFile (deeper strayNames count)).run = true := by
  have hview (s : FaultyStore) (path : Path) :
      (s.view.isFile path).run = s.store.files.contains (MemoryStore.keyOf path) := rfl
  rw [hview, keyOf_stray]
  decide +kernel

theorem read_stray (count : Nat) :
    (strayStore.view.read (deeper strayNames count)).run = .ok strayText := by
  have hview (s : FaultyStore) (path : Path) (h : s.failReads = []) :
      (s.view.read path).run = s.store.read path := by
    change (if s.failReads.any path.endsWith then _ else _) = _
    rw [h]
    rfl
  have hstored : strayStore.store.files.get? "/p/a.js" = some strayText := by decide +kernel
  rw [hview _ _ rfl, MemoryStore.read, keyOf_stray, hstored]

theorem moduleKey_stray (count : Nat) :
    (deeper strayNames count).moduleKey ⟨"/q"⟩ none = (deeper strayNames count).slashed := by
  have houtside : (deeper strayNames count).stripPrefix ⟨"/q"⟩ = none := by
    have hcontext : (Path.mk "/q").components = [.root, .name ['q']] := by decide
    rw [Path.stripPrefix, Path.startsWith, deeper,
      components_spot (isPlain_of_mem_deeper isPlain_strayNames count), hcontext]
    simp [strayNames]
  rw [Path.moduleKey, houtside]

theorem resolve_stray (hp : Stray p) (count : Nat) :
    (p.resolver.resolve strayStore.view "\\\\"
      ((deeper strayNames count).parent.getD p.resolver.context)).run =
        .ok (.file (deeper strayNames (count + 1)) none) := by
  rw [hp.resolver]
  cases count with
  | zero => decide +kernel
  | succ count =>
      have hexternal : strayResolver.externals.get? "\\\\" = none := rfl
      have halias : strayResolver.applyAlias "\\\\" = "\\\\" := rfl
      have hcut : Cut "\\\\" "\\\\" none := ⟨by decide, by decide⟩
      obtain ⟨others, hcandidates⟩ :=
        candidates_deeper (r := strayResolver) isPlain_strayNames rfl count
      rw [parent_deeper isPlain_strayNames, Option.getD_some,
        resolve_run hexternal (by simp [strayResolver]) hcut, halias, hcandidates,
        lookupPaths_of_isFile (isFile_stray _)]

theorem matchPath_stray (hp : Stray p) (path : Path) :
    p.rules.matchPath? path = some ⟨⟨[]⟩, .javascript, [0]⟩ := by
  have hmatch : Pattern.empty.matchesPath path = true := isMatch_empty _
  simp [RuleSet.matchPath?, hp.rules, RuleSet.matching, hmatch, Rule.declaredType]

theorem process_stray (hp : Stray p) (id : ModuleId) (count : Nat) :
    ((process p strayStore.view id (deeper strayNames count)).run.run none).run =
      (.ok (strayItem id), none) := by
  rw [process, bind_run_eq_ok]
  refine ⟨_, none, lift_run_eq_ok.mpr ⟨read_stray count, rfl⟩, ?_⟩
  simp only [matchPath_stray hp]
  rfl

theorem imports_strayText : Artifact.imports ⟨.script, strayText⟩ = [⟨"\\\\", .static⟩] := by
  decide +kernel

theorem path_stray {g : ModuleGraph} (h : labels g = (List.range (count + 1)).map strayLabel) :
    (g.get count).path = deeper strayNames count := by
  have hget := labelOf_get_eq g count
  rw [h, List.getElem?_map, List.getElem?_range (Nat.lt_succ_self count)] at hget
  exact congrArg Label.path hget

theorem link_stray (hp : Stray p) (h : labels d.graph = (List.range (count + 1)).map strayLabel) :
    ∃ next, (link p strayStore.view (strayItem count) d).run.run = .ok next ∧
      labels next.graph = (List.range (count + 2)).map strayLabel ∧
      next.pending = d.pending ++ [count + 1] := by
  obtain ⟨entered, hentered⟩ : ∃ entered, entered = enterItem d (strayItem count) := ⟨_, rfl⟩
  have hlabels : labels entered.graph = (List.range (count + 1)).map strayLabel := by
    rw [hentered]
    exact labels_settle.trans h
  have hpending : entered.pending = d.pending := by
    rw [hentered]
    rfl
  have hsize : entered.graph.size = count + 1 := by
    have hlength := congrArg List.length hlabels
    rwa [labels, List.length_map, List.length_map, List.length_range] at hlength
  have hresolve : (p.resolver.resolve strayStore.view "\\\\"
      ((entered.graph.get count).directory p.resolver.context)).run =
        .ok (.file (deeper strayNames (count + 1)) none) := by
    rw [Module.directory, path_stray hlabels]
    exact resolve_stray hp count
  have hparse : parses p (strayItem count).type (entered.graph.get count).path = true := by
    rw [parses, hp.noParse]
    rfl
  have hkey : (fileModule p.resolver.context (deeper strayNames (count + 1)) none).key =
      (deeper strayNames (count + 1)).slashed := by
    rw [fileModule, hp.resolver]
    exact moduleKey_stray (count + 1)
  have hnew : ∀ label ∈ labels entered.graph,
      label.key ≠ (fileModule p.resolver.context (deeper strayNames (count + 1)) none).key := by
    rw [hlabels, hkey]
    intro label hlabel heq
    obtain ⟨i, hi, rfl⟩ := List.mem_map.mp hlabel
    obtain rfl := slashed_deeper_injective strayNames_ne_nil heq
    exact absurd (List.mem_range.mp hi) (Nat.lt_irrefl _)
  subst hentered
  refine ⟨_, link_single rfl hparse imports_strayText hresolve, ?_, ?_⟩
  · rw [labels_follow hnew, hlabels, labelOf, hkey, List.range_succ (n := count + 1), List.map_append]
    rfl
  · rw [pending_follow hnew, hpending, hsize]

theorem wave_stray (hp : Stray p) (hd : Strayed count d) :
    ∃ next, ((wave p strayStore.view d).run.run none).run = (.ok next, none) ∧
      Strayed (count + 1) next := by
  obtain ⟨next, hlink, hlabels, hpending⟩ :=
    link_stray (d := { d with pending := [] }) hp hd.labels
  have hprocess : ((processAll p strayStore.view d.graph d.pending).run.run none).run =
      (.ok [strayItem count], none) := by
    rw [hd.pending, processAll, path_stray hd.labels, bind_run_eq_ok]
    exact ⟨_, none, process_stray hp count count, rfl⟩
  have hall : (linkAll p strayStore.view [strayItem count] { d with pending := [] }).run.run =
      .ok next := by
    rw [linkAll, bind_eq_ok]
    exact ⟨next, hlink, rfl⟩
  refine ⟨next, ?_, ⟨hlabels, hpending⟩⟩
  rw [wave, bind_run_eq_ok]
  refine ⟨_, none, hprocess, ?_⟩
  rw [withoutCache, bind_run_eq_ok]
  exact ⟨.ok next, none, lift_run_eq_ok.mpr ⟨hall, rfl⟩, rfl⟩

theorem not_endsWithin_stray (hp : Stray p) (n : Nat) (hd : Strayed count d) :
    ¬ EndsWithin p strayStore.view n d none := by
  induction n generalizing d count with
  | zero =>
      intro hends
      exact absurd (hd.pending.symm.trans hends) (List.cons_ne_nil _ _)
  | succ n ih =>
      obtain ⟨next, hwave, hnext⟩ := wave_stray hp hd
      rintro (hempty | hends)
      · exact absurd (hd.pending.symm.trans hempty) (List.cons_ne_nil _ _)
      · exact ih hnext (hends next none hwave)

theorem project_of_config {c : Config} {registry : Registry} {plan : BuildPlan}
    (h : BuildPlan.ofConfig c registry = .ok plan) :
    BuildPlan.noParsePatterns 0 c.module.noParse = .ok plan.project.noParse ∧
      RuleSet.ofOptions registry c.module = .ok plan.project.rules := by
  obtain ⟨_, -, h⟩ := EmittedFiles.ok_of_bind h
  obtain ⟨_, -, h⟩ := EmittedFiles.ok_of_bind h
  obtain ⟨_, -, h⟩ := EmittedFiles.ok_of_bind h
  obtain ⟨noParse, hnoParse, h⟩ := EmittedFiles.ok_of_bind h
  obtain ⟨_, -, h⟩ := EmittedFiles.ok_of_bind h
  obtain ⟨rules, hrules, h⟩ := EmittedFiles.ok_of_bind h
  obtain ⟨_, -, hplan⟩ := EmittedFiles.ok_of_bind h
  obtain rfl := Except.ok.inj hplan
  exact ⟨hnoParse, hrules⟩

theorem exists_strayPlan : ∃ plan, BuildPlan.ofConfig strayConfig .builtins = .ok plan ∧
    plan.entries = [("main", "/p/a.js")] ∧ Stray plan.project := by
  obtain ⟨plan, hplan, hentries⟩ := exists_ok_of_any
    (fun plan : BuildPlan => plan.entries = [("main", "/p/a.js")])
    (BuildPlan.ofConfig strayConfig .builtins) (by decide +kernel)
  have hresolver : Resolver.ofConfig strayConfig = .ok strayResolver := by
    have haliases : ([] : List Alias).mergeSort Alias.precedes = [] := List.mergeSort_nil
    rw [strayResolver, ← haliases]
    rfl
  obtain ⟨hnoParse, hrules⟩ := project_of_config hplan
  refine ⟨plan, hplan, hentries, ⟨?_, ?_, ?_⟩⟩
  · exact Except.ok.inj ((plan_of_config hplan).2.symm.trans hresolver)
  · rw [← Except.ok.inj hrules]
    rfl
  · exact (Except.ok.inj hnoParse).symm

theorem addEntries_stray (hp : Stray p) : ∃ first,
    (addEntries p strayStore.view [("main", "/p/a.js")] {}).run.run = .ok first ∧ Strayed 0 first := by
  have hresolve : (p.resolver.resolve strayStore.view (entryRequest "/p/a.js") p.resolver.context).run =
      .ok (.file (deeper strayNames 0) none) := by
    rw [hp.resolver]
    decide +kernel
  refine ⟨(({} : Discovery).addSource p.resolver.context (deeper strayNames 0) none).1.modify
    (·.addEntry "main" 0), ?_, ?_, rfl⟩
  · rw [addEntries, bind_eq_ok]
    exact ⟨.ok (.file (deeper strayNames 0) none), congrArg Except.ok hresolve, rfl⟩
  · have hkey := moduleKey_stray 0
    have hcontext : p.resolver.context = ⟨"/q"⟩ := by rw [hp.resolver]; rfl
    rw [← hcontext] at hkey
    exact congrArg (fun key => [Label.mk key (deeper strayNames 0) none .source]) hkey

/-- Every file that a discovery finds enters one wave, in the order in which the files are found. The waves
end, if and only if the backslashes at the ends of the paths stay bounded; a limit on the number of waves
does not count then, if it is not too low. -/
theorem waves_end_iff {s : FaultyStore} {entries : List (String × String)}
    (h : (addEntries p s.view entries {}).run.run = .ok d) (cache : Option Cache) :
    (∀ rounds last after, Rounds p s.view d cache rounds last after →
      rounds.flatten ++ last.pending = sources last.graph) ∧
    ((∃ n, EndsWithin p s.view n d cache) ↔ ∃ bound, Bounded p s.view d cache bound) ∧
    ∀ n limit, EndsWithin p s.view n d cache → n ≤ limit →
      ((waves p s.view limit d).run.run cache).run = ((waves p s.view n d).run.run cache).run := by
  refine ⟨fun rounds last after hrounds => ?_, ⟨?_, ?_⟩, fun n limit => waves_of_endsWithin⟩
  · have hmoves : Moves p s.view (fun _ => True) {} d := addEntries_moves (fun _ _ => trivial) h
    obtain ⟨new, hpending, hsources⟩ := hmoves.queues
    have hwaiting : sources d.graph = [] ++ d.pending := hsources.trans hpending.symm
    exact (hrounds.sources hwaiting).symm
  · rintro ⟨n, hends⟩
    exact hends.bounded
  · rintro ⟨bound, hbound⟩
    exact endsWithin_of_bounded h hbound

/-- A script that requires itself. -/
def selfStore : FaultyStore where
  store := .ofFiles [(⟨"/p/a.js"⟩, "require(\"./a\")".toUTF8)]

theorem waves_end_iff_self : ∃ first,
    (addEntries plainProject selfStore.view [("main", "./a.js")] {}).run.run = .ok first ∧
      (∃ n, EndsWithin plainProject selfStore.view n first none) ∧
      ∃ bound, Bounded plainProject selfStore.view first none bound := by
  obtain ⟨first, hfirst, hwave⟩ := exists_ok_of_any
    (fun first : Discovery => ((wave plainProject selfStore.view first).run.run none).run.1.toOption.any
      (fun next : Discovery => decide (next.pending = [])) = true)
    (addEntries plainProject selfStore.view [("main", "./a.js")] {}).run.run (by decide +kernel)
  obtain ⟨next, between, heq, hempty⟩ := exists_ok (fun next : Discovery => next.pending = []) _ hwave
  have hends : EndsWithin plainProject selfStore.view 1 first none := by
    refine .inr fun next' between' hwave' => ?_
    obtain rfl := Except.ok.inj (congrArg Prod.fst (heq.symm.trans hwave'))
    exact hempty
  exact ⟨first, hfirst, ⟨1, hends⟩, (waves_end_iff hfirst none).2.1.mp ⟨1, hends⟩⟩

/-- A script that is found under ever longer paths keeps the waves going. -/
theorem waves_go_on : ∃ plan first, BuildPlan.ofConfig strayConfig .builtins = .ok plan ∧
    (addEntries plan.project strayStore.view plan.entries {}).run.run = .ok first ∧
    ∀ n, ¬ EndsWithin plan.project strayStore.view n first none := by
  obtain ⟨plan, hplan, hentries, hstray⟩ := exists_strayPlan
  obtain ⟨first, hfirst, hstrayed⟩ := addEntries_stray hstray
  rw [← hentries] at hfirst
  exact ⟨plan, first, hplan, hfirst, fun n => not_endsWithin_stray hstray n hstrayed⟩

end WebBundle.Proofs.DiscoveryRounds
