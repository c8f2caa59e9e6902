import Mathlib.Data.List.Forall2
import WebBundle.Proofs.LinkedModules
import WebBundle.Proofs.ProcessedFiles

namespace WebBundle.Proofs.DiscoveryRun

open WebBundle.Discovery
open WebBundle.Proofs.CachedRuns
open WebBundle.Proofs.DiscoverySteps
open WebBundle.Proofs.GraphGrowth
open WebBundle.Proofs.LinkedModules
open WebBundle.Proofs.ProcessedFiles

variable {p : Project} {view : FileView Id} {R : Makes} {d d' : Discovery}
variable {g g' : ModuleGraph} {id limit : Nat} {cache after : Option Cache} {all : List Call}
variable {entries rest : List (String × String)} {new : List (String × ModuleId)}

theorem withoutCache_eq_ok {α : Type} {x : ExceptT BuildError Id α} {a : α}
    (h : ((withoutCache x).run.run cache).run = (.ok a, after)) : x.run.run = .ok a ∧ cache = after := by
  rw [withoutCache, bind_run_eq_ok] at h
  obtain ⟨result, next, hlift, h⟩ := h
  obtain ⟨hresult, rfl⟩ := lift_run_eq_ok.mp hlift
  split at h
  · obtain ⟨rfl, rfl⟩ := pure_run_eq_ok.mp h
    exact ⟨hresult, rfl⟩
  · simp at h

/-- What became of an entry: its name and the module that is found by the key of its file. -/
def EntryFor (p : Project) (view : FileView Id) (g : ModuleGraph) (entry : String × String)
    (entered : String × ModuleId) : Prop :=
  entered.1 = entry.1 ∧ ∃ path query,
    (p.resolver.resolve view (entryRequest entry.2) p.resolver.context).run = .ok (.file path query) ∧
      g.lookup (path.moduleKey p.resolver.context query) = some entered.2

theorem EntryFor.mono {entry : String × String} {entered : String × ModuleId} (hg : Grows g g')
    (h : EntryFor p view g entry entered) : EntryFor p view g' entry entered := by
  obtain ⟨hname, path, query, hresolve, hlookup⟩ := h
  exact ⟨hname, path, query, hresolve, hg.lookup hlookup⟩

theorem addEntries_cons {name path : String}
    (h : (addEntries p view ((name, path) :: rest) d).run.run = .ok d') : ∃ file query,
      (p.resolver.resolve view (entryRequest path) p.resolver.context).run = .ok (.file file query) ∧
      (addEntries p view rest ((d.addSource p.resolver.context file query).1.modify (·.addEntry name
        (d.graph.insert (fileModule p.resolver.context file query)).2))).run.run = .ok d' := by
  rw [addEntries, bind_eq_ok] at h
  obtain ⟨result, hlift, h⟩ := h
  have hresult : (p.resolver.resolve view (entryRequest path) p.resolver.context).run = result := by
    simpa using hlift
  split at h
  · next file query => exact ⟨file, query, hresult, h⟩
  · simp at h
  · simp at h

theorem addEntries_advance (h : (addEntries p view entries d).run.run = .ok d') :
    ∃ new, Advance p view R new d d' ∧ List.Forall₂ (EntryFor p view d'.graph) entries new := by
  induction entries generalizing d with
  | nil =>
      obtain rfl : d = d' := Except.ok.inj h
      exact ⟨[], .refl d, .nil⟩
  | cons entry rest ih =>
      obtain ⟨name, path⟩ := entry
      obtain ⟨file, query, hresolve, h⟩ := addEntries_cons h
      have hm : Addable p view R d.graph (wanted p.resolver.context p.resolver.context
          (entryRequest path) (.file file query)) := .target hresolve
      have hadds : Adds d (fileModule p.resolver.context file query)
        (d.addSource p.resolver.context file query).1 := adds_addSource _
      have hfirst : Advance p view R [(name, _)] d _ := hadds.enter hm
      obtain ⟨new, hrest, hentries⟩ := ih h
      refine ⟨_, hfirst.trans hrest, .cons ⟨rfl, file, query, hresolve, ?_⟩ hentries⟩
      have hlookup := lookup_insert (g := d.graph) (m := fileModule p.resolver.context file query)
      exact hrest.steps.grows.lookup hlookup

/-- The modules that wait are modules of files. -/
def Waiting (d : Discovery) : Prop :=
  ∀ id ∈ d.pending, id < d.graph.size ∧ (d.graph.get id).origin = .source

theorem exists_items (h : ((wave p view d).run.run cache).run = (.ok d', after)) : ∃ items,
    ((processAll p view d.graph d.pending).run.run cache).run = (.ok items, after) ∧
      (linkAll p view items { d with pending := [] }).run.run = .ok d' := by
  rw [wave, bind_run_eq_ok] at h
  obtain ⟨items, next, hitems, h⟩ := h
  obtain ⟨hlink, rfl⟩ := withoutCache_eq_ok h
  exact ⟨items, hitems, hlink⟩

theorem wave_advance (hwaiting : Waiting d) {items : List Processed}
    (hprocess : ((processAll p view d.graph d.pending).run.run cache).run = (.ok items, after))
    (hmade : ∀ item ∈ items, R (d.graph.get item.id).path item.type item.outcome.output)
    (h : (linkAll p view items { d with pending := [] }).run.run = .ok d') :
    Advance p view R [] { d with pending := [] } d' ∧ Waiting d' ∧ (Functional R →
      ∀ id ∈ d.pending, ∃ type output, R (d.graph.get id).path type output ∧
        Finished p view d'.graph id type output) := by
  have hids := processAll_ids hprocess
  have hitems : ∀ item ∈ items, item.id < d.graph.size ∧ (d.graph.get item.id).origin = .source ∧
      R (d.graph.get item.id).path item.type item.outcome.output := by
    intro item hitem
    obtain ⟨hlt, hsource⟩ := hwaiting item.id (hids ▸ List.mem_map_of_mem hitem)
    exact ⟨hlt, hsource, hmade item hitem⟩
  obtain ⟨hadvance, hfinished⟩ := linkAll_advance (d := { d with pending := [] }) hitems h
  refine ⟨hadvance, fun id hid => ?_, fun hR id hid => ?_⟩
  · exact (hadvance.pending id hid).resolve_left List.not_mem_nil
  · rw [← hids] at hid
    obtain ⟨item, hitem, rfl⟩ := List.mem_map.mp hid
    exact ⟨item.type, item.outcome.output, hmade item hitem, hfinished hR item hitem⟩

theorem waves_cases (h : ((waves p view limit d).run.run cache).run = (.ok d', after)) :
    (d.pending = [] ∧ d = d' ∧ cache = after) ∨ ∃ limit' next between,
      limit = limit' + 1 ∧ ((wave p view d).run.run cache).run = (.ok next, between) ∧
        ((waves p view limit' next).run.run between).run = (.ok d', after) := by
  cases limit with
  | zero =>
      rw [waves] at h
      split at h
      · next hempty =>
          obtain ⟨rfl, rfl⟩ := pure_run_eq_ok.mp h
          exact .inl ⟨List.isEmpty_iff.mp hempty, rfl, rfl⟩
      · simp at h
  | succ limit =>
      rw [waves] at h
      split at h
      · next hempty =>
          obtain ⟨rfl, rfl⟩ := pure_run_eq_ok.mp h
          exact .inl ⟨List.isEmpty_iff.mp hempty, rfl, rfl⟩
      · rw [bind_run_eq_ok] at h
        obtain ⟨next, between, hwave, h⟩ := h
        exact .inr ⟨limit, next, between, rfl, hwave, h⟩

theorem waves_grows (hwaiting : Waiting d)
    (h : ((waves p view limit d).run.run cache).run = (.ok d', after)) :
    Grows d.graph d'.graph := by
  induction limit generalizing d cache with
  | zero =>
      obtain ⟨-, rfl, -⟩ | ⟨limit, -, -, hlimit, -⟩ := waves_cases h
      · exact .refl _
      · exact absurd hlimit (Nat.succ_ne_zero limit).symm
  | succ limit ih =>
      obtain ⟨-, rfl, -⟩ | ⟨limit', next, between, hlimit, hwave, h⟩ := waves_cases h
      · exact .refl _
      · obtain rfl := Nat.succ.inj hlimit
        obtain ⟨items, hprocess, hlink⟩ := exists_items hwave
        obtain ⟨hadvance, hnext, -⟩ := wave_advance (R := fun _ _ _ => True) hwaiting hprocess
          (fun _ _ => trivial) hlink
        exact hadvance.steps.grows.trans (ih hnext h)

/-- The modules of files that do not wait are finished. -/
structure Covered (p : Project) (view : FileView Id) (d : Discovery) : Prop where
  sound : Sound p view (Made p view) d.graph
  waiting : Waiting d
  finished : ∀ id < d.graph.size, (d.graph.get id).origin = .source → id ∉ d.pending →
    ∃ type output, Made p view (d.graph.get id).path type output ∧
      Finished p view d.graph id type output

theorem functional_made : Functional (Made p view) := fun _ _ _ _ _ h h' => h.unique h'

theorem mem_callsOf_iff {call : Call} : call ∈ callsOf p view g ↔
    ∃ id < g.size, (g.get id).origin = .source ∧ call? p view (g.get id).path = some call := by
  simp only [callsOf, List.mem_filterMap, List.mem_filter, decide_eq_true_eq]
  constructor
  · rintro ⟨m, ⟨hm, hsource⟩, hcall⟩
    obtain ⟨id, hid, rfl⟩ := List.mem_iff_getElem.mp hm
    rw [← get_eq_getElem hid] at hsource hcall
    exact ⟨id, hid, hsource, hcall⟩
  · rintro ⟨id, hid, hsource, hcall⟩
    refine ⟨g.get id, ⟨?_, hsource⟩, hcall⟩
    rw [get_eq_getElem hid]
    exact List.getElem_mem hid

theorem callsOf_subset (hg : Grows g g') : callsOf p view g ⊆ callsOf p view g' := by
  intro call hcall
  obtain ⟨id, hid, hsource, hcall⟩ := mem_callsOf_iff.mp hcall
  have hsame := hg.same id hid
  exact mem_callsOf_iff.mpr ⟨id, Nat.lt_of_lt_of_le hid hg.size_le, hsame.origin.trans hsource,
    hsame.path ▸ hcall⟩

theorem wave_covered (hd : Covered p view d) (hcache : Serves all cache)
    (hcalls : ∀ call ∈ callsOf p view d.graph, call ∈ all)
    (h : ((wave p view d).run.run cache).run = (.ok d', after)) :
    Covered p view d' ∧ Serves all after ∧ d'.graph.entries = d.graph.entries := by
  obtain ⟨items, hprocess, hlink⟩ := exists_items h
  have hpending : ∀ id ∈ d.pending, ∀ call, call? p view (d.graph.get id).path = some call →
      call ∈ all := by
    intro id hid call hcall
    obtain ⟨hlt, hsource⟩ := hd.waiting id hid
    exact hcalls call (mem_callsOf_iff.mpr ⟨id, hlt, hsource, hcall⟩)
  obtain ⟨hmade, hafter⟩ := processAll_made hcache hpending hprocess
  obtain ⟨hadvance, hwaiting, hfinished⟩ := wave_advance hd.waiting hprocess hmade hlink
  have hgrows := hadvance.steps.grows
  refine ⟨⟨hadvance.steps.sound hd.sound, hwaiting, fun id hid hsource hdone => ?_⟩, hafter, ?_⟩
  · rcases Nat.lt_or_ge id d.graph.size with hold | hnew
    · have hsame := hgrows.same id hold
      by_cases hwaited : id ∈ d.pending
      · obtain ⟨type, output, hmade, hfinished⟩ := hfinished functional_made id hwaited
        exact ⟨type, output, hsame.path ▸ hmade, hfinished⟩
      · obtain ⟨type, output, hmade, hbefore⟩ :=
          hd.finished id hold (hsame.origin.symm.trans hsource) hwaited
        exact ⟨type, output, hsame.path ▸ hmade,
          hbefore.steps functional_made hadvance.steps hold hmade⟩
    · -- a file that was added waits
      exact absurd (hadvance.waits id hnew hid hsource) hdone
  · rw [hadvance.entries, List.append_nil]

theorem waves_covered (hd : Covered p view d) (hcache : Serves all cache)
    (hcalls : ∀ call ∈ callsOf p view d'.graph, call ∈ all)
    (h : ((waves p view limit d).run.run cache).run = (.ok d', after)) :
    Covered p view d' ∧ d'.pending = [] ∧ d'.graph.entries = d.graph.entries := by
  induction limit generalizing d cache with
  | zero =>
      obtain ⟨hempty, rfl, -⟩ | ⟨limit, -, -, hlimit, -⟩ := waves_cases h
      · exact ⟨hd, hempty, rfl⟩
      · exact absurd hlimit (Nat.succ_ne_zero limit).symm
  | succ limit ih =>
      have hgrows := waves_grows hd.waiting h
      obtain ⟨hempty, rfl, -⟩ | ⟨limit', next, between, hlimit, hwave, h⟩ := waves_cases h
      · exact ⟨hd, hempty, rfl⟩
      · obtain rfl := Nat.succ.inj hlimit
        have hbefore : ∀ call ∈ callsOf p view d.graph, call ∈ all := fun call hcall =>
          hcalls call (callsOf_subset hgrows hcall)
        obtain ⟨hnext, hbetween, hentries⟩ := wave_covered hd hcache hbefore hwave
        obtain ⟨hlast, hempty, hentries'⟩ := ih hnext hbetween h
        exact ⟨hlast, hempty, hentries'.trans hentries⟩

/-- A cache that is safe for the files of a graph: if there is one, its outputs are those of calls
that its keys tell apart, also from the calls for these files. -/
def Reliable (p : Project) (view : FileView Id) (g : ModuleGraph) (cache : Option Cache) : Prop :=
  ∃ earlier, Serves (earlier ++ callsOf p view g) cache

theorem reliable_none : Reliable p view g none := ⟨[], nofun⟩

/-- What a discovery has found when it ends. -/
structure Complete (p : Project) (view : FileView Id) (entries : List (String × String))
    (g : ModuleGraph) : Prop where
  sound : Sound p view (Made p view) g
  entered : List.Forall₂ (EntryFor p view g) entries g.entries
  finished : ∀ id < g.size, (g.get id).origin = .source →
    ∃ type output, Made p view (g.get id).path type output ∧ Finished p view g id type output

theorem complete_of_run (h : ((run p view entries).run.run cache).run = (.ok d, after))
    (hcache : Reliable p view d.graph cache) : Complete p view entries d.graph := by
  obtain ⟨earlier, hcache⟩ := hcache
  rw [run, bind_run_eq_ok] at h
  obtain ⟨first, next, hadded, h⟩ := h
  obtain ⟨hentries, rfl⟩ := withoutCache_eq_ok hadded
  rw [bind_run_eq_ok] at h
  obtain ⟨last, between, hwaves, h⟩ := h
  obtain ⟨rfl, rfl⟩ := pure_run_eq_ok.mp h
  obtain ⟨new, hadvance, hentered⟩ := addEntries_advance (R := Made p view) hentries
  have hcovered : Covered p view first := by
    refine ⟨hadvance.steps.sound sound_empty, fun id hid => ?_, fun id hid hsource hdone => ?_⟩
    · exact (hadvance.pending id hid).resolve_left List.not_mem_nil
    · exact absurd (hadvance.waits id (Nat.zero_le id) hid hsource) hdone
  have hcalls : ∀ call ∈ callsOf p view last.graph, call ∈ earlier ++ callsOf p view last.graph :=
    fun call hcall => List.mem_append_right _ hcall
  have hgrows : Grows first.graph last.graph := waves_grows hcovered.waiting hwaves
  obtain ⟨hlast, hempty, hsame⟩ := waves_covered hcovered hcache hcalls hwaves
  refine ⟨hlast.sound, ?_, fun id hid hsource => hlast.finished id hid hsource ?_⟩
  · have heq : last.warnOfCycles.graph.entries = new := by
      rw [warnOfCycles, hsame, hadvance.entries]
      rfl
    rw [heq]
    exact hentered.imp fun _ _ hentry => hentry.mono hgrows
  · rw [hempty]
    exact List.not_mem_nil

end WebBundle.Proofs.DiscoveryRun
