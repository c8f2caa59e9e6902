import Mathlib.Data.List.Nodup
import WebBundle.Proofs.DiscoveryRun
import WebBundle.Proofs.OutputManifest

namespace WebBundle.Proofs.SourceOrder

open Relation
open WebBundle.Discovery
open WebBundle.Proofs.DiscoveryRun
open WebBundle.Proofs.DiscoverySteps
open WebBundle.Proofs.GraphGrowth
open WebBundle.Proofs.LinkedModules
open WebBundle.Proofs.OutputManifest (nodup_keys)
open WebBundle.Proofs.ProcessedFiles

/-- What a module has from the start. -/
structure Label where
  key : String
  path : Path
  query : Option String
  origin : ModuleOrigin

def labelOf (m : Module) : Label := ⟨m.key, m.path, m.query, m.origin⟩

def labels (g : ModuleGraph) : List Label := g.modules.map labelOf

/-- The modules of files, in the order in which they were found. -/
def sources (g : ModuleGraph) : List ModuleId :=
  (List.range g.size).filter fun id => decide ((g.get id).origin = .source)

/-- A step of a discovery, as far as files are concerned: none is found, or one for a specifier. -/
inductive Move (p : Project) (view : FileView Id) (asked : String → Prop) : Discovery → Discovery → Prop
  | change {d d' : Discovery} :
      labels d'.graph = labels d.graph → d'.pending = d.pending → Move p view asked d d'
  | add {d : Discovery} {m : Module} : m.origin ≠ .source → Move p view asked d (d.addModule m).1
  | find {d : Discovery} {specifier : String} {directory path : Path} {query : Option String} :
      asked specifier → (p.resolver.resolve view specifier directory).run = .ok (.file path query) →
      Move p view asked d (d.addSource p.resolver.context path query).1

abbrev Moves (p : Project) (view : FileView Id) (asked : String → Prop) : Discovery → Discovery → Prop :=
  ReflTransGen (Move p view asked)

/-- The specifiers in what the transforms made of a file. -/
def specifiers (output : ChainOutput) : List String :=
  ((output.primary :: output.side).flatMap Artifact.imports).map Import.specifier

variable {p : Project} {view : FileView Id} {asked : String → Prop} {d d' : Discovery}
variable {g g' : ModuleGraph} {m : Module} {id importer owner : ModuleId} {directory path : Path}
variable {query : Option String} {imports : List Import} {label : Label}

theorem labels_modify {change : Module → Module} (h : ∀ m, labelOf (change m) = labelOf m) :
    labels (g.modify id change) = labels g := by
  refine List.ext_getElem? fun n => ?_
  rw [labels, labels, List.getElem?_map, List.getElem?_map, ModuleGraph.modify, List.getElem?_modify]
  cases g.modules[n]? with
  | none => rfl
  | some m =>
      simp only [Option.map_eq_map, Option.map_some]
      split
      · rw [h m]
      · rfl

theorem labels_addDependency {dependency : Dependency} :
    labels (g.addDependency importer dependency) = labels g := by
  refine labels_modify fun m => ?_
  split <;> rfl

theorem labels_settle {type : ModuleType} {artifact : Artifact} :
    labels (settle g id type artifact) = labels g :=
  labels_modify fun _ => rfl

theorem insert_of_new (h : ∀ label ∈ labels g, label.key ≠ m.key) :
    g.insert m = ({ g with modules := g.modules ++ [m] }, g.size) := by
  refine insert_of_none (List.findIdx?_eq_none_iff.mpr fun m' hm' => ?_)
  exact beq_eq_false_iff_ne.mpr (h _ (List.mem_map_of_mem hm'))

theorem labels_insert : labels (g.insert m).1 = labels g ∨
    ((∀ label ∈ labels g, label.key ≠ m.key) ∧ labels (g.insert m).1 = labels g ++ [labelOf m]) := by
  by_cases hnew : ∀ label ∈ labels g, label.key ≠ m.key
  · refine .inr ⟨hnew, ?_⟩
    rw [insert_of_new hnew]
    exact List.map_append
  · cases hlookup : g.lookup m.key with
    | some found => exact .inl (by rw [insert_of_some hlookup])
    | none =>
        refine absurd (fun label hlabel heq => ?_) hnew
        obtain ⟨m', hm', rfl⟩ := List.mem_map.mp hlabel
        exact absurd heq (beq_eq_false_iff_ne.mp (List.findIdx?_eq_none_iff.mp hlookup m' hm'))

theorem size_of_labels (h : labels g' = labels g) : g'.size = g.size := by
  have hlength := congrArg List.length h
  rwa [labels, labels, List.length_map, List.length_map] at hlength

theorem labelOf_get (h : id < g.size) : labelOf (g.get id) ∈ labels g := by
  rw [get_eq_getElem h]
  exact List.mem_map_of_mem (List.getElem_mem h)

theorem labelOf_get_eq (g : ModuleGraph) (id : ModuleId) :
    labelOf (g.get id) = ((labels g)[id]?).getD (labelOf default) := by
  rw [ModuleGraph.get, labels, List.getElem?_map, List.getD_eq_getElem?_getD]
  cases g.modules[id]? <;> rfl

theorem labelOf_get_congr (h : labels g' = labels g) (id : ModuleId) :
    labelOf (g'.get id) = labelOf (g.get id) := by
  rw [labelOf_get_eq, labelOf_get_eq, h]

theorem sources_congr (h : labels g' = labels g) : sources g' = sources g := by
  rw [sources, sources, size_of_labels h]
  refine List.filter_congr fun id _ => ?_
  have horigin := congrArg Label.origin (labelOf_get_congr h id)
  simp only [labelOf] at horigin
  rw [horigin]

theorem mem_sources : id ∈ sources g ↔ id < g.size ∧ (g.get id).origin = .source := by
  rw [sources, List.mem_filter, List.mem_range, decide_eq_true_eq]

theorem sources_insert : sources (g.insert m).1 = sources g ++
    if g.size < (g.insert m).1.size ∧ m.origin = .source then [(g.insert m).2] else [] := by
  cases hlookup : g.lookup m.key with
  | some found =>
      rw [insert_of_some hlookup, if_neg fun h => Nat.lt_irrefl _ h.1, List.append_nil]
  | none =>
      rw [insert_of_none hlookup, sources, size_append, List.range_succ, List.filter_append]
      congr 1
      · refine List.filter_congr fun id hid => ?_
        rw [get_append, if_neg (Nat.ne_of_lt (List.mem_range.mp hid))]
      · by_cases horigin : m.origin = .source <;> simp [get_append, horigin]

/-- What a step does to the files: some new ones wait behind the others. -/
def Queues (d d' : Discovery) : Prop :=
  ∃ new, d'.pending = d.pending ++ new ∧ sources d'.graph = sources d.graph ++ new

theorem Move.queues (h : Move p view asked d d') : Queues d d' := by
  cases h with
  | change hlabels hpending =>
      refine ⟨[], ?_, ?_⟩
      · rw [hpending, List.append_nil]
      · rw [sources_congr hlabels, List.append_nil]
  | add horigin =>
      refine ⟨[], (List.append_nil _).symm, ?_⟩
      rw [addModule, sources_insert, if_neg fun h => horigin h.2]
  | @find _ _ path query =>
      have hgraph : (d.addSource p.resolver.context path query).1.graph =
        (d.graph.insert (fileModule p.resolver.context path query)).1 := rfl
      refine ⟨_, ?_, hgraph ▸ sources_insert⟩
      rw [pending_addSource]
      split
      · next hnew => rw [if_pos ⟨hnew, rfl⟩]
      · next hold => rw [if_neg fun h => hold h.1, List.append_nil]

theorem Moves.queues (h : Moves p view asked d d') : Queues d d' := by
  induction h with
  | refl => exact ⟨[], (List.append_nil _).symm, (List.append_nil _).symm⟩
  | tail _ hmove ih =>
      obtain ⟨new, hpending, hsources⟩ := ih
      obtain ⟨new', hpending', hsources'⟩ := hmove.queues
      refine ⟨new ++ new', ?_, ?_⟩
      · rw [hpending', hpending, List.append_assoc]
      · rw [hsources', hsources, List.append_assoc]

/-- The label of a file that was found for a specifier. -/
structure FileLabel (p : Project) (view : FileView Id) (asked : String → Prop) (label : Label) :
    Prop where
  key : label.key = label.path.moduleKey p.resolver.context label.query
  found : ∃ specifier directory, asked specifier ∧
    (p.resolver.resolve view specifier directory).run = .ok (.file label.path label.query)

/-- All modules have different keys, and those of files were found for specifiers. -/
structure Labelled (p : Project) (view : FileView Id) (asked : String → Prop) (g : ModuleGraph) :
    Prop where
  nodup : ((labels g).map Label.key).Nodup
  files : ∀ label ∈ labels g, label.origin = .source → FileLabel p view asked label

theorem labelled_empty : Labelled p view asked {} := ⟨.nil, nofun⟩

theorem Labelled.insert (h : Labelled p view asked g)
    (hm : m.origin = .source → FileLabel p view asked (labelOf m)) :
    Labelled p view asked (g.insert m).1 := by
  rcases labels_insert (g := g) (m := m) with heq | ⟨hnew, heq⟩
  · exact ⟨heq ▸ h.nodup, heq ▸ h.files⟩
  · refine ⟨?_, fun label hlabel horigin => ?_⟩
    · rw [heq, List.map_append, List.map_singleton, List.nodup_append]
      refine ⟨h.nodup, List.pairwise_singleton .., ?_⟩
      rintro key hkey _ hsame rfl
      obtain ⟨label, hlabel, rfl⟩ := List.mem_map.mp hkey
      exact hnew label hlabel (List.mem_singleton.mp hsame)
    · rw [heq, List.mem_append, List.mem_singleton] at hlabel
      rcases hlabel with hlabel | rfl
      · exact h.files label hlabel horigin
      · exact hm horigin

theorem Move.labelled (h : Move p view asked d d') (hd : Labelled p view asked d.graph) :
    Labelled p view asked d'.graph := by
  cases h with
  | change hlabels => exact ⟨hlabels ▸ hd.nodup, hlabels ▸ hd.files⟩
  | add horigin => exact hd.insert fun hsource => absurd hsource horigin
  | find hasked hresolve => exact hd.insert fun _ => ⟨rfl, _, _, hasked, hresolve⟩

theorem Moves.labelled (h : Moves p view asked d d') (hd : Labelled p view asked d.graph) :
    Labelled p view asked d'.graph := by
  induction h with
  | refl => exact hd
  | tail _ hmove ih => exact hmove.labelled ih

theorem Labelled.file (h : Labelled p view asked g) (hid : id ∈ sources g) :
    FileLabel p view asked (labelOf (g.get id)) := by
  obtain ⟨hlt, horigin⟩ := mem_sources.mp hid
  exact h.files _ (labelOf_get hlt) horigin

theorem Labelled.nodup_files (h : Labelled p view asked g) :
    ((sources g).map fun id => ((g.get id).path, (g.get id).query)).Nodup := by
  have hmodules : (g.modules.map Module.key).Nodup := by
    have hlabels : (labels g).map Label.key = g.modules.map Module.key := List.map_map
    exact hlabels ▸ h.nodup
  have hkeys : ((sources g).map fun id => (g.get id).key).Nodup :=
    nodup_keys hmodules (List.nodup_range.filter _) fun id hid => (mem_sources.mp hid).1
  have hkey : ((sources g).map fun id => (g.get id).key) =
      ((sources g).map fun id => ((g.get id).path, (g.get id).query)).map
        fun file => file.1.moduleKey p.resolver.context file.2 := by
    rw [List.map_map]
    exact List.map_congr_left fun id hid => (h.file hid).key
  rw [hkey] at hkeys
  exact .of_map _ hkeys

theorem moves_connect {dependency : Dependency} (h : Move p view asked d d') :
    Moves p view asked d (d'.modify (·.addDependency importer dependency)) :=
  .tail (.single h) (.change labels_addDependency rfl)

theorem linkImports_moves (hasked : ∀ i ∈ imports, asked i.specifier)
    (h : (linkImports p view importer directory imports d).run.run = .ok d') :
    Moves p view asked d d' := by
  induction imports generalizing d with
  | nil =>
      obtain rfl : d = d' := Except.ok.inj h
      exact .refl
  | cons i rest ih =>
      obtain ⟨resolution, hresolve, h⟩ := linkImports_cons h
      refine .trans (moves_connect ?_) (ih (fun i hi => hasked i (List.mem_cons_of_mem _ hi)) h)
      cases resolution with
      | file path query => exact .find (hasked i List.mem_cons_self) hresolve
      | external global => exact .add nofun
      | ignored => exact .add nofun

theorem followIf_moves {parse : Bool} (hasked : ∀ i ∈ imports, asked i.specifier)
    (h : (if parse then linkImports p view importer directory imports d else pure d).run.run =
      .ok d') : Moves p view asked d d' := by
  cases parse with
  | false =>
      obtain rfl : d = d' := Except.ok.inj h
      exact .refl
  | true => exact linkImports_moves hasked h

theorem linkSides_moves {parse : Bool} {index : Nat} {artifacts : List Artifact}
    (hasked : ∀ artifact ∈ artifacts, ∀ i ∈ artifact.imports, asked i.specifier)
    (h : (linkSides p view owner path query parse index artifacts d).run.run = .ok d') :
    Moves p view asked d d' := by
  induction artifacts generalizing d index with
  | nil =>
      obtain rfl : d = d' := Except.ok.inj h
      exact .refl
  | cons artifact rest ih =>
      obtain ⟨next, hfollow, h⟩ := linkSides_cons h
      have hattach : Moves p view asked d (attach p d owner path (sideQuery query index) artifact) :=
        moves_connect (.add nofun)
      have hnext := followIf_moves (hasked artifact List.mem_cons_self) hfollow
      exact hattach.trans (hnext.trans
        (ih (fun other hother => hasked other (List.mem_cons_of_mem _ hother)) h))

theorem asked_of_specifiers {output : ChainOutput} (h : ∀ s ∈ specifiers output, asked s)
    {artifact : Artifact} (hartifact : artifact ∈ output.primary :: output.side) :
    ∀ i ∈ artifact.imports, asked i.specifier := fun _ hi =>
  h _ (List.mem_map_of_mem (List.mem_flatMap.mpr ⟨artifact, hartifact, hi⟩))

theorem link_moves {item : Processed} (hasked : ∀ s ∈ specifiers item.outcome.output, asked s)
    (h : (link p view item d).run.run = .ok d') : Moves p view asked d d' := by
  rw [link, bind_eq_ok] at h
  obtain ⟨next, hsides, h⟩ := h
  have henter : Move p view asked d (enterItem d item) := .change labels_settle rfl
  have hnext : Moves p view asked (enterItem d item) next := linkSides_moves
    (fun _ hartifact => asked_of_specifiers hasked (List.mem_cons_of_mem _ hartifact)) hsides
  exact .head henter
    (hnext.trans (followIf_moves (asked_of_specifiers hasked List.mem_cons_self) h))

theorem linkAll_moves {items : List Processed}
    (hasked : ∀ item ∈ items, ∀ s ∈ specifiers item.outcome.output, asked s)
    (h : (linkAll p view items d).run.run = .ok d') : Moves p view asked d d' := by
  induction items generalizing d with
  | nil =>
      obtain rfl : d = d' := Except.ok.inj h
      exact .refl
  | cons item rest ih =>
      rw [linkAll, bind_eq_ok] at h
      obtain ⟨next, hitem, h⟩ := h
      exact (link_moves (hasked item List.mem_cons_self) hitem).trans
        (ih (fun other hother => hasked other (List.mem_cons_of_mem _ hother)) h)

theorem addEntries_moves {entries : List (String × String)}
    (hasked : ∀ entry ∈ entries, asked (entryRequest entry.2))
    (h : (addEntries p view entries d).run.run = .ok d') : Moves p view asked d d' := by
  induction entries generalizing d with
  | nil =>
      obtain rfl : d = d' := Except.ok.inj h
      exact .refl
  | cons entry rest ih =>
      obtain ⟨name, path⟩ := entry
      obtain ⟨file, query, hresolve, h⟩ := addEntries_cons h
      have hfind : Move p view asked d (d.addSource p.resolver.context file query).1 :=
        .find (hasked (name, path) List.mem_cons_self) hresolve
      have hrest := ih (fun other hother => hasked other (List.mem_cons_of_mem _ hother)) h
      have henter {id : ModuleId} : Move p view asked (d.addSource p.resolver.context file query).1
        ((d.addSource p.resolver.context file query).1.modify (·.addEntry name id)) := .change rfl rfl
      exact .head hfind (.head henter hrest)

/-- The files that a wave finds are those that wait behind it. -/
theorem wave_moves {items : List Processed}
    (hasked : ∀ item ∈ items, ∀ s ∈ specifiers item.outcome.output, asked s)
    (h : (linkAll p view items { d with pending := [] }).run.run = .ok d') :
    Moves p view asked { d with pending := [] } d' ∧
      sources d'.graph = sources d.graph ++ d'.pending := by
  have hmoves := linkAll_moves hasked h
  obtain ⟨new, hpending, hsources⟩ := hmoves.queues
  obtain rfl : d'.pending = new := hpending
  exact ⟨hmoves, hsources⟩

end WebBundle.Proofs.SourceOrder
