import WebBundle.Proofs.DiscoverySteps
import WebBundle.Proofs.ProcessedFiles

namespace WebBundle.Proofs.LinkedModules

open WebBundle.Discovery
open WebBundle.Proofs.CachedRuns
open WebBundle.Proofs.DiscoverySteps
open WebBundle.Proofs.GraphGrowth
open WebBundle.Proofs.ProcessedFiles

/-- A discovery goes on: its graph makes steps and gets entries, and the files that are new wait. -/
structure Advance (p : Project) (view : FileView Id) (R : Makes) (new : List (String × ModuleId))
    (d d' : Discovery) : Prop where
  steps : Steps p view R d.graph d'.graph
  entries : d'.graph.entries = d.graph.entries ++ new
  keeps : d.pending ⊆ d'.pending
  waits : ∀ id, d.graph.size ≤ id → id < d'.graph.size → (d'.graph.get id).origin = .source →
    id ∈ d'.pending
  pending : ∀ id ∈ d'.pending,
    id ∈ d.pending ∨ (id < d'.graph.size ∧ (d'.graph.get id).origin = .source)

variable {p : Project} {view : FileView Id} {R : Makes} {d d' d'' : Discovery} {m : Module}
variable {new new' : List (String × ModuleId)} {g g' : ModuleGraph} {id importer owner : ModuleId}
variable {directory path : Path} {query : Option String} {imports : List Import}
variable {type : ModuleType} {output : ChainOutput}

theorem Advance.refl (d : Discovery) : Advance p view R [] d d where
  steps := .refl
  entries := (List.append_nil _).symm
  keeps := List.Subset.refl _
  waits := fun _ hge hlt => absurd hlt (Nat.not_lt.mpr hge)
  pending := fun _ hmem => .inl hmem

theorem Advance.trans (h : Advance p view R new d d') (h' : Advance p view R new' d' d'') :
    Advance p view R (new ++ new') d d'' where
  steps := h.steps.trans h'.steps
  entries := by rw [h'.entries, h.entries, List.append_assoc]
  keeps := List.Subset.trans h.keeps h'.keeps
  waits := by
    intro id hge hlt hsource
    rcases Nat.lt_or_ge id d'.graph.size with hold | hnew
    · rw [(h'.steps.grows.same id hold).origin] at hsource
      exact h'.keeps (h.waits id hge hold hsource)
    · exact h'.waits id hnew hlt hsource
  pending := by
    intro id hmem
    rcases h'.pending id hmem with hmem | hnew
    · rcases h.pending id hmem with hold | ⟨hlt, hsource⟩
      · exact .inl hold
      · exact .inr ⟨Nat.lt_of_lt_of_le hlt h'.steps.grows.size_le,
          (h'.steps.grows.same id hlt).origin.trans hsource⟩
    · exact .inr hnew

/-- A module is added, and it waits if it is the new module of a file. -/
structure Adds (d : Discovery) (m : Module) (d' : Discovery) : Prop where
  graph : d'.graph = (d.graph.insert m).1
  keeps : d.pending ⊆ d'.pending
  waits : ∀ id, d.graph.size ≤ id → id < d'.graph.size → (d'.graph.get id).origin = .source →
    id ∈ d'.pending
  pending : ∀ id ∈ d'.pending,
    id ∈ d.pending ∨ (id < d'.graph.size ∧ (d'.graph.get id).origin = .source)

theorem adds_addModule (h : m.origin ≠ .source) : Adds d m (d.addModule m).1 where
  graph := rfl
  keeps := List.Subset.refl _
  waits := by
    intro id hge hlt hsource
    rw [addModule, (eq_of_insert hge hlt).2] at hsource
    exact absurd hsource h
  pending := fun _ hmem => .inl hmem

theorem pending_addSource (context : Path) : (d.addSource context path query).1.pending =
    if d.graph.size < (d.graph.insert (fileModule context path query)).1.size then
      d.pending ++ [(d.graph.insert (fileModule context path query)).2]
    else d.pending := rfl

theorem adds_addSource (context : Path) :
    Adds d (fileModule context path query) (d.addSource context path query).1 where
  graph := rfl
  keeps := by
    intro id hmem
    rw [pending_addSource]
    split
    · exact List.mem_append_left _ hmem
    · exact hmem
  waits := by
    intro id hge hlt _
    have hnew : d.graph.size < (d.graph.insert (fileModule context path query)).1.size :=
      Nat.lt_of_le_of_lt hge hlt
    rw [pending_addSource, if_pos hnew]
    exact List.mem_append_right _ (List.mem_singleton.mpr (eq_of_insert hge hlt).1.symm)
  pending := by
    intro id hmem
    rw [pending_addSource] at hmem
    split at hmem
    · next hnew =>
        rcases List.mem_append.mp hmem with hold | hmem
        · exact .inl hold
        · obtain ⟨heq, hget⟩ := eq_of_insert (Nat.le_refl _) hnew
          obtain rfl : id = d.graph.size := (List.mem_singleton.mp hmem).trans heq
          exact .inr ⟨hnew, congrArg Module.origin hget⟩
    · exact .inl hmem

theorem adds_addTarget (context directory : Path) (specifier : String) (resolution : Resolution) :
    Adds d (wanted context directory specifier resolution)
      (d.addTarget context directory specifier resolution).1 := by
  cases resolution with
  | file path query => exact adds_addSource context
  | external global => exact adds_addModule nofun
  | ignored => exact adds_addModule nofun

theorem addTarget_id (context : Path) (specifier : String) (resolution : Resolution) :
    (d.addTarget context directory specifier resolution).2 =
      (d.graph.insert (wanted context directory specifier resolution)).2 := by
  cases resolution <;> rfl

/-- A module that is added and then connected or entered makes a step. -/
theorem Adds.advance {change : ModuleGraph → ModuleGraph} (h : Adds d m d')
    (hstep : Step p view R d.graph (change d'.graph)) (hgrows : Grows d'.graph (change d'.graph))
    (hsize : (change d'.graph).size = d'.graph.size)
    (hentries : (change d'.graph).entries = d.graph.entries ++ new) :
    Advance p view R new d (d'.modify change) := by
  have horigin : ∀ {id}, id < d'.graph.size →
      ((change d'.graph).get id).origin = (d'.graph.get id).origin := fun hid =>
    (hgrows.same _ hid).origin
  refine ⟨.single hstep, hentries, h.keeps, fun id hge hlt hsource => ?_, fun id hmem => ?_⟩
  · have hlt' : id < d'.graph.size := hsize ▸ hlt
    exact h.waits id hge hlt' ((horigin hlt').symm.trans hsource)
  · refine (h.pending id hmem).imp_right fun ⟨hlt, hsource⟩ => ?_
    exact ⟨Nat.lt_of_lt_of_le hlt hgrows.size_le, (horigin hlt).trans hsource⟩

theorem Adds.graph_connect {specifier : String} {kind : ImportKind} (h : Adds d m d') :
    (d'.modify (·.addDependency importer ⟨specifier, (d.graph.insert m).2, kind⟩)).graph =
      DiscoverySteps.connect d.graph importer specifier kind m := by
  rw [Discovery.modify, h.graph]
  rfl

theorem Adds.connect (h : Adds d m d') (himporter : importer < d.graph.size)
    (hm : Addable p view R d.graph m) (specifier : String) (kind : ImportKind) :
    Advance p view R [] d
      (d'.modify (·.addDependency importer ⟨specifier, (d.graph.insert m).2, kind⟩)) := by
  have hlt : importer < d'.graph.size := h.graph ▸ lt_size_insert himporter
  refine h.advance ?_ (grows_addDependency hlt) size_modify ?_
  · rw [h.graph]
    exact .connect himporter hm
  · rw [List.append_nil, h.graph]
    exact entries_insert

theorem Adds.enter {name : String} (h : Adds d m d') (hm : Addable p view R d.graph m) :
    Advance p view R [(name, (d.graph.insert m).2)] d
      (d'.modify (·.addEntry name (d.graph.insert m).2)) := by
  refine h.advance ?_ ?_ rfl ?_
  · rw [h.graph]
    exact .enter hm
  · exact ⟨Nat.le_refl _, fun _ _ => .refl _, fun _ => List.Subset.refl _, List.prefix_append _ _⟩
  · rw [h.graph, ModuleGraph.addEntry, entries_insert]

/-- Imports that are followed: each is a dependency on the module that is found by the key of what it
stands for. -/
def Followed (p : Project) (view : FileView Id) (g : ModuleGraph) (importer : ModuleId)
    (directory : Path) (imports : List Import) : Prop :=
  ∀ i ∈ imports, ∃ resolution target,
    (p.resolver.resolve view i.specifier directory).run = .ok resolution ∧
    g.lookup (wanted p.resolver.context directory i.specifier resolution).key = some target ∧
    ⟨i.specifier, target, i.kind⟩ ∈ (g.get importer).dependencies

theorem Followed.mono (hg : Grows g g') (h : Followed p view g importer directory imports) :
    Followed p view g' importer directory imports := by
  intro i hi
  obtain ⟨resolution, target, hresolve, hlookup, hmem⟩ := h i hi
  exact ⟨resolution, target, hresolve, hg.lookup hlookup, hg.dependencies importer hmem⟩

theorem linkImports_cons {i : Import} {rest : List Import}
    (h : (linkImports p view importer directory (i :: rest) d).run.run = .ok d') :
    ∃ resolution, (p.resolver.resolve view i.specifier directory).run = .ok resolution ∧
      (linkImports p view importer directory rest
        ((d.addTarget p.resolver.context directory i.specifier resolution).1.modify
          (·.addDependency importer ⟨i.specifier,
            (d.addTarget p.resolver.context directory i.specifier resolution).2,
              i.kind⟩))).run.run = .ok d' := by
  rw [linkImports, bind_eq_ok] at h
  obtain ⟨result, hlift, h⟩ := h
  have hresult : (p.resolver.resolve view i.specifier directory).run = result := by
    simpa using hlift
  split at h
  · simp at h
  · next resolution => exact ⟨resolution, hresult, h⟩

theorem linkImports_advance (himporter : importer < d.graph.size)
    (h : (linkImports p view importer directory imports d).run.run = .ok d') :
    Advance p view R [] d d' ∧ Followed p view d'.graph importer directory imports := by
  induction imports generalizing d with
  | nil =>
      obtain rfl : d = d' := Except.ok.inj h
      exact ⟨.refl d, nofun⟩
  | cons i rest ih =>
      obtain ⟨resolution, hresolve, h⟩ := linkImports_cons h
      rw [addTarget_id] at h
      have hm : Addable p view R d.graph
          (wanted p.resolver.context directory i.specifier resolution) := .target hresolve
      have hadds : Adds d _ (d.addTarget p.resolver.context directory i.specifier resolution).1 :=
        adds_addTarget p.resolver.context directory i.specifier resolution
      have hfirst := hadds.connect himporter hm i.specifier i.kind
      obtain ⟨hrest, hfollowed⟩ := ih (Nat.lt_of_lt_of_le himporter hfirst.steps.grows.size_le) h
      refine ⟨hfirst.trans hrest, fun other hother => ?_⟩
      rcases List.mem_cons.mp hother with rfl | hother
      · have hgrows := hrest.steps.grows
        rw [hadds.graph_connect] at hgrows
        refine ⟨resolution, _, hresolve, hgrows.lookup (lookup_connect himporter),
          hgrows.dependencies importer ?_⟩
        exact (mem_dependencies_connect himporter hm.dependencies).mpr (.inr ⟨rfl, rfl⟩)
      · exact hfollowed other hother

theorem followIf_advance {parse : Bool} (himporter : importer < d.graph.size)
    (h : (if parse then linkImports p view importer directory imports d else pure d).run.run =
      .ok d') :
    Advance p view R [] d d' ∧
      (parse = true → Followed p view d'.graph importer directory imports) := by
  cases parse with
  | false =>
      obtain rfl : d = d' := Except.ok.inj h
      exact ⟨.refl d, nofun⟩
  | true =>
      obtain ⟨hadvance, hfollowed⟩ := linkImports_advance himporter h
      exact ⟨hadvance, fun _ => hfollowed⟩

/-- A side artifact of a module is attached: the module that is found by the key of its own is a
dependency, and the imports of the artifact are followed from there if these count. -/
def Attached (p : Project) (view : FileView Id) (g : ModuleGraph) (owner : ModuleId) (path : Path)
    (query : Option String) (parse : Bool) (index : Nat) (artifact : Artifact) : Prop :=
  ∃ target,
    g.lookup (path.moduleKey p.resolver.context (some (sideQuery query index))) = some target ∧
    ⟨"?" ++ sideQuery query index, target, .static⟩ ∈ (g.get owner).dependencies ∧
    (parse = true →
      Followed p view g target (path.parent.getD p.resolver.context) artifact.imports)

variable {parse : Bool} {index : Nat} {artifact : Artifact} {artifacts : List Artifact}

theorem Attached.mono (hg : Grows g g') (h : Attached p view g owner path query parse index artifact) :
    Attached p view g' owner path query parse index artifact := by
  obtain ⟨target, hlookup, hmem, hfollowed⟩ := h
  exact ⟨target, hg.lookup hlookup, hg.dependencies owner hmem, fun hparse => (hfollowed hparse).mono hg⟩

/-- A discovery after the module of a side artifact is there. -/
def attach (p : Project) (d : Discovery) (owner : ModuleId) (path : Path) (query : String)
    (artifact : Artifact) : Discovery :=
  (d.addModule (sideModule p.resolver.context owner path query artifact)).1.modify
    (·.addDependency owner ⟨"?" ++ query,
      (d.addModule (sideModule p.resolver.context owner path query artifact)).2, .static⟩)

theorem linkSides_cons
    (h : (linkSides p view owner path query parse index (artifact :: artifacts) d).run.run = .ok d') :
    ∃ next, (if parse then
        linkImports p view
          (d.graph.insert (sideModule p.resolver.context owner path (sideQuery query index) artifact)).2
          (path.parent.getD p.resolver.context) artifact.imports
          (attach p d owner path (sideQuery query index) artifact)
        else pure (attach p d owner path (sideQuery query index) artifact)).run.run = .ok next ∧
      (linkSides p view owner path query parse (index + 1) artifacts next).run.run = .ok d' := by
  rw [linkSides] at h
  cases parse with
  | false => exact ⟨_, rfl, h⟩
  | true => exact bind_eq_ok.mp h

theorem linkSide_advance (howner : owner < d.graph.size)
    (hsource : (d.graph.get owner).origin = .source) (hpath : (d.graph.get owner).path = path)
    (hquery : (d.graph.get owner).query = query) (hmade : R path type output)
    (hartifact : output.side[index]? = some artifact)
    (h : (if parse then
        linkImports p view
          (d.graph.insert (sideModule p.resolver.context owner path (sideQuery query index) artifact)).2
          (path.parent.getD p.resolver.context) artifact.imports
          (attach p d owner path (sideQuery query index) artifact)
        else pure (attach p d owner path (sideQuery query index) artifact)).run.run = .ok d') :
    Advance p view R [] d d' ∧ Attached p view d'.graph owner path query parse index artifact := by
  have hm : Addable p view R d.graph
      (sideModule p.resolver.context owner path (sideQuery query index) artifact) := by
    rw [← hpath, ← hquery]
    exact .side howner hsource (hpath ▸ hmade) hartifact
  have hadds : Adds d (sideModule p.resolver.context owner path (sideQuery query index) artifact)
    (d.addModule _).1 := adds_addModule nofun
  have hattach : Advance p view R [] d (attach p d owner path (sideQuery query index) artifact) :=
    hadds.connect howner hm _ _
  have hgraph : (attach p d owner path (sideQuery query index) artifact).graph =
    connect d.graph owner ("?" ++ sideQuery query index) .static _ := hadds.graph_connect
  have htarget : (d.graph.insert
      (sideModule p.resolver.context owner path (sideQuery query index) artifact)).2 <
        (attach p d owner path (sideQuery query index) artifact).graph.size := by
    rw [hgraph, size_connect]
    exact insert_lt
  obtain ⟨hnext, hfollowed⟩ := followIf_advance (R := R) htarget h
  have hgrows := hnext.steps.grows
  rw [hgraph] at hgrows
  refine ⟨hattach.trans hnext, _, hgrows.lookup (lookup_connect howner),
    hgrows.dependencies owner ?_, hfollowed⟩
  exact (mem_dependencies_connect howner rfl).mpr (.inr ⟨rfl, rfl⟩)

theorem linkSides_advance (howner : owner < d.graph.size)
    (hsource : (d.graph.get owner).origin = .source) (hpath : (d.graph.get owner).path = path)
    (hquery : (d.graph.get owner).query = query) (hmade : R path type output)
    (hartifacts : ∀ n, artifacts[n]? = output.side[index + n]?)
    (h : (linkSides p view owner path query parse index artifacts d).run.run = .ok d') :
    Advance p view R [] d d' ∧ ∀ n artifact, artifacts[n]? = some artifact →
      Attached p view d'.graph owner path query parse (index + n) artifact := by
  induction artifacts generalizing d index with
  | nil =>
      obtain rfl : d = d' := Except.ok.inj h
      exact ⟨.refl d, nofun⟩
  | cons artifact rest ih =>
      obtain ⟨next, hfollow, h⟩ := linkSides_cons h
      obtain ⟨hfirst, hattached⟩ :=
        linkSide_advance howner hsource hpath hquery hmade (hartifacts 0).symm hfollow
      have hsame := hfirst.steps.grows.same owner howner
      obtain ⟨hrest, hothers⟩ := ih
        (Nat.lt_of_lt_of_le howner hfirst.steps.grows.size_le) (hsame.origin.trans hsource)
        (hsame.path.trans hpath) (hsame.query.trans hquery)
        (fun n => by rw [Nat.add_right_comm, Nat.add_assoc, ← hartifacts (n + 1)]; rfl) h
      refine ⟨hfirst.trans hrest, fun n other hother => ?_⟩
      cases n with
      | zero =>
          obtain rfl : artifact = other := Option.some.inj hother
          exact hattached.mono hrest.steps.grows
      | succ n =>
          have hn := hothers n other hother
          rwa [Nat.add_right_comm] at hn

/-- Whether the imports of a file count. -/
def parses (p : Project) (type : ModuleType) (path : Path) : Bool :=
  !type.isResource && !p.noParse.any (·.matchesPath path)

/-- A module has the type and the content that the transforms gave it. -/
structure Settled (m : Module) (type : ModuleType) (primary : Artifact) : Prop where
  type : m.type = type
  artifact : m.artifact = primary
  contentHash : m.contentHash = Digest.contentHash primary.content

/-- What the transforms made of a file is entered, its imports are followed if these count, and the
artifacts that were set apart are attached. -/
structure Finished (p : Project) (view : FileView Id) (g : ModuleGraph) (id : ModuleId)
    (type : ModuleType) (output : ChainOutput) : Prop where
  settled : Settled (g.get id) type output.primary
  followed : parses p type (g.get id).path = true →
    Followed p view g id ((g.get id).directory p.resolver.context) output.primary.imports
  attached : ∀ index artifact, output.side[index]? = some artifact →
    Attached p view g id (g.get id).path (g.get id).query (parses p type (g.get id).path) index artifact

/-- The transforms make one thing of a file. -/
def Functional (R : Makes) : Prop := ∀ path type output type' output',
  R path type output → R path type' output' → type = type' ∧ output = output'

theorem settled_settle (hid : id < g.size) :
    Settled ((settle g id type artifact).get id) type artifact := by
  rw [get_settle hid, if_pos rfl]
  exact ⟨rfl, rfl, rfl⟩

theorem Settled.step (hR : Functional R) (hstep : Step p view R g g') (hid : id < g.size)
    (hmade : R (g.get id).path type output) (h : Settled (g.get id) type output.primary) :
    Settled (g'.get id) type output.primary := by
  cases hstep with
  | @settle other type' output' hother hsource hmade' =>
      by_cases heq : id = other
      · subst heq
        obtain ⟨rfl, rfl⟩ := hR _ _ _ _ _ hmade hmade'
        exact settled_settle hid
      · rwa [get_settle hother, if_neg heq]
  | connect himporter hm =>
      obtain ⟨dependencies, hget⟩ := get_connect himporter hid
      rw [hget]
      exact ⟨h.type, h.artifact, h.contentHash⟩
  | enter hm => rwa [get_enter hid]

theorem Settled.steps (hR : Functional R) (hsteps : Steps p view R g g') (hid : id < g.size)
    (hmade : R (g.get id).path type output) (h : Settled (g.get id) type output.primary) :
    Settled (g'.get id) type output.primary := by
  induction hsteps with
  | refl => exact h
  | tail hbefore hstep ih =>
      have hgrows := Steps.grows hbefore
      refine ih.step hR hstep (Nat.lt_of_lt_of_le hid hgrows.size_le) ?_
      rwa [(hgrows.same id hid).path]

theorem Finished.steps (hR : Functional R) (hsteps : Steps p view R g g') (hid : id < g.size)
    (hmade : R (g.get id).path type output) (h : Finished p view g id type output) :
    Finished p view g' id type output := by
  have hgrows := hsteps.grows
  have hsame := hgrows.same id hid
  refine ⟨h.settled.steps hR hsteps hid hmade, fun hparse => ?_, fun index artifact hside => ?_⟩
  · rw [hsame.path] at hparse
    rw [Module.directory, hsame.path]
    exact (h.followed hparse).mono hgrows
  · rw [hsame.path, hsame.query]
    exact (h.attached index artifact hside).mono hgrows

variable {item : Processed} {items : List Processed}

/-- A discovery after what the transforms made of a file is entered. -/
def enterItem (d : Discovery) (item : Processed) : Discovery where
  graph := settle d.graph item.id item.type item.outcome.output.primary
  pending := d.pending
  warnings := d.warnings ++ item.outcome.output.skipped.map
    (Warning.skipped ((settle d.graph item.id item.type item.outcome.output.primary).get item.id).key)
  cacheHits := if item.outcome.cacheHit then d.cacheHits + 1 else d.cacheHits

theorem enterItem_advance (hid : item.id < d.graph.size)
    (hsource : (d.graph.get item.id).origin = .source)
    (hmade : R (d.graph.get item.id).path item.type item.outcome.output) :
    Advance p view R [] d (enterItem d item) where
  steps := .single (.settle hid hsource hmade)
  entries := (List.append_nil _).symm
  keeps := List.Subset.refl _
  waits := fun id hge hlt => by
    rw [enterItem, settle, size_modify] at hlt
    exact absurd hlt (Nat.not_lt.mpr hge)
  pending := fun _ hmem => .inl hmem

theorem link_advance (hid : item.id < d.graph.size) (hsource : (d.graph.get item.id).origin = .source)
    (hmade : R (d.graph.get item.id).path item.type item.outcome.output)
    (h : (link p view item d).run.run = .ok d') :
    Advance p view R [] d d' ∧
      (Functional R → Finished p view d'.graph item.id item.type item.outcome.output) := by
  rw [link, bind_eq_ok] at h
  obtain ⟨next, hsides, h⟩ := h
  have henter : Advance p view R [] d (enterItem d item) := enterItem_advance hid hsource hmade
  have hsame := henter.steps.grows.same item.id hid
  have hid' := Nat.lt_of_lt_of_le hid henter.steps.grows.size_le
  obtain ⟨hnext, hattached⟩ := linkSides_advance (R := R) (d := enterItem d item) hid'
    (hsame.origin.trans hsource) rfl rfl (hsame.path ▸ hmade) (fun n => by rw [Nat.zero_add]) hsides
  obtain ⟨hrest, hfollowed⟩ := followIf_advance (R := R)
    (Nat.lt_of_lt_of_le hid' hnext.steps.grows.size_le) h
  have hsame' := (hnext.trans hrest).steps.grows.same item.id hid'
  refine ⟨henter.trans (hnext.trans hrest), fun hR => ⟨?_, fun hparse => ?_, fun n artifact hside => ?_⟩⟩
  · exact (settled_settle hid).steps hR (hnext.trans hrest).steps hid' (hsame.path ▸ hmade)
  · rw [hsame'.path] at hparse
    rw [Module.directory, hsame'.path]
    exact hfollowed hparse
  · rw [hsame'.path, hsame'.query]
    have hn := (hattached n artifact hside).mono hrest.steps.grows
    rwa [Nat.zero_add] at hn

theorem linkAll_advance
    (hitems : ∀ item ∈ items, item.id < d.graph.size ∧ (d.graph.get item.id).origin = .source ∧
      R (d.graph.get item.id).path item.type item.outcome.output)
    (h : (linkAll p view items d).run.run = .ok d') :
    Advance p view R [] d d' ∧ (Functional R → ∀ item ∈ items,
      Finished p view d'.graph item.id item.type item.outcome.output) := by
  induction items generalizing d with
  | nil =>
      obtain rfl : d = d' := Except.ok.inj h
      exact ⟨.refl d, fun _ => nofun⟩
  | cons item rest ih =>
      rw [linkAll, bind_eq_ok] at h
      obtain ⟨next, hitem, h⟩ := h
      obtain ⟨hid, hsource, hmade⟩ := hitems item List.mem_cons_self
      obtain ⟨hfirst, hfinished⟩ := link_advance hid hsource hmade hitem
      have hgrows := hfirst.steps.grows
      have hrest : ∀ other ∈ rest, other.id < next.graph.size ∧
          (next.graph.get other.id).origin = .source ∧
            R (next.graph.get other.id).path other.type other.outcome.output := by
        intro other hother
        obtain ⟨hlt, hsource, hmade⟩ := hitems other (List.mem_cons_of_mem _ hother)
        have hsame := hgrows.same other.id hlt
        exact ⟨Nat.lt_of_lt_of_le hlt hgrows.size_le, hsame.origin.trans hsource, hsame.path ▸ hmade⟩
      obtain ⟨hadvance, hothers⟩ := ih hrest h
      refine ⟨hfirst.trans hadvance, fun hR other hother => ?_⟩
      rcases List.mem_cons.mp hother with rfl | hother
      · exact (hfinished hR).steps hR hadvance.steps (Nat.lt_of_lt_of_le hid hgrows.size_le)
          ((hgrows.same _ hid).path ▸ hmade)
      · exact hothers hR other hother

end WebBundle.Proofs.LinkedModules
