import WebBundle.Proofs.GraphGrowth

/-!
The steps by which a discovery makes its graph, and what every graph that they lead to is like.
-/

namespace WebBundle.Proofs.DiscoverySteps

open Relation
open WebBundle.Discovery
open WebBundle.Proofs.GraphGrowth

/-- The module of a file before it is read. -/
def fileModule (context path : Path) (query : Option String) : Module :=
  { key := path.moduleKey context query, path, query, origin := .source }

/-- The module that is added for a specifier, if there is none with its key. -/
def wanted (context directory : Path) (specifier : String) : Resolution → Module
  | .file path query => fileModule context path query
  | .external global => externalModule specifier global
  | .ignored => ignoredModule specifier directory

/-- What the transforms may make of a file at a path. -/
abbrev Makes := Path → ModuleType → ChainOutput → Prop

/-- A module that a discovery may add: that for which a specifier stands, or that of a side artifact. -/
inductive Addable (p : Project) (view : FileView Id) (R : Makes) (g : ModuleGraph) : Module → Prop
  | target {specifier : String} {directory : Path} {resolution : Resolution} :
      (p.resolver.resolve view specifier directory).run = .ok resolution →
      Addable p view R g (wanted p.resolver.context directory specifier resolution)
  | side {owner index : Nat} {type : ModuleType} {output : ChainOutput} {artifact : Artifact} :
      owner < g.size → (g.get owner).origin = .source → R (g.get owner).path type output →
      output.side[index]? = some artifact →
      Addable p view R g (sideModule p.resolver.context owner (g.get owner).path
        (sideQuery (g.get owner).query index) artifact)

/-- Makes sure that a module is there, and makes it a dependency of another one. -/
def connect (g : ModuleGraph) (importer : ModuleId) (specifier : String) (kind : ImportKind)
    (m : Module) : ModuleGraph :=
  (g.insert m).1.addDependency importer ⟨specifier, (g.insert m).2, kind⟩

/-- Makes sure that a module is there, and makes it an entry. -/
def enter (g : ModuleGraph) (name : String) (m : Module) : ModuleGraph :=
  (g.insert m).1.addEntry name (g.insert m).2

/-- Gives a module its type and its artifact. -/
def settle (g : ModuleGraph) (id : ModuleId) (type : ModuleType) (artifact : Artifact) : ModuleGraph :=
  g.modify id fun m => withArtifact artifact { m with type }

/-- One step of a discovery. -/
inductive Step (p : Project) (view : FileView Id) (R : Makes) : ModuleGraph → ModuleGraph → Prop
  | settle {g : ModuleGraph} {id : ModuleId} {type : ModuleType} {output : ChainOutput} :
      id < g.size → (g.get id).origin = .source → R (g.get id).path type output →
      Step p view R g (settle g id type output.primary)
  | connect {g : ModuleGraph} {importer : ModuleId} {specifier : String} {kind : ImportKind}
      {m : Module} :
      importer < g.size → Addable p view R g m →
      Step p view R g (connect g importer specifier kind m)
  | enter {g : ModuleGraph} {name : String} {m : Module} :
      Addable p view R g m → Step p view R g (enter g name m)

abbrev Steps (p : Project) (view : FileView Id) (R : Makes) : ModuleGraph → ModuleGraph → Prop :=
  ReflTransGen (Step p view R)

variable {p : Project} {view : FileView Id} {R : Makes} {g g' : ModuleGraph} {m : Module}
variable {id importer : ModuleId} {specifier name : String} {kind : ImportKind} {type : ModuleType}
variable {dependency : Dependency}

theorem Addable.dependencies (h : Addable p view R g m) : m.dependencies = [] := by
  cases h with
  | target => cases ‹Resolution› <;> rfl
  | side => rfl

theorem Addable.mono (hg : Grows g g') (h : Addable p view R g m) :
    Addable p view R g' m := by
  cases h with
  | target hresolve => exact .target hresolve
  | @side owner index type output artifact howner hsource hmade hside =>
      have hsame := hg.same owner howner
      rw [← hsame.path, ← hsame.query]
      exact .side (Nat.lt_of_lt_of_le howner hg.size_le) (hsame.origin.trans hsource)
        (hsame.path ▸ hmade) hside

theorem lt_size_insert (h : importer < g.size) : importer < (g.insert m).1.size :=
  Nat.lt_of_lt_of_le h grows_insert.size_le

theorem grows_connect (h : importer < g.size) : Grows g (connect g importer specifier kind m) :=
  grows_insert.trans (grows_addDependency (lt_size_insert h))

theorem size_connect : (connect g importer specifier kind m).size = (g.insert m).1.size :=
  size_modify

theorem lookup_connect (h : importer < g.size) :
    (connect g importer specifier kind m).lookup m.key = some (g.insert m).2 :=
  (grows_addDependency (lt_size_insert h)).lookup lookup_insert

theorem mem_dependencies_connect (h : importer < g.size) (hm : m.dependencies = []) :
    dependency ∈ ((connect g importer specifier kind m).get id).dependencies ↔
      dependency ∈ (g.get id).dependencies ∨
        (id = importer ∧ dependency = ⟨specifier, (g.insert m).2, kind⟩) := by
  rw [connect, mem_dependencies_addDependency (lt_size_insert h), dependencies_insert hm]

theorem get_connect (h : importer < g.size) (hid : id < g.size) : ∃ dependencies,
    (connect g importer specifier kind m).get id = { g.get id with dependencies } := by
  rw [connect, get_addDependency (lt_size_insert h), get_insert hid]
  exact ⟨_, rfl⟩

theorem get_enter (hid : id < g.size) : (enter g name m).get id = g.get id :=
  get_insert hid

theorem grows_enter : Grows g (enter g name m) := by
  refine grows_insert.trans ⟨Nat.le_refl _, fun _ _ => .refl _, fun _ => List.Subset.refl _, ?_⟩
  exact List.prefix_append _ _

theorem get_settle (h : id < g.size) {other : ModuleId} {artifact : Artifact} :
    (settle g id type artifact).get other =
      if other = id then withArtifact artifact { g.get id with type } else g.get other :=
  get_modify h

theorem grows_settle (h : id < g.size) (hsource : (g.get id).origin = .source) {artifact : Artifact} :
    Grows g (settle g id type artifact) :=
  grows_modify h ⟨rfl, rfl, rfl, rfl, fun hne => absurd hsource hne⟩ (List.Subset.refl _)

theorem Step.grows (h : Step p view R g g') : Grows g g' := by
  cases h with
  | settle hid hsource => exact grows_settle hid hsource
  | connect himporter => exact grows_connect himporter
  | enter => exact grows_enter

/-- A module is the target of a dependency of another one. -/
def Depends (g : ModuleGraph) (importer target : ModuleId) : Prop :=
  ∃ dependency ∈ (g.get importer).dependencies, dependency.target = target

/-- What every graph is like that a discovery makes. -/
structure Sound (p : Project) (view : FileView Id) (R : Makes) (g : ModuleGraph) : Prop where
  lookup_key : ∀ id < g.size, g.lookup (g.get id).key = some id
  target_lt : ∀ id, ∀ dependency ∈ (g.get id).dependencies, dependency.target < g.size
  entry_lt : ∀ entry ∈ g.entries, entry.2 < g.size
  reached : ∀ id < g.size, ∃ entry ∈ g.entries, ReflTransGen (Depends g) entry.2 id
  known : ∀ id < g.size, ∃ m, Addable p view R g m ∧ Same m (g.get id)

theorem sound_empty : Sound p view R {} where
  lookup_key := fun _ hid => absurd hid (Nat.not_lt_zero _)
  target_lt := by
    intro id dependency hmem
    rw [get_of_size_le (Nat.zero_le id)] at hmem
    exact absurd hmem List.not_mem_nil
  entry_lt := nofun
  reached := fun _ hid => absurd hid (Nat.not_lt_zero _)
  known := fun _ hid => absurd hid (Nat.not_lt_zero _)

theorem Depends.mono {target : ModuleId} (hg : Grows g g') (h : Depends g importer target) :
    Depends g' importer target := by
  obtain ⟨dependency, hmem, rfl⟩ := h
  exact ⟨dependency, hg.dependencies importer hmem, rfl⟩

theorem Sound.reached_mono (hg : Grows g g') (h : Sound p view R g) (hid : id < g.size) :
    ∃ entry ∈ g'.entries, ReflTransGen (Depends g') entry.2 id := by
  obtain ⟨entry, hentry, hpath⟩ := h.reached id hid
  have hmono : Depends g ≤ Depends g' := fun _ _ hdepends => hdepends.mono hg
  exact ⟨entry, hg.entries.subset hentry, ReflTransGen.mono hmono _ _ hpath⟩

theorem Sound.of_grows (hg : Grows g g') (h : Sound p view R g)
    (htargets : ∀ id, ∀ dependency ∈ (g'.get id).dependencies,
      dependency ∈ (g.get id).dependencies ∨ dependency.target < g'.size)
    (hentries : ∀ entry ∈ g'.entries, entry ∈ g.entries ∨ entry.2 < g'.size)
    (hnew : ∀ id, g.size ≤ id → id < g'.size → g'.lookup (g'.get id).key = some id ∧
      (∃ m, Addable p view R g' m ∧ Same m (g'.get id)) ∧
        ((∃ importer < g.size, Depends g' importer id) ∨ ∃ entry ∈ g'.entries, entry.2 = id)) :
    Sound p view R g' where
  lookup_key := by
    intro id hid
    rcases Nat.lt_or_ge id g.size with hold | hge
    · rw [(hg.same id hold).key]
      exact hg.lookup (h.lookup_key id hold)
    · exact (hnew id hge hid).1
  target_lt := by
    intro id dependency hmem
    rcases htargets id dependency hmem with hold | hlt
    · exact Nat.lt_of_lt_of_le (h.target_lt id dependency hold) hg.size_le
    · exact hlt
  entry_lt := by
    intro entry hentry
    rcases hentries entry hentry with hold | hlt
    · exact Nat.lt_of_lt_of_le (h.entry_lt entry hold) hg.size_le
    · exact hlt
  reached := by
    intro id hid
    rcases Nat.lt_or_ge id g.size with hold | hge
    · exact h.reached_mono hg hold
    · rcases (hnew id hge hid).2.2 with ⟨importer, himporter, hdepends⟩ | ⟨entry, hentry, rfl⟩
      · obtain ⟨entry, hentry, hpath⟩ := h.reached_mono hg himporter
        exact ⟨entry, hentry, hpath.tail hdepends⟩
      · exact ⟨entry, hentry, .refl⟩
  known := by
    intro id hid
    rcases Nat.lt_or_ge id g.size with hold | hge
    · obtain ⟨m, hm, hsame⟩ := h.known id hold
      exact ⟨m, hm.mono hg, hsame.trans (hg.same id hold)⟩
    · exact (hnew id hge hid).2.1

theorem Sound.connect (h : Sound p view R g) (himporter : importer < g.size)
    (hm : Addable p view R g m) : Sound p view R (connect g importer specifier kind m) := by
  have hg : Grows g (DiscoverySteps.connect g importer specifier kind m) :=
    grows_connect himporter
  refine h.of_grows hg (fun id dependency hmem => ?_) (fun entry hentry => .inl ?_)
    fun id hid hid' => ?_
  · rcases (mem_dependencies_connect himporter hm.dependencies).mp hmem with hold | ⟨-, rfl⟩
    · exact .inl hold
    · exact .inr (size_connect ▸ insert_lt)
  · exact entries_insert ▸ hentry
  · obtain ⟨heq, hget⟩ := eq_of_insert hid (size_connect ▸ hid')
    have hsame : Same m ((DiscoverySteps.connect g importer specifier kind m).get id) := by
      have hkept := (grows_addDependency (d := ⟨specifier, (g.insert m).2, kind⟩)
        (lt_size_insert himporter)).same id (size_connect ▸ hid')
      rwa [hget] at hkept
    refine ⟨?_, ⟨m, hm.mono hg, hsame⟩, .inl ⟨importer, himporter, ?_⟩⟩
    · rw [hsame.key, ← heq]
      exact lookup_connect himporter
    · rw [← heq]
      exact ⟨_, (mem_dependencies_connect himporter hm.dependencies).mpr (.inr ⟨rfl, rfl⟩), rfl⟩

theorem Sound.enter (h : Sound p view R g) (hm : Addable p view R g m) :
    Sound p view R (enter g name m) := by
  refine h.of_grows grows_enter (fun id dependency hmem => .inl ?_) (fun entry hentry => ?_)
    fun id hid hid' => ?_
  · have hkept : ((g.insert m).1.get id).dependencies = (g.get id).dependencies :=
      dependencies_insert hm.dependencies
    exact hkept ▸ hmem
  · rcases List.mem_append.mp hentry with hold | hnew
    · exact .inl (entries_insert ▸ hold)
    · rw [List.mem_singleton.mp hnew]
      exact .inr insert_lt
  · obtain ⟨heq, hget⟩ := eq_of_insert hid hid'
    have hget' : (DiscoverySteps.enter g name m).get id = m := hget
    refine ⟨?_, ⟨m, hm.mono grows_enter, ?_⟩, .inr ⟨(name, id), ?_, rfl⟩⟩
    · rw [hget', ← heq]
      exact lookup_insert
    · rw [hget']
      exact .refl m
    · rw [← heq]
      exact List.mem_append_right _ List.mem_cons_self

theorem Sound.settle (h : Sound p view R g) (hid : id < g.size)
    (hsource : (g.get id).origin = .source) {artifact : Artifact} :
    Sound p view R (settle g id type artifact) := by
  refine h.of_grows (grows_settle hid hsource) (fun other dependency hmem => .inl ?_)
    (fun entry hentry => .inl hentry) fun other hge hlt => ?_
  · rw [get_settle hid] at hmem
    split at hmem
    · next heq => exact heq ▸ hmem
    · exact hmem
  · rw [DiscoverySteps.settle, size_modify] at hlt
    exact absurd hlt (Nat.not_lt.mpr hge)

theorem Step.sound (h : Step p view R g g') (hg : Sound p view R g) : Sound p view R g' := by
  cases h with
  | settle hid hsource => exact hg.settle hid hsource
  | connect himporter hm => exact hg.connect himporter hm
  | enter hm => exact hg.enter hm

theorem Steps.grows (h : Steps p view R g g') : Grows g g' := by
  induction h with
  | refl => exact .refl g
  | tail _ hstep ih => exact ih.trans hstep.grows

theorem Steps.sound (h : Steps p view R g g') (hg : Sound p view R g) : Sound p view R g' := by
  induction h with
  | refl => exact hg
  | tail _ hstep ih => exact hstep.sound ih

end WebBundle.Proofs.DiscoverySteps
