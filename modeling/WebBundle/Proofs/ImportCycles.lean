import Mathlib.Data.List.Lex
import Mathlib.Data.List.Pairwise
import Mathlib.Data.List.Sort
import WebBundle.Proofs.ModuleReach

/-!
Import cycles. The lists of modules that import each other are told by reach alone, so that any way to find
the strongly connected components of a graph gives the same lists.
-/

namespace WebBundle.Proofs.ImportCycles

open Relation
open WebBundle.Proofs.ModuleReach
open WebBundle.Proofs.Reachability

/-- Two nodes lead to each other in one step or more. A node that leads to itself lies on a cycle. -/
def Together (edge : Nat → Nat → Prop) (node other : Nat) : Prop :=
  TransGen edge node other ∧ TransGen edge other node

/-- The nodes that lie on cycles, in lists of those that lead to each other. No node is listed twice, each
list ascends, and so do the lists by their first difference. -/
structure IsCycleListing (edge : Nat → Nat → Prop) (cycles : List (List Nat)) : Prop where
  listed_iff : ∀ node, (∃ cycle ∈ cycles, node ∈ cycle) ↔ TransGen edge node node
  together_iff : ∀ node other, (∃ cycle ∈ cycles, node ∈ cycle ∧ other ∈ cycle) ↔
    TransGen edge node other ∧ TransGen edge other node
  nodup : cycles.flatten.Nodup
  nonempty : ∀ cycle ∈ cycles, cycle ≠ []
  ascending : ∀ cycle ∈ cycles, cycle.Pairwise (· < ·)
  sorted : cycles.Pairwise (List.Lex (· < ·))

section Listings

variable {edge : Nat → Nat → Prop} {node other third : Nat} {cycle cycle' : List Nat}
  {lists cycles cycles' : List (List Nat)}

theorem Together.symm (h : Together edge node other) : Together edge other node := ⟨h.2, h.1⟩

theorem Together.trans (h : Together edge node other) (h' : Together edge other third) :
    Together edge node third :=
  ⟨h.1.trans h'.1, h'.2.trans h.2⟩

theorem eq_of_mem_of_nodup (h : lists.flatten.Nodup) (hcycle : cycle ∈ lists) (hcycle' : cycle' ∈ lists)
    (hnode : node ∈ cycle) (hnode' : node ∈ cycle') : cycle = cycle' := by
  by_contra hne
  have hsymm : Std.Symm (@List.Disjoint Nat) := ⟨fun _ _ hdisjoint => hdisjoint.symm⟩
  exact (List.nodup_flatten.mp h).2.forall hcycle hcycle' hne hnode hnode'

theorem IsCycleListing.mem_cycle_iff (h : IsCycleListing edge cycles) (hcycle : cycle ∈ cycles)
    (hnode : node ∈ cycle) : other ∈ cycle ↔ Together edge node other := by
  refine Iff.trans ?_ (h.together_iff node other)
  constructor
  · exact fun hother => ⟨cycle, hcycle, hnode, hother⟩
  · rintro ⟨cycle', hcycle', hnode', hother⟩
    exact eq_of_mem_of_nodup h.nodup hcycle hcycle' hnode hnode' ▸ hother

theorem IsCycleListing.subset (h : IsCycleListing edge cycles) (h' : IsCycleListing edge cycles')
    (hcycle : cycle ∈ cycles) : cycle ∈ cycles' := by
  obtain ⟨node, hnode⟩ := List.exists_mem_of_ne_nil cycle (h.nonempty cycle hcycle)
  have hself : TransGen edge node node := (h.listed_iff node).mp ⟨cycle, hcycle, hnode⟩
  obtain ⟨cycle', hcycle', hnode'⟩ := (h'.listed_iff node).mpr hself
  have heq : cycle = cycle' :=
    (h.ascending cycle hcycle).eq_of_mem_iff (h'.ascending cycle' hcycle') fun other =>
      (h.mem_cycle_iff hcycle hnode).trans (h'.mem_cycle_iff hcycle' hnode').symm
  exact heq ▸ hcycle'

/-- There is no more than one listing of the cycles of a graph. -/
theorem IsCycleListing.unique (h : IsCycleListing edge cycles) (h' : IsCycleListing edge cycles') :
    cycles = cycles' :=
  h.sorted.eq_of_mem_iff h'.sorted fun _ => ⟨h.subset h', h'.subset h⟩

end Listings

section Reach

variable {g : Digraph} {node other : Nat} {cycle : List Nat}

theorem mem_reachOnward_iff (hg : Closed g) (hnode : node < g.size) :
    other ∈ g.reachOnward node ↔ TransGen (Edge g) node other := by
  have hstart : ∀ n ∈ IdSet.ofList (g.next node), n < g.size := fun n hn =>
    hg node hnode n (IdSet.mem_ofList.mp hn)
  rw [Digraph.reachOnward, mem_reachFrom_iff hg hstart, TransGen.head'_iff]
  simp only [IdSet.mem_ofList, Edge]

/-- The nodes that lead to a node while it leads to them, in ascending order. -/
def cycleOf (g : Digraph) (node : Nat) : List Nat :=
  (List.range g.size).filter fun other =>
    (g.reachOnward node).contains other && (g.reachOnward other).contains node

theorem cycles_eq (g : Digraph) : g.cycles = (List.range g.size).filterMap fun node =>
    if (cycleOf g node).head? = some node then some (cycleOf g node) else none := by
  have hget : ∀ node ∈ List.range g.size,
      ((List.range g.size).map g.reachOnward).toArray.getD node ∅ = g.reachOnward node := by
    intro node hnode
    simp [Array.getD_eq_getD_getElem?, List.mem_range.mp hnode]
  rw [Digraph.cycles]
  refine List.filterMap_congr fun node hnode => ?_
  have hcycle : (List.range g.size).filter (fun other =>
      (((List.range g.size).map g.reachOnward).toArray.getD node ∅).contains other &&
        (((List.range g.size).map g.reachOnward).toArray.getD other ∅).contains node) =
      cycleOf g node :=
    List.filter_congr fun other hother => by rw [hget node hnode, hget other hother]
  simp only [hcycle]

theorem pairwise_cycleOf (g : Digraph) (node : Nat) : (cycleOf g node).Pairwise (· < ·) :=
  List.pairwise_lt_range.filter _

theorem mem_cycleOf_iff (hg : Closed g) (hnode : node < g.size) (hother : other < g.size) :
    other ∈ cycleOf g node ↔ Together (Edge g) node other := by
  rw [cycleOf, List.mem_filter, Bool.and_eq_true, IdSet.contains_iff, IdSet.contains_iff,
    mem_reachOnward_iff hg hnode, mem_reachOnward_iff hg hother, List.mem_range, Together,
    and_iff_right hother]

theorem lt_of_mem_cycleOf (h : other ∈ cycleOf g node) : other < g.size :=
  List.mem_range.mp (List.mem_of_mem_filter h)

theorem cycleOf_congr (hg : Closed g) (hnode : node < g.size) (hother : other < g.size)
    (h : Together (Edge g) node other) : cycleOf g node = cycleOf g other := by
  refine (pairwise_cycleOf g node).eq_of_mem_iff (pairwise_cycleOf g other) fun third => ?_
  constructor
  · intro hthird
    have hlt := lt_of_mem_cycleOf hthird
    exact (mem_cycleOf_iff hg hother hlt).mpr (h.symm.trans ((mem_cycleOf_iff hg hnode hlt).mp hthird))
  · intro hthird
    have hlt := lt_of_mem_cycleOf hthird
    exact (mem_cycleOf_iff hg hnode hlt).mpr (h.trans ((mem_cycleOf_iff hg hother hlt).mp hthird))

theorem mem_cycles_iff : cycle ∈ g.cycles ↔
    ∃ node < g.size, cycleOf g node = cycle ∧ cycle.head? = some node := by
  rw [cycles_eq, List.mem_filterMap]
  constructor
  · rintro ⟨node, hnode, h⟩
    split at h
    · next hhead =>
        obtain rfl := Option.some.inj h
        exact ⟨node, List.mem_range.mp hnode, rfl, hhead⟩
    · exact absurd h nofun
  · rintro ⟨node, hnode, rfl, hhead⟩
    exact ⟨node, List.mem_range.mpr hnode, if_pos hhead⟩

theorem pairwise_heads (g : Digraph) : g.cycles.Pairwise fun cycle cycle' =>
    ∃ node other, cycle.head? = some node ∧ cycle'.head? = some other ∧ node < other := by
  rw [cycles_eq, List.pairwise_filterMap]
  refine List.pairwise_lt_range.imp fun {node other} hlt cycle hcycle cycle' hcycle' => ?_
  split at hcycle
  · next hhead =>
      split at hcycle'
      · next hhead' =>
          obtain rfl := Option.some.inj hcycle
          obtain rfl := Option.some.inj hcycle'
          exact ⟨node, other, hhead, hhead', hlt⟩
      · exact absurd hcycle' nofun
  · exact absurd hcycle nofun

theorem cycleOf_mem_cycles (hg : Closed g) (hnode : node < g.size) (h : TransGen (Edge g) node node) :
    cycleOf g node ∈ g.cycles := by
  have hself : node ∈ cycleOf g node := (mem_cycleOf_iff hg hnode hnode).mpr ⟨h, h⟩
  -- The cycle is not listed at `node` but at its first node, whose cycle is the same.
  obtain ⟨first, hfirst⟩ := Option.ne_none_iff_exists'.mp
    (mt List.head?_eq_none_iff.mp (List.ne_nil_of_mem hself))
  have hmem : first ∈ cycleOf g node := List.mem_of_mem_head? hfirst
  have hlt := lt_of_mem_cycleOf hmem
  have heq := cycleOf_congr hg hnode hlt ((mem_cycleOf_iff hg hnode hlt).mp hmem)
  exact mem_cycles_iff.mpr ⟨first, hlt, heq.symm, hfirst⟩

theorem cycles_together_iff (hg : Closed g) (hedge : ∀ node other, Edge g node other → node < g.size) :
    (∃ cycle ∈ g.cycles, node ∈ cycle ∧ other ∈ cycle) ↔ Together (Edge g) node other := by
  constructor
  · rintro ⟨cycle, hcycle, hnode, hother⟩
    obtain ⟨first, hfirst, rfl, -⟩ := mem_cycles_iff.mp hcycle
    exact ((mem_cycleOf_iff hg hfirst (lt_of_mem_cycleOf hnode)).mp hnode).symm.trans
      ((mem_cycleOf_iff hg hfirst (lt_of_mem_cycleOf hother)).mp hother)
  · intro h
    have hlt : ∀ {a b}, TransGen (Edge g) a b → a < g.size := fun hwalk => by
      obtain ⟨next, hnext, -⟩ := TransGen.head'_iff.mp hwalk
      exact hedge _ _ hnext
    exact ⟨cycleOf g node, cycleOf_mem_cycles hg (hlt h.1) (h.1.trans h.2),
      (mem_cycleOf_iff hg (hlt h.1) (hlt h.1)).mpr (h.trans h.symm),
      (mem_cycleOf_iff hg (hlt h.1) (hlt h.2)).mpr h⟩

theorem cycles_isCycleListing (hg : Closed g)
    (hedge : ∀ node other, Edge g node other → node < g.size) :
    IsCycleListing (Edge g) g.cycles where
  listed_iff node := by
    have hself : (∃ cycle ∈ g.cycles, node ∈ cycle ∧ node ∈ cycle) ↔ Together (Edge g) node node :=
      cycles_together_iff hg hedge
    simpa only [and_self, Together] using hself
  together_iff node other := cycles_together_iff hg hedge
  nodup := by
    refine List.nodup_flatten.mpr ⟨fun cycle hcycle => ?_, ?_⟩
    · obtain ⟨node, -, rfl, -⟩ := mem_cycles_iff.mp hcycle
      exact (pairwise_cycleOf g node).imp Nat.ne_of_lt
    · refine (pairwise_heads g).imp_of_mem fun {cycle cycle'} hcycle hcycle' h => ?_
      obtain ⟨node, hnode, rfl, hhead⟩ := mem_cycles_iff.mp hcycle
      obtain ⟨other, hother, rfl, hhead'⟩ := mem_cycles_iff.mp hcycle'
      intro third hthird hthird'
      have hlt := lt_of_mem_cycleOf hthird
      have htogether := ((mem_cycleOf_iff hg hnode hlt).mp hthird).trans
        ((mem_cycleOf_iff hg hother hlt).mp hthird').symm
      rw [cycleOf_congr hg hnode hother htogether] at h hhead
      obtain ⟨first, second, hfirst, hsecond, hlt⟩ := h
      exact Nat.ne_of_lt hlt (Option.some.inj (hfirst.symm.trans hsecond))
  nonempty cycle hcycle := by
    obtain ⟨node, -, -, hhead⟩ := mem_cycles_iff.mp hcycle
    exact List.ne_nil_of_mem (List.mem_of_mem_head? hhead)
  ascending cycle hcycle := by
    obtain ⟨node, -, rfl, -⟩ := mem_cycles_iff.mp hcycle
    exact pairwise_cycleOf g node
  sorted := by
    refine (pairwise_heads g).imp fun {cycle cycle'} h => ?_
    obtain ⟨node, other, hhead, hhead', hlt⟩ := h
    obtain ⟨rest, rfl⟩ := List.head?_eq_some_iff.mp hhead
    obtain ⟨rest', rfl⟩ := List.head?_eq_some_iff.mp hhead'
    exact .rel hlt

end Reach

section Components

variable {g : ModuleGraph} {component component' : List ModuleId} {components : List (List ModuleId)}
  {id other : ModuleId}

/-- A module imports another one, with its own code or on demand. -/
def Depends (g : ModuleGraph) (importer target : ModuleId) : Prop := ∃ kind, Imports g kind importer target

/-- The strongly connected components of the imports of a graph, in any order: every module is in one of
them, and two modules share one if each leads to the other. -/
structure IsComponents (g : ModuleGraph) (components : List (List ModuleId)) : Prop where
  nodup : components.flatten.Nodup
  nonempty : ∀ component ∈ components, component ≠ []
  lt : ∀ component ∈ components, ∀ id ∈ component, id < g.size
  together_iff : ∀ id < g.size, ∀ other < g.size,
    (∃ component ∈ components, id ∈ component ∧ other ∈ component) ↔
      ReflTransGen (Depends g) id other ∧ ReflTransGen (Depends g) other id

/-- A component has a cycle if it has several modules, or if its only module imports itself. -/
def isCycle (g : ModuleGraph) (component : List ModuleId) : Bool :=
  1 < component.length ||
    component.head?.any fun id => (g.get id).dependencies.any fun d => d.target == id

/-- The components with a cycle; each is sorted, and then the list of them. -/
def cyclesAmong (g : ModuleGraph) (components : List (List ModuleId)) : List (List ModuleId) :=
  ((components.filter (isCycle g)).map (·.mergeSort)).mergeSort IdSet.lexLe

theorem next_imports (id : ModuleId) :
    g.imports.next id = (g.get id).dependencies.map (·.target) := by
  simp only [ModuleGraph.imports, ModuleGraph.get, Array.getD_eq_getD_getElem?,
    List.getElem?_toArray, List.getElem?_map, List.getD_eq_getElem?_getD]
  cases g.modules[id]? with
  | none => rfl
  | some m => rfl

theorem depends_iff : Depends g id other ↔ ∃ d ∈ (g.get id).dependencies, d.target = other := by
  simp only [Depends, Imports, Module.targets, List.mem_map, List.mem_filter, beq_iff_eq]
  constructor
  · rintro ⟨kind, d, ⟨hd, -⟩, htarget⟩
    exact ⟨d, hd, htarget⟩
  · rintro ⟨d, hd, htarget⟩
    exact ⟨d.kind, d, ⟨hd, rfl⟩, htarget⟩

theorem edge_imports : Edge g.imports = Depends g := by
  funext importer target
  rw [Edge, next_imports, List.mem_map]
  exact propext depends_iff.symm

theorem Depends.lt (h : Depends g id other) : id < g.size := by
  obtain ⟨kind, himport⟩ := h
  obtain ⟨m, hm, -⟩ := himport.exists_module
  exact (List.getElem?_eq_some_iff.mp hm).1

theorem Depends.target_lt (h : Depends g id other)
    (htargets : ∀ m ∈ g.modules, ∀ d ∈ m.dependencies, d.target < g.size) : other < g.size := by
  obtain ⟨kind, himport⟩ := h
  obtain ⟨m, hm, htarget⟩ := himport.exists_module
  obtain ⟨d, hd, rfl⟩ := List.mem_map.mp htarget
  exact htargets m (List.mem_of_getElem? hm) d (List.mem_of_mem_filter hd)

theorem closed_imports (htargets : ∀ m ∈ g.modules, ∀ d ∈ m.dependencies, d.target < g.size) :
    Closed g.imports := fun id _ other hother =>
  have hdepends : Depends g id other := edge_imports (g := g) ▸ hother
  hdepends.target_lt htargets

theorem isCycle_singleton : isCycle g [id] = true ↔ Depends g id id := by
  simp [isCycle, depends_iff]

theorem isCycle_of_ne (hid : id ∈ component) (hother : other ∈ component) (hne : other ≠ id) :
    isCycle g component = true := by
  have hlength : 1 < component.length := by
    by_contra hle
    obtain ⟨only, rfl⟩ := List.length_eq_one_iff.mp
      (Nat.le_antisymm (Nat.not_lt.mp hle) (List.length_pos_of_mem hid))
    exact hne ((List.mem_singleton.mp hother).trans (List.mem_singleton.mp hid).symm)
  simp [isCycle, hlength]

theorem IsComponents.mem_iff (h : IsComponents g components) (hcomponent : component ∈ components)
    (hid : id ∈ component) (hother : other < g.size) : other ∈ component ↔
      ReflTransGen (Depends g) id other ∧ ReflTransGen (Depends g) other id := by
  rw [← h.together_iff id (h.lt component hcomponent id hid) other hother]
  constructor
  · exact fun hmem => ⟨component, hcomponent, hid, hmem⟩
  · rintro ⟨component', hcomponent', hid', hmem⟩
    exact eq_of_mem_of_nodup h.nodup hcomponent hcomponent' hid hid' ▸ hmem

theorem IsComponents.isCycle_iff (h : IsComponents g components) (hcomponent : component ∈ components)
    (hid : id ∈ component) : isCycle g component = true ↔ TransGen (Depends g) id id := by
  by_cases hsingle : component = [id]
  · subst hsingle
    rw [isCycle_singleton]
    refine ⟨.single, fun hcycle => ?_⟩
    obtain ⟨other, hstep, hback⟩ := TransGen.head'_iff.mp hcycle
    have hlt : other < g.size := by
      rcases hback.cases_head with rfl | ⟨_, hnext, -⟩
      · exact h.lt _ hcomponent other hid
      · exact hnext.lt
    have hmem := (h.mem_iff hcomponent hid hlt).mpr ⟨.single hstep, hback⟩
    exact List.mem_singleton.mp hmem ▸ hstep
  · have hnodup : component.Nodup := (List.nodup_flatten.mp h.nodup).1 component hcomponent
    obtain ⟨other, hother, hne⟩ :=
      ((hnodup.ne_singleton_iff id).mp hsingle).resolve_left (List.ne_nil_of_mem hid)
    obtain ⟨hto, hback⟩ :=
      (h.mem_iff hcomponent hid (h.lt component hcomponent other hother)).mp hother
    have hstep := (reflTransGen_iff_eq_or_transGen.mp hto).resolve_left hne
    exact iff_of_true (isCycle_of_ne hid hother hne) (hstep.trans_left hback)

theorem lexLe_iff {a b : List Nat} : IdSet.lexLe a b = true ↔ a = b ∨ List.Lex (· < ·) a b := by
  induction a generalizing b with
  | nil => cases b <;> simp [IdSet.lexLe]
  | cons first rest ih =>
      cases b with
      | nil => simp [IdSet.lexLe]
      | cons first' rest' =>
          simp only [IdSet.lexLe, Bool.or_eq_true, Bool.and_eq_true, decide_eq_true_eq, beq_iff_eq, ih,
            List.cons_lex_cons_iff, List.cons.injEq]
          tauto

theorem pairwise_mergeSort_lexLe (lists : List (List Nat)) :
    (lists.mergeSort IdSet.lexLe).Pairwise fun a b => IdSet.lexLe a b = true := by
  refine List.pairwise_mergeSort (fun a b c hab hbc => ?_) (fun a b => ?_) lists
  · rw [lexLe_iff] at hab hbc ⊢
    rcases hab with rfl | hab
    · exact hbc
    · rcases hbc with rfl | hbc
      · exact .inr hab
      · exact .inr (lt_trans (α := List Nat) hab hbc)
  · rw [Bool.or_eq_true, lexLe_iff, lexLe_iff]
    rcases lt_trichotomy (α := List Nat) a b with h | h | h
    · exact .inl (.inr h)
    · exact .inl (.inl h)
    · exact .inr (.inr h)

theorem mem_cyclesAmong {cycle : List ModuleId} : cycle ∈ cyclesAmong g components ↔
    ∃ component ∈ components, isCycle g component = true ∧ component.mergeSort = cycle := by
  simp only [cyclesAmong, List.mem_mergeSort, List.mem_map, List.mem_filter, and_assoc]

theorem IsComponents.cyclesAmong_together_iff (h : IsComponents g components)
    (hlt : ∀ id other, Depends g id other → other < g.size) :
    (∃ cycle ∈ cyclesAmong g components, id ∈ cycle ∧ other ∈ cycle) ↔ Together (Depends g) id other := by
  constructor
  · rintro ⟨cycle, hcycle, hid, hother⟩
    obtain ⟨component, hcomponent, hisCycle, rfl⟩ := mem_cyclesAmong.mp hcycle
    rw [List.mem_mergeSort] at hid hother
    have hself := (h.isCycle_iff hcomponent hid).mp hisCycle
    obtain ⟨hto, hback⟩ := (h.mem_iff hcomponent hid (h.lt component hcomponent other hother)).mp hother
    exact ⟨hself.trans_left hto, TransGen.trans_right hback hself⟩
  · rintro ⟨hto, hback⟩
    have hid : id < g.size := by
      obtain ⟨_, -, hstep⟩ := TransGen.tail'_iff.mp hback
      exact hlt _ _ hstep
    have hother : other < g.size := by
      obtain ⟨_, -, hstep⟩ := TransGen.tail'_iff.mp hto
      exact hlt _ _ hstep
    obtain ⟨component, hcomponent, hmem, hmem'⟩ :=
      (h.together_iff id hid other hother).mpr ⟨hto.to_reflTransGen, hback.to_reflTransGen⟩
    have hisCycle := (h.isCycle_iff hcomponent hmem).mpr (hto.trans hback)
    exact ⟨component.mergeSort, mem_cyclesAmong.mpr ⟨component, hcomponent, hisCycle, rfl⟩,
      List.mem_mergeSort.mpr hmem, List.mem_mergeSort.mpr hmem'⟩

theorem IsComponents.pairwise_disjoint (h : IsComponents g components) :
    (cyclesAmong g components).Pairwise List.Disjoint := by
  rw [cyclesAmong, (List.mergeSort_perm _ _).pairwise_iff List.Disjoint.symm, List.pairwise_map]
  refine ((List.nodup_flatten.mp h.nodup).2.filter _).imp fun hdisjoint id hid hid' => ?_
  exact hdisjoint (List.mem_mergeSort.mp hid) (List.mem_mergeSort.mp hid')

/-- The components with a cycle are the cycles, in whatever order the components were found. -/
theorem IsComponents.isCycleListing (h : IsComponents g components)
    (hlt : ∀ id other, Depends g id other → other < g.size) :
    IsCycleListing (Depends g) (cyclesAmong g components) := by
  have hnonempty : ∀ cycle ∈ cyclesAmong g components, cycle ≠ [] := by
    intro cycle hcycle
    obtain ⟨component, hcomponent, -, rfl⟩ := mem_cyclesAmong.mp hcycle
    obtain ⟨id, hid⟩ := List.exists_mem_of_ne_nil component (h.nonempty component hcomponent)
    exact List.ne_nil_of_mem (List.mem_mergeSort.mpr hid)
  have hnodup : ∀ cycle ∈ cyclesAmong g components, cycle.Nodup := by
    intro cycle hcycle
    obtain ⟨component, hcomponent, -, rfl⟩ := mem_cyclesAmong.mp hcycle
    exact (List.mergeSort_perm _ _).nodup_iff.mpr
      ((List.nodup_flatten.mp h.nodup).1 component hcomponent)
  have htogether : ∀ id other, (∃ cycle ∈ cyclesAmong g components, id ∈ cycle ∧ other ∈ cycle) ↔
      Together (Depends g) id other := fun id other => h.cyclesAmong_together_iff hlt
  refine ⟨fun id => ?_, htogether, ?_, hnonempty, ?_, ?_⟩
  · simpa only [and_self, Together] using htogether id id
  · exact List.nodup_flatten.mpr ⟨hnodup, h.pairwise_disjoint⟩
  · intro cycle hcycle
    obtain ⟨component, -, -, rfl⟩ := mem_cyclesAmong.mp hcycle
    have hsorted : component.mergeSort.Pairwise fun a b => decide (a ≤ b) = true :=
      List.pairwise_mergeSort (fun a b c => by simpa using Nat.le_trans)
        (fun a b => by simpa using Nat.le_total a b) component
    exact (hsorted.and (hnodup _ hcycle)).imp fun ⟨hle, hne⟩ =>
      Nat.lt_of_le_of_ne (of_decide_eq_true hle) hne
  · have hsorted := pairwise_mergeSort_lexLe ((components.filter (isCycle g)).map (·.mergeSort))
    refine (hsorted.and h.pairwise_disjoint).imp_of_mem fun {cycle cycle'} hcycle _ hboth => ?_
    refine (lexLe_iff.mp hboth.1).resolve_left ?_
    rintro rfl
    obtain ⟨id, hid⟩ := List.exists_mem_of_ne_nil cycle (hnonempty cycle hcycle)
    exact hboth.2 hid hid

end Components

/-- The import cycles of a graph are the modules that lead to themselves, in lists of those that lead to
each other. The same lists come out of its strongly connected components, in whatever order these are. -/
theorem importCycles_isCycleListing {g : ModuleGraph}
    (h : ∀ m ∈ g.modules, ∀ d ∈ m.dependencies, d.target < g.size) :
    IsCycleListing (Depends g) g.importCycles ∧
      ∀ components, IsComponents g components → cyclesAmong g components = g.importCycles := by
  have hlisting : IsCycleListing (Depends g) g.importCycles :=
    edge_imports (g := g) ▸ cycles_isCycleListing (closed_imports h) fun id other hedge =>
      Depends.lt (edge_imports (g := g) ▸ hedge)
  refine ⟨hlisting, fun components hcomponents => ?_⟩
  exact (hcomponents.isCycleListing fun _ _ hdepends => hdepends.target_lt h).unique hlisting

def script (key : String) (imports : List (ModuleId × ImportKind)) : Module where
  key
  path := ⟨"/p/" ++ key⟩
  origin := .source
  dependencies := imports.map fun (id, kind) => ⟨toString id, id, kind⟩

/-- An entry imports a script that is imported back on demand, and a script that imports itself. -/
def knot : ModuleGraph where
  modules := [script "entry.js" [(1, .static), (3, .static)], script "a.js" [(2, .static), (2, .static)],
    script "b.js" [(1, .dynamic)], script "self.js" [(3, .static)]]

theorem importCycles_isCycleListing_knot :
    (∀ m ∈ knot.modules, ∀ d ∈ m.dependencies, d.target < knot.size) ∧
      IsCycleListing (Depends knot) [[1, 2], [3]] ∧ IsComponents knot [[3], [2, 1], [0]] ∧
      cyclesAmong knot [[3], [2, 1], [0]] = [[1, 2], [3]] := by
  have htargets : ∀ m ∈ knot.modules, ∀ d ∈ m.dependencies, d.target < knot.size := by decide
  have hcycles : knot.importCycles = [[1, 2], [3]] := by decide +kernel
  obtain ⟨hlisting, hcomponents⟩ := importCycles_isCycleListing htargets
  have hclosed := closed_imports htargets
  have hreach : ∀ id < 4, ∀ other < 4,
      (∃ component ∈ [[3], [2, 1], [0]], id ∈ component ∧ other ∈ component) ↔
        other ∈ knot.imports.reach id ∧ id ∈ knot.imports.reach other := by decide +kernel
  have hscc : IsComponents knot [[3], [2, 1], [0]] := by
    refine ⟨by decide, by decide, by decide, fun id hid other hother => ?_⟩
    rw [hreach id hid other hother, mem_reach_iff hclosed hid, mem_reach_iff hclosed hother, edge_imports]
  exact ⟨htargets, hcycles ▸ hlisting, hscc, (hcomponents _ hscc).trans hcycles⟩

end WebBundle.Proofs.ImportCycles
