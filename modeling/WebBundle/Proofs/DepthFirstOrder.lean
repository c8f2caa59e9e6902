import Mathlib.Data.List.Nodup
import WebBundle.Chunk.LoadOrder
import WebBundle.Proofs.Reachability

/-!
The order in which a depth-first walk leaves nodes, and the load order of chunks that it gives. A node is
left behind its successors, except for those that lead back to it.
-/

namespace WebBundle.Proofs.DepthFirstOrder

open Relation
open WebBundle.Proofs.Reachability

/-- A node that a walk has entered and not left: it lies on the way to where the walk is. -/
def IsOpen (walk : Digraph.Walk) (node : Nat) : Prop := node ∈ walk.entered ∧ node ∉ walk.left

/-- What holds of a walk all along. -/
structure Ordered (g : Digraph) (walk : Digraph.Walk) : Prop where
  entered_lt : ∀ node ∈ walk.entered, node < g.size
  left_entered : ∀ node ∈ walk.left, node ∈ walk.entered
  nodup : walk.left.Nodup
  behind : ∀ later node earlier, walk.left = later ++ node :: earlier →
    ∀ target ∈ g.next node, target ∈ earlier ∨ ReflTransGen (Edge g) target node

/-- What a visit changes: it enters nodes, and leaves all those that it enters. -/
structure Extends (walk walk' : Digraph.Walk) : Prop where
  entered : ∀ node ∈ walk.entered, node ∈ walk'.entered
  isOpen_iff : ∀ node, IsOpen walk' node ↔ IsOpen walk node

theorem Extends.refl (walk : Digraph.Walk) : Extends walk walk :=
  ⟨fun _ h => h, fun _ => Iff.rfl⟩

theorem Extends.trans {first second third : Digraph.Walk} (h : Extends first second)
    (h' : Extends second third) : Extends first third :=
  ⟨fun node hnode => h'.entered node (h.entered node hnode),
    fun node => (h'.isOpen_iff node).trans (h.isOpen_iff node)⟩

/-- What a visit with enough depth does where every open node leads to the visited one. -/
def Visits (g : Digraph) (depth : Nat) : Prop :=
  ∀ walk node, node < g.size → (remaining g.size (· ∈ walk.entered)).card < depth →
    Ordered g walk →
    (∀ other, IsOpen walk other → ReflTransGen (Edge g) other node) →
    Extends walk (Digraph.visit g.next depth walk node) ∧
      Ordered g (Digraph.visit g.next depth walk node) ∧
      node ∈ (Digraph.visit g.next depth walk node).entered

theorem foldl_visit {g : Digraph} {depth : Nat} (hvisits : Visits g depth) :
    ∀ (nodes : List Nat) (walk : Digraph.Walk), (∀ node ∈ nodes, node < g.size) →
      (remaining g.size (· ∈ walk.entered)).card < depth → Ordered g walk →
      (∀ other, IsOpen walk other → ∀ node ∈ nodes, ReflTransGen (Edge g) other node) →
      Extends walk (nodes.foldl (Digraph.visit g.next depth) walk) ∧
        Ordered g (nodes.foldl (Digraph.visit g.next depth) walk) ∧
        ∀ node ∈ nodes, node ∈ (nodes.foldl (Digraph.visit g.next depth) walk).entered := by
  intro nodes
  induction nodes with
  | nil =>
      intro walk _ _ hordered _
      exact ⟨Extends.refl walk, hordered, by simp⟩
  | cons node rest ih =>
      intro walk hlt hdepth hordered hopen
      obtain ⟨hext, hordered', hentered⟩ := hvisits walk node (hlt node (by simp)) hdepth hordered
        fun other h => hopen other h node (by simp)
      obtain ⟨hext', hordered'', hrest⟩ := ih (Digraph.visit g.next depth walk node)
        (fun n hn => hlt n (by simp [hn]))
        (Nat.lt_of_le_of_lt (card_remaining_le hext.entered) hdepth) hordered'
        (fun other h n hn => hopen other ((hext.isOpen_iff other).mp h) n (by simp [hn]))
      refine ⟨hext.trans hext', hordered'', ?_⟩
      intro n hn
      rcases List.mem_cons.mp hn with rfl | hn
      · exact hext'.entered n hentered
      · exact hrest n hn

theorem isOpen_enter {walk : Digraph.Walk} {node other : Nat} (hleft : node ∉ walk.left) :
    IsOpen { walk with entered := node :: walk.entered } other ↔
      other = node ∨ IsOpen walk other := by
  constructor
  · rintro ⟨hentered, hout⟩
    exact (List.mem_cons.mp hentered).imp_right fun h => ⟨h, hout⟩
  · rintro (rfl | h)
    · exact ⟨by simp, hleft⟩
    · exact ⟨by simp [h.1], h.2⟩

/-- When a node is left behind all that was entered from it, the nodes are open that were open before it
was entered. -/
theorem isOpen_leave {walk inner : Digraph.Walk} {node other : Nat} (hfresh : node ∉ walk.entered)
    (hopen : ∀ other, IsOpen inner other ↔ other = node ∨ IsOpen walk other) :
    IsOpen { inner with left := node :: inner.left } other ↔ IsOpen walk other := by
  constructor
  · rintro ⟨hentered, hout⟩
    simp only [List.mem_cons, not_or] at hout
    exact ((hopen other).mp ⟨hentered, hout.2⟩).resolve_left hout.1
  · intro h
    have hne : other ≠ node := fun heq => hfresh (heq ▸ h.1)
    have h' := (hopen other).mpr (.inr h)
    exact ⟨h'.1, by simp [hne, h'.2]⟩

theorem Ordered.enter {g : Digraph} {walk : Digraph.Walk} {node : Nat} (h : Ordered g walk)
    (hlt : node < g.size) : Ordered g { walk with entered := node :: walk.entered } where
  entered_lt := by
    intro n hn
    rcases List.mem_cons.mp hn with rfl | hn
    · exact hlt
    · exact h.entered_lt n hn
  left_entered := fun n hn => List.mem_cons_of_mem node (h.left_entered n hn)
  nodup := h.nodup
  behind := h.behind

/-- A node may be left once each of its successors was left or leads back to it. -/
theorem Ordered.leave {g : Digraph} {walk : Digraph.Walk} {node : Nat} (h : Ordered g walk)
    (hopen : IsOpen walk node)
    (hnext : ∀ target ∈ g.next node, target ∈ walk.left ∨ ReflTransGen (Edge g) target node) :
    Ordered g { walk with left := node :: walk.left } where
  entered_lt := h.entered_lt
  left_entered := by
    intro n hn
    rcases List.mem_cons.mp hn with rfl | hn
    · exact hopen.1
    · exact h.left_entered n hn
  nodup := List.nodup_cons.mpr ⟨hopen.2, h.nodup⟩
  behind := by
    intro later n earlier heq target htarget
    cases later with
    | nil =>
        obtain ⟨rfl, rfl⟩ : node = n ∧ walk.left = earlier := by simpa using heq
        exact hnext target htarget
    | cons first later =>
        obtain ⟨-, hleft⟩ : node = first ∧ walk.left = later ++ n :: earlier := by simpa using heq
        exact h.behind later n earlier hleft target htarget

theorem visits {g : Digraph} (hg : Closed g) (depth : Nat) : Visits g depth := by
  induction depth with
  | zero =>
      intro walk node _ hdepth
      omega
  | succ depth ih =>
      intro walk node hlt hdepth hordered hopen
      simp only [Digraph.visit]
      split
      · next hentered => exact ⟨Extends.refl walk, hordered, hentered⟩
      · next hfresh =>
          have hleft : node ∉ walk.left := fun h => hfresh (hordered.left_entered node h)
          have hcard : (remaining g.size (· ∈ node :: walk.entered)).card <
              (remaining g.size (· ∈ walk.entered)).card :=
            card_remaining_lt (fun n hn => List.mem_cons_of_mem node hn) hlt hfresh
              (List.mem_cons_self ..)
          obtain ⟨hext, hordered', hchildren⟩ :=
            foldl_visit ih (g.next node) { walk with entered := node :: walk.entered }
              (hg node hlt) (Nat.lt_of_lt_of_le hcard (Nat.le_of_lt_succ hdepth))
                (hordered.enter hlt) (by
                intro other hother target htarget
                rcases (isOpen_enter hleft).mp hother with rfl | hother
                · exact .single htarget
                · exact (hopen other hother).tail htarget)
          generalize (g.next node).foldl (Digraph.visit g.next depth)
            { walk with entered := node :: walk.entered } = walk' at hext hordered' hchildren
          have hopen' : ∀ other, IsOpen walk' other ↔ other = node ∨ IsOpen walk other :=
            fun other => (hext.isOpen_iff other).trans (isOpen_enter hleft)
          have hnode : IsOpen walk' node := (hopen' node).mpr (.inl rfl)
          refine ⟨⟨?_, fun other => isOpen_leave hfresh hopen'⟩, hordered'.leave hnode ?_, hnode.1⟩
          · exact fun n hn => hext.entered n (List.mem_cons_of_mem node hn)
          · intro target htarget
            by_cases hdone : target ∈ walk'.left
            · exact .inl hdone
            · right
              rcases (hopen' target).mp ⟨hchildren target htarget, hdone⟩ with rfl | h
              · exact .refl
              · exact hopen target h

/-- A walk leaves all nodes that it visits, each behind its successors that do not lead back to it. -/
theorem walk_nodes {g : Digraph} (hg : Closed g) {nodes : List Nat}
    (hlt : ∀ node ∈ nodes, node < g.size) :
    Ordered g (g.walk nodes) ∧ ∀ node ∈ nodes, node ∈ (g.walk nodes).left := by
  have hnone : ∀ other, ¬ IsOpen {} other := fun other h => by simp [IsOpen] at h
  obtain ⟨hext, hordered, hentered⟩ :=
    foldl_visit (visits hg (g.size + 1)) nodes {} hlt
      (Nat.lt_succ_of_le card_remaining_le_size)
      ⟨by simp, by simp, by simp, by simp⟩ (fun other h => absurd h (hnone other))
  refine ⟨hordered, fun node hnode => ?_⟩
  by_contra hout
  exact hnone node ((hext.isOpen_iff node).mp ⟨hentered node hnode, hout⟩)

section Searches

variable {next : Nat → List Nat} {walk walk' : Digraph.Walk} {nodes : List Nat}

/-- A search that may go to any depth takes one walk, along some nodes, to another one. -/
inductive Searches (next : Nat → List Nat) : Digraph.Walk → List Nat → Digraph.Walk → Prop where
  | done {walk : Digraph.Walk} : Searches next walk [] walk
  | seen {walk walk' : Digraph.Walk} {node : Nat} {rest : List Nat} (h : node ∈ walk.entered)
      (hrest : Searches next walk rest walk') : Searches next walk (node :: rest) walk'
  | visit {walk inner walk' : Digraph.Walk} {node : Nat} {rest : List Nat} (h : node ∉ walk.entered)
      (hnext : Searches next { walk with entered := node :: walk.entered } (next node) inner)
      (hrest : Searches next { inner with left := node :: inner.left } rest walk') :
      Searches next walk (node :: rest) walk'

theorem mem_entered_visit {n : Nat} (depth node : Nat) (h : n ∈ walk.entered) :
    n ∈ (Digraph.visit next depth walk node).entered := by
  induction depth generalizing walk node with
  | zero => exact h
  | succ depth ih =>
      rw [Digraph.visit]
      split
      · exact h
      · exact List.foldlRecOn (motive := fun walk : Digraph.Walk => n ∈ walk.entered) _ _
          (List.mem_cons_of_mem node h) fun _ hwalk other _ => ih other hwalk

/-- A walk with a depth for every node does not come to its bound. -/
theorem searches_foldl {g : Digraph} (hg : Closed g) {depth : Nat}
    (hlt : ∀ node ∈ nodes, node < g.size)
    (hdepth : (remaining g.size (· ∈ walk.entered)).card < depth) :
    Searches g.next walk nodes (nodes.foldl (Digraph.visit g.next depth) walk) := by
  induction depth generalizing walk nodes with
  | zero => omega
  | succ depth ih =>
      induction nodes generalizing walk with
      | nil => exact .done
      | cons node rest ihRest =>
          obtain ⟨hnode, hrest⟩ := List.forall_mem_cons.mp hlt
          rw [List.foldl_cons, Digraph.visit]
          split
          · next hseen => exact .seen hseen (ihRest hrest hdepth)
          · next hfresh =>
              have hcard : (remaining g.size (· ∈ node :: walk.entered)).card <
                  (remaining g.size (· ∈ walk.entered)).card :=
                card_remaining_lt (fun n hn => List.mem_cons_of_mem node hn) hnode hfresh
                  List.mem_cons_self
              refine .visit hfresh
                (ih (hg node hnode) (Nat.lt_of_lt_of_le hcard (Nat.le_of_lt_succ hdepth)))
                (ihRest hrest (Nat.lt_of_le_of_lt (card_remaining_le fun n hn => ?_) hdepth))
              exact List.foldlRecOn (motive := fun walk : Digraph.Walk => n ∈ walk.entered) _ _
                (List.mem_cons_of_mem node hn) fun _ hwalk other _ => mem_entered_visit depth other hwalk

theorem Searches.entered {P : Nat → Prop} (h : Searches next walk nodes walk')
    (hstep : ∀ a, P a → ∀ b ∈ next a, P b) (hnodes : ∀ node ∈ nodes, P node)
    (hentered : ∀ node ∈ walk.entered, P node) : ∀ node ∈ walk'.entered, P node := by
  induction h with
  | done => exact hentered
  | seen _ _ ih => exact ih (List.forall_mem_cons.mp hnodes).2 hentered
  | visit _ _ _ ihNext ihRest =>
      obtain ⟨hnode, hrest⟩ := List.forall_mem_cons.mp hnodes
      exact ihRest hrest (ihNext (hstep _ hnode) (List.forall_mem_cons.mpr ⟨hnode, hentered⟩))

end Searches

/-- One chunk depends on another. -/
def Needs (chunks : List Chunk) (id dependency : ChunkId) : Prop :=
  ∃ chunk, chunks[id]? = some chunk ∧ dependency ∈ chunk.dependencies

theorem edge_dependents {chunks : List Chunk} {dependency id : ChunkId} :
    Edge (Chunk.dependents chunks) dependency id ↔ Needs chunks id dependency := by
  simp only [Edge, Chunk.dependents, Needs, List.mem_filterMap, Prod.exists,
    List.mem_zipIdx_iff_getElem?]
  constructor
  · rintro ⟨chunk, other, hchunk, hdep⟩
    split at hdep
    · next h =>
        obtain rfl : other = id := by simpa using hdep
        exact ⟨chunk, hchunk, by simpa using h⟩
    · simp at hdep
  · rintro ⟨chunk, hchunk, hdep⟩
    exact ⟨chunk, id, hchunk, by simp [hdep]⟩

theorem closed_dependents (chunks : List Chunk) : Closed (Chunk.dependents chunks) := by
  intro dependency _ id hid
  obtain ⟨chunk, hchunk, -⟩ := edge_dependents.mp hid
  exact (List.getElem?_eq_some_iff.mp hchunk).1

theorem transGen_needs {chunks : List Chunk} {source target : ChunkId}
    (h : TransGen (Edge (Chunk.dependents chunks)) source target) :
    TransGen (Needs chunks) target source := by
  induction h with
  | single hedge => exact .single (edge_dependents.mp hedge)
  | tail _ hedge ih => exact .head (edge_dependents.mp hedge) ih

theorem all_mem_iff {chunks : List Chunk} {before : List ChunkId} {id : ChunkId} :
    (chunks[id]?.all fun c => c.dependencies.all before.contains) = true ↔
      ∀ dependency, Needs chunks id dependency → dependency ∈ before := by
  simp only [Option.all_eq_true, List.all_eq_true, List.contains_iff_mem, Needs]
  exact ⟨fun h dependency ⟨chunk, hchunk, hdep⟩ => h chunk hchunk dependency hdep,
    fun h chunk hchunk dependency hdep => h dependency ⟨chunk, hchunk, hdep⟩⟩

theorem needs_first_of_misplaced? {chunks : List Chunk} {order before : List ChunkId}
    (h : Chunk.misplaced? chunks before order = none) {earlier later : List ChunkId}
    {id dependency : ChunkId} (horder : order = earlier ++ id :: later)
    (hneeds : Needs chunks id dependency) : dependency ∈ before ∨ dependency ∈ earlier := by
  induction order generalizing before earlier with
  | nil => exact absurd horder (by simp)
  | cons first rest ih =>
      rw [Chunk.misplaced?] at h
      split at h
      · next hfirst =>
          cases earlier with
          | nil =>
              obtain ⟨rfl, -⟩ := List.cons.inj horder
              exact .inl (all_mem_iff.mp hfirst dependency hneeds)
          | cons _ earlier =>
              obtain ⟨rfl, hrest⟩ := List.cons.inj horder
              rcases ih h hrest with hbefore | hearlier
              · rcases List.mem_cons.mp hbefore with rfl | hbefore
                · exact .inr List.mem_cons_self
                · exact .inl hbefore
              · exact .inr (List.mem_cons_of_mem first hearlier)
      · exact absurd h nofun

theorem misplaced?_eq_some {chunks : List Chunk} {order before : List ChunkId} {id : ChunkId}
    (h : Chunk.misplaced? chunks before order = some id) :
    ∃ earlier later dependency, order = earlier ++ id :: later ∧ Needs chunks id dependency ∧
      dependency ∉ before ∧ dependency ∉ earlier := by
  induction order generalizing before with
  | nil => exact absurd h nofun
  | cons first rest ih =>
      rw [Chunk.misplaced?] at h
      split at h
      · obtain ⟨earlier, later, dependency, rfl, hneeds, hbefore, hearlier⟩ := ih h
        obtain ⟨hne, hbefore⟩ := not_or.mp (mt List.mem_cons.mpr hbefore)
        exact ⟨first :: earlier, later, dependency, rfl, hneeds, hbefore, by simp [hne, hearlier]⟩
      · next hfirst =>
          obtain rfl := Option.some.inj h
          rw [all_mem_iff] at hfirst
          push Not at hfirst
          obtain ⟨dependency, hneeds, hbefore⟩ := hfirst
          exact ⟨[], rest, dependency, rfl, hneeds, hbefore, List.not_mem_nil⟩

theorem walk_dependents (chunks : List Chunk) :
    Ordered (Chunk.dependents chunks) ((Chunk.dependents chunks).walk (List.range chunks.length)) ∧
      ∀ id < chunks.length, id ∈ ((Chunk.dependents chunks).walk (List.range chunks.length)).left := by
  obtain ⟨hordered, hall⟩ := walk_nodes (closed_dependents chunks) fun _ => List.mem_range.mp
  exact ⟨hordered, fun id hid => hall id (List.mem_range.mpr hid)⟩

theorem cycle_of_misplaced {chunks : List Chunk} {earlier later : List ChunkId}
    {id dependency : ChunkId}
    (horder : ((Chunk.dependents chunks).walk (List.range chunks.length)).left = earlier ++ id :: later)
    (hneeds : Needs chunks id dependency) (hlt : dependency < chunks.length)
    (hout : dependency ∉ earlier) : TransGen (Needs chunks) id id := by
  obtain ⟨hordered, hall⟩ := walk_dependents chunks
  have hmem := hall dependency hlt
  rw [horder] at hmem
  rcases List.mem_cons.mp ((List.mem_append.mp hmem).resolve_left hout) with rfl | hlater
  · exact .single hneeds
  -- A dependency left before `id` would have been entered from `id`, which closes a cycle.
  obtain ⟨first, last, rfl⟩ := List.append_of_mem hlater
  have hnodup : (earlier ++ id :: (first ++ dependency :: last)).Nodup := horder ▸ hordered.nodup
  have hedge := edge_dependents.mpr hneeds
  rcases hordered.behind (earlier ++ id :: first) dependency last (horder.trans (by simp)) id hedge
    with hlast | hback
  · have hfresh := (List.nodup_cons.mp (List.nodup_append.mp hnodup).2.1).1
    exact absurd (by simp [hlast]) hfresh
  · exact transGen_needs (TransGen.tail' hback hedge)

/-- Chunks that depend on each other in no cycle have a load order. -/
theorem loadOrder_of_acyclic {chunks : List Chunk}
    (hdeps : ∀ id dependency, Needs chunks id dependency → dependency < chunks.length)
    (hacyclic : ∀ id, ¬ TransGen (Needs chunks) id id) :
    ∃ order, Chunk.loadOrder chunks = .ok order := by
  simp only [Chunk.loadOrder]
  split
  · exact ⟨_, rfl⟩
  · next id hid =>
      obtain ⟨earlier, later, dependency, horder, hneeds, -, hout⟩ := misplaced?_eq_some hid
      exact absurd (cycle_of_misplaced horder hneeds (hdeps id dependency hneeds) hout) (hacyclic id)

end WebBundle.Proofs.DepthFirstOrder
