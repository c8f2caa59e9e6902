import WebBundle.Graph.Discovery
import Mathlib.Logic.Relation

namespace WebBundle.Proofs.GraphGrowth

open Relation
open WebBundle.Discovery

variable {g g' g'' : ModuleGraph} {m : Module} {id importer other : ModuleId} {key : String}

theorem get_eq_getElem (h : id < g.modules.length) : g.get id = g.modules[id] := by
  rw [ModuleGraph.get, List.getD_eq_getElem?_getD, List.getElem?_eq_getElem h, Option.getD_some]

theorem get_of_size_le (h : g.size ≤ id) : g.get id = default := by
  rw [ModuleGraph.get, List.getD_eq_getElem?_getD, List.getElem?_eq_none h, Option.getD_none]

theorem lookup_eq_some_iff : g.lookup key = some id ↔
    id < g.size ∧ (g.get id).key = key ∧ ∀ other < id, (g.get other).key ≠ key := by
  rw [ModuleGraph.lookup, List.findIdx?_eq_some_iff_getElem]
  constructor
  · rintro ⟨hid, hkey, hbefore⟩
    refine ⟨hid, ?_, fun other hother => ?_⟩
    · rw [get_eq_getElem hid]
      exact eq_of_beq hkey
    · rw [get_eq_getElem (Nat.lt_trans hother hid)]
      exact fun heq => hbefore other hother (beq_iff_eq.mpr heq)
  · rintro ⟨hid, hkey, hbefore⟩
    refine ⟨hid, ?_, fun other hother heq => ?_⟩
    · rw [← get_eq_getElem hid]
      exact beq_iff_eq.mpr hkey
    · have hne := hbefore other hother
      rw [get_eq_getElem (Nat.lt_trans hother hid)] at hne
      exact hne (eq_of_beq heq)

theorem lookup_eq_none_iff : g.lookup key = none ↔ ∀ id < g.size, (g.get id).key ≠ key := by
  rw [ModuleGraph.lookup, List.findIdx?_eq_none_iff]
  constructor
  · intro h id hid heq
    have hne := h _ (List.getElem_mem hid)
    rw [← get_eq_getElem hid, heq] at hne
    simp at hne
  · intro h m hm
    obtain ⟨id, hid, rfl⟩ := List.mem_iff_getElem.mp hm
    rw [← get_eq_getElem hid]
    simpa using h id hid

/-- A module before and after a while: what names it stays, and so does its content unless it is that
of a file. -/
structure Same (m m' : Module) : Prop where
  key : m'.key = m.key
  path : m'.path = m.path
  query : m'.query = m.query
  origin : m'.origin = m.origin
  content : m.origin ≠ .source →
    m'.type = m.type ∧ m'.artifact = m.artifact ∧ m'.contentHash = m.contentHash

theorem Same.refl (m : Module) : Same m m := ⟨rfl, rfl, rfl, rfl, fun _ => ⟨rfl, rfl, rfl⟩⟩

theorem Same.trans {m' m'' : Module} (h : Same m m') (h' : Same m' m'') : Same m m'' where
  key := h'.key.trans h.key
  path := h'.path.trans h.path
  query := h'.query.trans h.query
  origin := h'.origin.trans h.origin
  content := by
    intro hsource
    obtain ⟨htype, hartifact, hhash⟩ := h.content hsource
    obtain ⟨htype', hartifact', hhash'⟩ := h'.content (h.origin ▸ hsource)
    exact ⟨htype'.trans htype, hartifact'.trans hartifact, hhash'.trans hhash⟩

/-- A graph before and after a while: modules keep their places, and nothing is taken away. -/
structure Grows (g g' : ModuleGraph) : Prop where
  size_le : g.size ≤ g'.size
  same : ∀ id < g.size, Same (g.get id) (g'.get id)
  dependencies : ∀ id, (g.get id).dependencies ⊆ (g'.get id).dependencies
  entries : g.entries <+: g'.entries

theorem Grows.refl (g : ModuleGraph) : Grows g g :=
  ⟨Nat.le_refl _, fun _ _ => .refl _, fun _ => List.Subset.refl _, List.prefix_refl _⟩

theorem Grows.trans (h : Grows g g') (h' : Grows g' g'') : Grows g g'' where
  size_le := Nat.le_trans h.size_le h'.size_le
  same := fun id hid => (h.same id hid).trans (h'.same id (Nat.lt_of_lt_of_le hid h.size_le))
  dependencies := fun id => List.Subset.trans (h.dependencies id) (h'.dependencies id)
  entries := h.entries.trans h'.entries

theorem Grows.lookup (h : Grows g g') (hlookup : g.lookup key = some id) :
    g'.lookup key = some id := by
  obtain ⟨hid, hkey, hbefore⟩ := lookup_eq_some_iff.mp hlookup
  refine lookup_eq_some_iff.mpr ⟨Nat.lt_of_lt_of_le hid h.size_le, ?_, fun other hother => ?_⟩
  · rw [(h.same id hid).key, hkey]
  · rw [(h.same other (Nat.lt_trans hother hid)).key]
    exact hbefore other hother

theorem insert_of_some (h : g.lookup m.key = some id) : g.insert m = (g, id) := by
  rw [ModuleGraph.insert, h]

theorem insert_of_none (h : g.lookup m.key = none) :
    g.insert m = ({ g with modules := g.modules ++ [m] }, g.size) := by
  rw [ModuleGraph.insert, h]

theorem size_append : ({ g with modules := g.modules ++ [m] } : ModuleGraph).size = g.size + 1 :=
  List.length_append

theorem get_append : ({ g with modules := g.modules ++ [m] } : ModuleGraph).get id =
    if id = g.size then m else g.get id := by
  rw [ModuleGraph.get, List.getD_eq_getElem?_getD]
  rcases Nat.lt_trichotomy id g.size with hlt | rfl | hgt
  · rw [if_neg (Nat.ne_of_lt hlt), List.getElem?_append_left hlt, ModuleGraph.get,
      List.getD_eq_getElem?_getD]
  · rw [if_pos rfl, ModuleGraph.size, List.getElem?_concat_length, Option.getD_some]
  · have hsize : (g.modules ++ [m]).length ≤ id := by
      rw [List.length_append]
      exact hgt
    rw [if_neg (Nat.ne_of_gt hgt), List.getElem?_eq_none hsize, Option.getD_none,
      get_of_size_le (Nat.le_of_lt hgt)]

theorem get_insert (h : id < g.size) : (g.insert m).1.get id = g.get id := by
  cases hlookup : g.lookup m.key with
  | some found => rw [insert_of_some hlookup]
  | none => rw [insert_of_none hlookup, get_append, if_neg (Nat.ne_of_lt h)]

theorem eq_of_insert (h : g.size ≤ id) (h' : id < (g.insert m).1.size) :
    (g.insert m).2 = id ∧ (g.insert m).1.get id = m := by
  cases hlookup : g.lookup m.key with
  | some found =>
      rw [insert_of_some hlookup] at h'
      exact absurd h' (Nat.not_lt.mpr h)
  | none =>
      rw [insert_of_none hlookup] at h' ⊢
      rw [size_append] at h'
      obtain rfl : id = g.size := Nat.le_antisymm (Nat.le_of_lt_succ h') h
      exact ⟨rfl, by rw [get_append, if_pos rfl]⟩

theorem entries_insert : (g.insert m).1.entries = g.entries := by
  cases hlookup : g.lookup m.key with
  | some found => rw [insert_of_some hlookup]
  | none => rw [insert_of_none hlookup]

theorem dependencies_insert (h : m.dependencies = []) :
    ((g.insert m).1.get id).dependencies = (g.get id).dependencies := by
  cases hlookup : g.lookup m.key with
  | some found => rw [insert_of_some hlookup]
  | none =>
      rw [insert_of_none hlookup, get_append]
      split
      · next hid =>
          rw [h, get_of_size_le (Nat.le_of_eq hid.symm)]
          rfl
      · rfl

theorem grows_insert : Grows g (g.insert m).1 := by
  refine ⟨?_, fun id hid => get_insert hid ▸ .refl _, fun id => ?_, ?_⟩
  · cases hlookup : g.lookup m.key with
    | some found => exact insert_of_some hlookup ▸ Nat.le_refl _
    | none =>
        rw [insert_of_none hlookup, size_append]
        exact Nat.le_succ _
  · by_cases hid : id < g.size
    · exact get_insert hid ▸ List.Subset.refl _
    · rw [get_of_size_le (Nat.not_lt.mp hid)]
      exact List.nil_subset _
  · exact entries_insert ▸ List.prefix_refl _

theorem lookup_insert : (g.insert m).1.lookup m.key = some (g.insert m).2 := by
  cases hlookup : g.lookup m.key with
  | some found => rw [insert_of_some hlookup, hlookup]
  | none =>
      rw [insert_of_none hlookup]
      refine lookup_eq_some_iff.mpr ⟨?_, ?_, fun other hother => ?_⟩
      · rw [size_append]
        exact Nat.lt_succ_self _
      · rw [get_append, if_pos rfl]
      · rw [get_append, if_neg (Nat.ne_of_lt hother)]
        exact lookup_eq_none_iff.mp hlookup other hother

theorem insert_lt : (g.insert m).2 < (g.insert m).1.size :=
  (lookup_eq_some_iff.mp lookup_insert).1

variable {change : Module → Module}

theorem size_modify : (g.modify id change).size = g.size := List.length_modify ..

theorem get_modify (h : id < g.size) : (g.modify id change).get other =
    if other = id then change (g.get id) else g.get other := by
  rw [ModuleGraph.get, ModuleGraph.modify, List.getD_eq_getElem?_getD, List.getElem?_modify]
  split
  · next heq =>
      subst heq
      rw [if_pos rfl, List.getElem?_eq_getElem h, get_eq_getElem h]
      rfl
  · next hne =>
      rw [if_neg (Ne.symm hne), ModuleGraph.get, List.getD_eq_getElem?_getD]
      cases g.modules[other]? <;> rfl

theorem grows_modify (h : id < g.size) (hsame : Same (g.get id) (change (g.get id)))
    (hdependencies : (g.get id).dependencies ⊆ (change (g.get id)).dependencies) :
    Grows g (g.modify id change) := by
  refine ⟨Nat.le_of_eq size_modify.symm, fun other hother => ?_, fun other => ?_,
    List.prefix_refl _⟩
  · rw [get_modify h]
    split
    · next heq => exact heq ▸ hsame
    · exact .refl _
  · rw [get_modify h]
    split
    · next heq => exact heq ▸ hdependencies
    · exact List.Subset.refl _

variable {d dependency : Dependency}

theorem get_addDependency (h : importer < g.size) : (g.addDependency importer d).get id =
    { g.get id with dependencies :=
        if id = importer ∧ d ∉ (g.get id).dependencies then (g.get id).dependencies ++ [d]
        else (g.get id).dependencies } := by
  rw [ModuleGraph.addDependency, get_modify h]
  by_cases hid : id = importer
  · subst hid
    rw [if_pos rfl]
    by_cases hd : d ∈ (g.get id).dependencies <;> simp [hd]
  · simp [hid]

theorem mem_dependencies_addDependency (h : importer < g.size) :
    dependency ∈ ((g.addDependency importer d).get id).dependencies ↔
      dependency ∈ (g.get id).dependencies ∨ (id = importer ∧ dependency = d) := by
  rw [get_addDependency h]
  by_cases hid : id = importer
  · by_cases hd : d ∈ (g.get id).dependencies
    · rw [if_neg fun hnew => hnew.2 hd]
      exact ⟨.inl, fun hmem => hmem.elim (fun hold => hold) fun hnew => hnew.2 ▸ hd⟩
    · rw [if_pos ⟨hid, hd⟩, List.mem_append, List.mem_singleton]
      simp only [hid, true_and]
  · rw [if_neg fun hnew => hid hnew.1]
    simp only [hid, false_and, or_false]

theorem grows_addDependency (h : importer < g.size) : Grows g (g.addDependency importer d) where
  size_le := Nat.le_of_eq size_modify.symm
  same := by
    intro id _
    rw [get_addDependency h]
    exact ⟨rfl, rfl, rfl, rfl, fun _ => ⟨rfl, rfl, rfl⟩⟩
  dependencies := fun _ _ hmem => (mem_dependencies_addDependency h).mpr (.inl hmem)
  entries := List.prefix_refl _

end WebBundle.Proofs.GraphGrowth
