import WebBundle.Proofs.BoundaryMembers

namespace WebBundle.Proofs.UnloadedModules

open Relation
open WebBundle.Boundary (Known Reach available members)
open WebBundle.Proofs.ModuleReach
open WebBundle.Proofs.BoundaryMembers

/-- A module that one boundary needs imports the root of another on demand. -/
def Leads (g : ModuleGraph) (first second : Boundary) : Prop :=
  ∃ importer ∈ g.staticClosure first.root, Imports g .dynamic importer second.root

/-- A route to a boundary, with the boundaries that come before it. -/
inductive Route (g : ModuleGraph) (boundaries : List Boundary) : List Boundary → Boundary → Prop
  | enter {b : Boundary} (hb : b ∈ boundaries) (hinitial : b.initial = true) :
      Route g boundaries [] b
  | follow {before : List Boundary} {p b : Boundary} (hroute : Route g boundaries before p)
      (hb : b ∈ boundaries) (hleads : Leads g p b) : Route g boundaries (before ++ [p]) b

variable {g : ModuleGraph} {boundaries : List Boundary}

theorem Route.mem {before : List Boundary} {b : Boundary} (h : Route g boundaries before b) :
    b ∈ boundaries := by
  cases h with
  | enter hb => exact hb
  | follow _ hb => exact hb

/-- Ways through entries begin anew there, so routes lead where ways lead. -/
theorem exists_route_iff (ok : Boundary → Prop) {i : Nat} {b : Boundary}
    (hb : boundaries[i]? = some b) :
    (∃ before, Route g boundaries before b ∧ ∀ p ∈ before, ok p) ↔
      ∃ entry, EntryAt boundaries entry ∧
        ReflTransGen (fun source target => Way g boundaries source target ∧
          ∀ first, boundaries[source]? = some first → ok first) entry i := by
  constructor
  · rintro ⟨before, hroute, hok⟩
    induction hroute generalizing i with
    | enter _ hinitial => exact ⟨i, ⟨_, hb, hinitial⟩, .refl⟩
    | @follow before p b hroute _ hleads ih =>
        cases hinitial : b.initial with
        -- No way leads to an entry, but one begins there, and it has passed fewer boundaries.
        | true => exact ⟨i, ⟨b, hb, hinitial⟩, .refl⟩
        | false =>
            obtain ⟨j, hj⟩ := List.mem_iff_getElem?.mp hroute.mem
            obtain ⟨entry, hentry, hway⟩ :=
              ih hj fun q hq => hok q (List.mem_append_left _ hq)
            refine ⟨entry, hentry, hway.tail ⟨⟨p, b, hj, hb, hinitial, hleads⟩, ?_⟩⟩
            intro first hfirst
            obtain rfl : p = first := Option.some.inj (hj.symm.trans hfirst)
            exact hok p (by simp)
  · rintro ⟨entry, ⟨b₀, hb₀, hinitial⟩, hway⟩
    induction hway generalizing b with
    | refl =>
        obtain rfl : b₀ = b := Option.some.inj (hb₀.symm.trans hb)
        exact ⟨[], .enter (List.mem_of_getElem? hb₀) hinitial, by simp⟩
    | tail _ hstep ih =>
        obtain ⟨⟨first, second, hfirst, hsecond, -, hleads⟩, hok⟩ := hstep
        obtain rfl : second = b := Option.some.inj (hsecond.symm.trans hb)
        obtain ⟨before, hroute, hbefore⟩ := ih hfirst
        refine ⟨before ++ [first], hroute.follow (List.mem_of_getElem? hb) hleads, ?_⟩
        simpa [or_imp, forall_and] using ⟨hbefore, hok first hfirst⟩

theorem reached_iff_route {i : Nat} {b : Boundary} (hb : boundaries[i]? = some b) :
    Reached g boundaries i ↔ ∃ before, Route g boundaries before b := by
  simpa [Reached] using (exists_route_iff (g := g) (fun _ => True) hb).symm

theorem reachedWithout_iff_route {i : Nat} {b : Boundary} (hb : boundaries[i]? = some b)
    {m : ModuleId} :
    ReachedWithout g boundaries m i ↔
      ∃ before, Route g boundaries before b ∧ ∀ p ∈ before, m ∉ g.staticClosure p.root :=
  (exists_route_iff _ hb).symm

/-- Finding out what is available comes to an end, after so many passes that another one changes
nothing. Then a boundary to which a route leads has to load what some route to it has not loaded,
and any other boundary, as an entry, all that it needs. -/
theorem members_by_routes (g : ModuleGraph) (boundaries : List Boundary) :
    (∃ passes, available g boundaries =
      (Reach.of g boundaries).pass^[passes] (Known.start boundaries)) ∧
    (Reach.of g boundaries).pass (available g boundaries) = available g boundaries ∧
    (members g boundaries).length = boundaries.length ∧
    ∀ (i : Nat) (b : Boundary) (modules : IdSet),
      boundaries[i]? = some b → (members g boundaries)[i]? = some modules →
      ((∃ before, Route g boundaries before b) →
        ∀ m, m ∈ modules ↔ m ∈ g.staticClosure b.root ∧
          ∃ before, Route g boundaries before b ∧ ∀ p ∈ before, m ∉ g.staticClosure p.root) ∧
      (b.initial = true ∨ (¬ ∃ before, Route g boundaries before b) →
        modules = g.staticClosure b.root) := by
  obtain ⟨hpasses, hfixed⟩ := available_spec g boundaries
  refine ⟨hpasses, hfixed, length_members g boundaries, ?_⟩
  intro i b modules hb hmodules
  have hmem : ∀ m, m ∈ modules ↔ m ∈ g.staticClosure b.root ∧
      ((∃ before, Route g boundaries before b) →
        ∃ before, Route g boundaries before b ∧ ∀ p ∈ before, m ∉ g.staticClosure p.root) := by
    intro m
    rw [mem_members_iff hb hmodules, reached_iff_route hb, reachedWithout_iff_route hb]
  constructor
  · intro hroute m
    simp only [hmem, hroute, true_implies]
  · rintro (hinitial | hnone)
    · apply IdSet.ext
      intro m
      have henter : Route g boundaries [] b := .enter (List.mem_of_getElem? hb) hinitial
      exact (hmem m).trans (and_iff_left fun _ => ⟨[], henter, by simp⟩)
    · apply IdSet.ext
      intro m
      simp only [hmem, hnone, false_implies, and_true]

/-- An entry imports `x` on demand, `x` imports `y` on demand, and `y` imports `x` again. The entry
and `y` need the same script, as do `x` and `y`. -/
def nestedImports : ModuleGraph where
  modules := [
    { key := "./src/index.js", path := ⟨"/p/src/index.js"⟩, origin := .source
      dependencies := [⟨"./shared", 1, .static⟩, ⟨"./x", 2, .dynamic⟩] },
    { key := "./src/shared.js", path := ⟨"/p/src/shared.js"⟩, origin := .source },
    { key := "./src/x.js", path := ⟨"/p/src/x.js"⟩, origin := .source
      dependencies := [⟨"./helper", 3, .static⟩, ⟨"./y", 4, .dynamic⟩] },
    { key := "./src/helper.js", path := ⟨"/p/src/helper.js"⟩, origin := .source },
    { key := "./src/y.js", path := ⟨"/p/src/y.js"⟩, origin := .source
      dependencies := [⟨"./shared", 1, .static⟩, ⟨"./helper", 3, .static⟩, ⟨"./own", 5, .static⟩,
        ⟨"./x", 2, .dynamic⟩] },
    { key := "./src/own.js", path := ⟨"/p/src/own.js"⟩, origin := .source }]
  entries := [("main", 0)]

/-- The only route to `y` leads over `x`, which has loaded `helper` by then. -/
theorem members_by_routes_nestedImports :
    ∃ entry x y, Boundary.ofGraph nestedImports = [entry, x, y] ∧
      members nestedImports [entry, x, y] = [.ofList [0, 1], .ofList [2, 3], .ofList [4, 5]] ∧
      Route nestedImports [entry, x, y] [entry, x] y ∧
      3 ∈ nestedImports.staticClosure y.root ∧
      (∀ before, Route nestedImports [entry, x, y] before y →
        ¬ ∀ p ∈ before, 3 ∉ nestedImports.staticClosure p.root) ∧
      IdSet.ofList [0, 1] = nestedImports.staticClosure entry.root := by
  let entry : Boundary := { name := "main", root := 0, initial := true }
  let x : Boundary := { name := "x", root := 2, initial := false }
  let y : Boundary := { name := "y", root := 4, initial := false }
  have hmembers : members nestedImports [entry, x, y] =
      [.ofList [0, 1], .ofList [2, 3], .ofList [4, 5]] := by decide +kernel
  have hroute : Route nestedImports [entry, x, y] [entry, x] y :=
    ((Route.enter (b := entry) (by simp) rfl).follow (b := x) (by simp)
      ⟨0, by decide +kernel, by rw [Imports]; decide⟩).follow (by simp)
      ⟨2, by decide +kernel, by rw [Imports]; decide⟩
  obtain ⟨-, -, -, hmodules⟩ := members_by_routes nestedImports [entry, x, y]
  have hy := (hmodules 2 y (.ofList [4, 5]) rfl (by rw [hmembers]; rfl)).1 ⟨_, hroute⟩ 3
  have hentry := (hmodules 0 entry (.ofList [0, 1]) rfl (by rw [hmembers]; rfl)).2 (.inl rfl)
  have hneeds : 3 ∈ nestedImports.staticClosure y.root := by decide +kernel
  refine ⟨entry, x, y, by decide +kernel, hmembers, hroute, hneeds, ?_, hentry⟩
  intro before hbefore hout
  have hloads : 3 ∉ IdSet.ofList [4, 5] := by decide
  exact hloads (hy.mpr ⟨hneeds, before, hbefore, hout⟩)

end WebBundle.Proofs.UnloadedModules
