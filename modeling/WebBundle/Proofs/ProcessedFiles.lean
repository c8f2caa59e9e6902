import WebBundle.Proofs.CachedRuns

namespace WebBundle.Proofs.ProcessedFiles

open WebBundle.Proofs.CachedRuns

section

variable {ε α β : Type} {cache after : Option Cache} {b : β}

theorem bind_eq_ok {x : ExceptT ε Id α} {f : α → ExceptT ε Id β} :
    (x >>= f).run.run = .ok b ↔ ∃ a, x.run.run = .ok a ∧ (f a).run.run = .ok b := by
  rw [ExceptT.run_bind]
  cases h : x.run.run with
  | error e =>
      simp only [Id.run] at h
      simp [h, bind, Id.run, pure]
  | ok a =>
      simp only [Id.run] at h
      simp [h, bind, Id.run]

theorem run_bind (x : BuildM Id α) (f : α → BuildM Id β) (cache : Option Cache) :
    ((x >>= f).run.run cache).run =
      match (x.run.run cache).run with
      | (.ok a, next) => ((f a).run.run next).run
      | (.error e, next) => (.error e, next) := by
  simp only [bind, ExceptT.bind, ExceptT.run, ExceptT.mk, StateT.bind, StateT.run, Id.run]
  rcases x cache with ⟨_ | _, _⟩ <;> rfl

theorem bind_run_eq_ok {x : BuildM Id α} {f : α → BuildM Id β} :
    ((x >>= f).run.run cache).run = (.ok b, after) ↔ ∃ a next,
      (x.run.run cache).run = (.ok a, next) ∧ ((f a).run.run next).run = (.ok b, after) := by
  rw [run_bind]
  rcases (x.run.run cache).run with ⟨_ | a, next⟩ <;> simp

theorem pure_run_eq_ok {a : β} :
    ((pure a : BuildM Id β).run.run cache).run = (.ok b, after) ↔ a = b ∧ cache = after := by
  have hpure : ((pure a : BuildM Id β).run.run cache).run = (.ok a, cache) := rfl
  rw [hpure, Prod.mk.injEq, Except.ok.injEq]

theorem lift_run_eq_ok {x : Id β} :
    ((liftM x : BuildM Id β).run.run cache).run = (.ok b, after) ↔ x.run = b ∧ cache = after := by
  have hlift : ((liftM x : BuildM Id β).run.run cache).run = (.ok x.run, cache) := rfl
  rw [hlift, Prod.mk.injEq, Except.ok.injEq]

end

variable {p : Project} {view : FileView Id} {g : ModuleGraph} {path : Path} {type : ModuleType}
variable {output : ChainOutput} {cache after : Option Cache} {all : List Call} {id : ModuleId}

/-- What the chain of a file makes of what the file holds. -/
def Made (p : Project) (view : FileView Id) (path : Path) (type : ModuleType)
    (output : ChainOutput) : Prop :=
  ∃ content found, (view.read path).run = .ok content ∧ p.rules.matchPath? path = some found ∧
    found.type = type ∧ found.chain.execute ⟨type.sourceKind, content⟩ path = .ok output

theorem Made.unique {type' : ModuleType} {output' : ChainOutput} (h : Made p view path type output)
    (h' : Made p view path type' output') : type = type' ∧ output = output' := by
  obtain ⟨content, found, hread, hmatch, rfl, houtput⟩ := h
  obtain ⟨content', found', hread', hmatch', rfl, houtput'⟩ := h'
  obtain rfl : content = content' := Except.ok.inj (hread.symm.trans hread')
  obtain rfl : found = found' := Option.some.inj (hmatch.symm.trans hmatch')
  exact ⟨rfl, Except.ok.inj (houtput.symm.trans houtput')⟩

/-- The call that makes the artifact of a file, if the file can be read and has a type. -/
def call? (p : Project) (view : FileView Id) (path : Path) : Option Call :=
  match (view.read path).run, p.rules.matchPath? path with
  | .ok content, some found => some ⟨found.chain, ⟨found.type.sourceKind, content⟩, path⟩
  | _, _ => none

theorem call?_eq_some {call : Call} : call? p view path = some call ↔ ∃ content found,
    (view.read path).run = .ok content ∧ p.rules.matchPath? path = some found ∧
      call = ⟨found.chain, ⟨found.type.sourceKind, content⟩, path⟩ := by
  rw [call?]
  cases hread : (view.read path).run with
  | error e => simp
  | ok content =>
      cases hmatch : p.rules.matchPath? path with
      | none => simp
      | some found => simp [eq_comm]

theorem exists_call {item : Processed}
    (h : ((Discovery.process p view id path).run.run cache).run = (.ok item, after)) :
    item.id = id ∧ ∃ content found, (view.read path).run = .ok content ∧
      p.rules.matchPath? path = some found ∧ found.type = item.type ∧
        Call.run ⟨found.chain, ⟨found.type.sourceKind, content⟩, path⟩ cache =
          (.ok item.outcome, after) := by
  rw [Discovery.process, bind_run_eq_ok] at h
  obtain ⟨result, next, hlift, h⟩ := h
  obtain ⟨hread, rfl⟩ := lift_run_eq_ok.mp hlift
  split at h
  · simp at h
  · split at h
    · simp at h
    · next found hfound =>
        rw [bind_run_eq_ok] at h
        obtain ⟨outcome, next, hrun, h⟩ := h
        obtain ⟨rfl, rfl⟩ := pure_run_eq_ok.mp h
        exact ⟨rfl, _, found, hread, hfound, rfl, hrun⟩

/-- The cache, if there is one, tells the truth about calls that its keys tell apart. -/
def Serves (all : List Call) (cache : Option Cache) : Prop :=
  ∀ c, cache = some c → Truthful all c ∧ Distinguished all

theorem Serves.run {call : Call} (h : Serves all cache) (hcall : call ∈ all) :
    (call.run cache).1.map Outcome.output = (call.run none).1.map Outcome.output ∧
      Serves all (call.run cache).2 := by
  cases cache with
  | none =>
      refine ⟨rfl, fun c hc => ?_⟩
      rw [run_eq, Chain.run] at hc
      · exact absurd hc (Option.some_ne_none c).symm
      · exact fun c stage rest hcache => absurd hcache.symm (Option.some_ne_none c)
  | some c =>
      obtain ⟨htruthful, hdistinguished⟩ := h c rfl
      obtain ⟨next, hnext, htruthful, houtput, -⟩ := htruthful.run hdistinguished hcall
      refine ⟨houtput, fun c' hc' => ?_⟩
      obtain rfl := Option.some.inj (hnext.symm.trans hc')
      exact ⟨htruthful, hdistinguished⟩

theorem process_made {item : Processed} (hcache : Serves all cache)
    (hcalls : ∀ call, call? p view path = some call → call ∈ all)
    (h : ((Discovery.process p view id path).run.run cache).run = (.ok item, after)) :
    Made p view path item.type item.outcome.output ∧ Serves all after := by
  obtain ⟨-, content, found, hread, hmatch, htype, hrun⟩ := exists_call h
  have hcall : call? p view path =
      some ⟨found.chain, ⟨found.type.sourceKind, content⟩, path⟩ :=
    call?_eq_some.mpr ⟨content, found, hread, hmatch, rfl⟩
  obtain ⟨houtput, hserves⟩ := hcache.run (hcalls _ hcall)
  rw [hrun] at houtput hserves
  rw [output_run_none] at houtput
  refine ⟨⟨content, found, hread, hmatch, htype, ?_⟩, hserves⟩
  rw [← htype]
  cases hexecute : found.chain.execute ⟨found.type.sourceKind, content⟩ path with
  | error e => simp [hexecute, Except.map, Except.mapError] at houtput
  | ok output => simpa [hexecute, Except.map, Except.mapError, eq_comm] using houtput

/-- The calls for the files of a graph. -/
def callsOf (p : Project) (view : FileView Id) (g : ModuleGraph) : List Call :=
  (g.modules.filter fun m => m.origin = .source).filterMap fun m => call? p view m.path

variable {ids : List ModuleId} {items : List Processed}

theorem processAll_cons {first : ModuleId}
    (h : ((Discovery.processAll p view g (first :: ids)).run.run cache).run = (.ok items, after)) :
    ∃ item next rest, items = item :: rest ∧
      ((Discovery.process p view first (g.get first).path).run.run cache).run = (.ok item, next) ∧
      ((Discovery.processAll p view g ids).run.run next).run = (.ok rest, after) := by
  rw [Discovery.processAll, bind_run_eq_ok] at h
  obtain ⟨item, next, hitem, h⟩ := h
  rw [bind_run_eq_ok] at h
  obtain ⟨rest, last, hrest, h⟩ := h
  obtain ⟨rfl, rfl⟩ := pure_run_eq_ok.mp h
  exact ⟨item, next, rest, rfl, hitem, hrest⟩

theorem processAll_ids
    (h : ((Discovery.processAll p view g ids).run.run cache).run = (.ok items, after)) :
    items.map Processed.id = ids := by
  induction ids generalizing cache items with
  | nil =>
      obtain ⟨rfl, -⟩ := pure_run_eq_ok.mp h
      rfl
  | cons first rest ih =>
      obtain ⟨item, next, others, rfl, hitem, hothers⟩ := processAll_cons h
      rw [List.map_cons, (exists_call hitem).1, ih hothers]

/-- Files that are processed with a cache give what their chains make of them. -/
theorem processAll_made (hcache : Serves all cache)
    (hcalls : ∀ id ∈ ids, ∀ call, call? p view (g.get id).path = some call → call ∈ all)
    (h : ((Discovery.processAll p view g ids).run.run cache).run = (.ok items, after)) :
    (∀ item ∈ items, Made p view (g.get item.id).path item.type item.outcome.output) ∧
      Serves all after := by
  induction ids generalizing cache items with
  | nil =>
      obtain ⟨rfl, rfl⟩ := pure_run_eq_ok.mp h
      exact ⟨nofun, hcache⟩
  | cons first rest ih =>
      obtain ⟨item, next, others, rfl, hitem, hothers⟩ := processAll_cons h
      obtain ⟨hmade, hnext⟩ := process_made hcache (hcalls first List.mem_cons_self) hitem
      obtain ⟨hrest, hafter⟩ := ih hnext
        (fun id hid => hcalls id (List.mem_cons_of_mem _ hid)) hothers
      refine ⟨fun other hother => ?_, hafter⟩
      rcases List.mem_cons.mp hother with rfl | hother
      · rw [(exists_call hitem).1]
        exact hmade
      · exact hrest other hother

end WebBundle.Proofs.ProcessedFiles
