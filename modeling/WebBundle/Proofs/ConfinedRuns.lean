import WebBundle.Proofs.VerbatimNames

namespace WebBundle.Proofs.ConfinedRuns

open MemoryStore
open Output (stagingDir)
open WebBundle.Proofs.VerbatimNames
open WebBundle.Proofs.QuietBuilds
open WebBundle.Proofs.StagedWrites
open WebBundle.Proofs.StoreRegions
open WebBundle.Proofs.TidyPaths

variable {σ : Type} {fs : FileSystem (StateM σ)} {stored : σ → MemoryStore}
variable {c : Config} {registry : Registry} {cache : Option Cache} {s : σ}

/-- What a build returns, and the cache and the files after it. -/
def built (c : Config) (registry : Registry) (fs : FileSystem (StateM σ)) (cache : Option Cache)
    (s : σ) : (Except BuildError BuildResult × Option Cache) × σ :=
  (((Build.build c registry fs.toFileView).run.run cache).run s).run

/-- What a run returns, and the cache and the files after it. -/
def ran (c : Config) (registry : Registry) (fs : FileSystem (StateM σ)) (cache : Option Cache)
    (s : σ) : (Except BuildError BuildResult × Option Cache) × σ :=
  (((Build.run c registry fs).run.run cache).run s).run

theorem ofConfig_checks {plan : BuildPlan} (h : BuildPlan.ofConfig c registry = .ok plan) :
    BuildPlan.checkOutputDir c c.entry.entries = .ok () := by
  simp only [BuildPlan.ofConfig, bind, Except.bind] at h
  split at h
  · exact absurd h nofun
  · split at h
    · exact absurd h nofun
    · next hcheck => exact hcheck

theorem components_of_empty {p : Path} (h : p.text = "") : p.components = [] := by
  obtain ⟨text⟩ := p
  obtain rfl : text = "" := h
  simp [Path.components, Path.parts, Path.split, Path.componentsOfParts, Path.firstComponent?]

theorem outputDir_ne {entries : List (String × String)}
    (h : BuildPlan.checkOutputDir c entries = .ok ()) : c.outputDir.text ≠ "" := by
  unfold BuildPlan.checkOutputDir at h
  split at h
  · exact absurd h nofun
  · next hfind =>
      have hcontext := List.find?_eq_none.mp hfind c.context.normalize List.mem_cons_self
      intro hempty
      rw [Path.startsWith, components_of_empty hempty] at hcontext
      exact hcontext rfl

theorem ofConfig_of_built {result : BuildResult} (h : (built c registry fs cache s).1.1 = .ok result) :
    ∃ plan, BuildPlan.ofConfig c registry = .ok plan := by
  cases hplan : BuildPlan.ofConfig c registry with
  | ok plan => exact ⟨plan, rfl⟩
  | error e =>
      rw [built, Build.build, hplan] at h
      exact absurd h nofun

theorem run_bind {α β : Type} (x : BuildM (StateM σ) α) (f : α → BuildM (StateM σ) β)
    (cache : Option Cache) (s : σ) : (((x >>= f).run.run cache).run s).run =
      match ((x.run.run cache).run s).run with
      | ((.ok a, next), s') => (((f a).run.run next).run s').run
      | ((.error e, next), s') => ((.error e, next), s') := by
  simp only [bind, ExceptT.bind, ExceptT.run, ExceptT.mk, StateT.bind, StateT.run, Id.run]
  rcases x cache s with ⟨⟨_ | _, _⟩, _⟩ <;> rfl

theorem ran_eq (c : Config) (registry : Registry) (fs : FileSystem (StateM σ)) (cache : Option Cache)
    (s : σ) : ran c registry fs cache s =
      match built c registry fs cache s with
      | ((.error e, next), s') => ((.error e, next), s')
      | ((.ok result, next), s') =>
        match ((Output.write fs c.outputDir c.output.clean result.files).run s').run with
        | (.error e, s'') => ((.error (.store e), next), s'')
        | (.ok (), s'') => ((.ok result, next), s'') := by
  rw [ran, Build.run, run_bind, built]
  rcases (((Build.build c registry fs.toFileView).run.run cache).run s).run with
    ⟨⟨_ | result, next⟩, s'⟩
  · rfl
  · dsimp only
    rw [run_bind]
    have hlift : (((liftM (Output.write fs c.outputDir c.output.clean result.files) :
        BuildM (StateM σ) _).run.run next).run s').run =
        ((.ok ((Output.write fs c.outputDir c.output.clean result.files).run s').run.1, next),
          ((Output.write fs c.outputDir c.output.clean result.files).run s').run.2) := rfl
    rw [hlift]
    rcases ((Output.write fs c.outputDir c.output.clean result.files).run s').run with ⟨_ | _, s''⟩ <;>
      rfl

theorem built_quiet (hfs : Backed fs stored) (c : Config) (registry : Registry)
    (cache : Option Cache) (s : σ) : (built c registry fs cache s).2 = s :=
  quiet_build hfs.quiet c registry cache s

/-- A run changes files in the output directory, in the staging directory and under absolute names
only. If it fails although what was built can be moved, it leaves the output directory alone. -/
theorem run_confined (hfs : Backed fs stored) (c : Config) (registry : Registry)
    (cache : Option Cache) (s : σ) :
    (∀ result, (ran c registry fs cache s).1.1 = .ok result →
      Agrees (fun key => Within c.outputDir key ∨ Within (stagingDir c.outputDir) key ∨
        Astray result.files key) (stored s) (stored (ran c registry fs cache s).2)) ∧
    ∀ e, (ran c registry fs cache s).1.1 = .error e →
      (∀ result, (built c registry fs cache s).1.1 = .ok result →
        Movable c.outputDir c.output.clean result.files) →
      Agrees (fun key => Within (stagingDir c.outputDir) key ∨
        ∃ result, (built c registry fs cache s).1.1 = .ok result ∧ Astray result.files key)
        (stored s) (stored (ran c registry fs cache s).2) := by
  have hquiet := built_quiet hfs c registry cache s
  rw [ran_eq]
  cases hbuilt : built c registry fs cache s with
  | mk outcome s' =>
      rw [hbuilt] at hquiet
      obtain rfl : s' = s := hquiet
      obtain ⟨_ | result, next⟩ := outcome
      · exact ⟨fun _ h => absurd h nofun, fun _ _ _ => .refl _⟩
      · obtain ⟨plan, hplan⟩ := ofConfig_of_built (congrArg (·.1.1) hbuilt)
        have hdir := outputDir_ne (ofConfig_checks hplan)
        obtain ⟨written, s'', hwrite, hchanged, hfailed⟩ :=
          write_run hfs hdir c.output.clean result.files s'
        have hwrite' : ((Output.write fs c.outputDir c.output.clean result.files).run s').run =
          (written, s'') := hwrite
        simp only [hwrite']
        cases written with
        | error e =>
            refine ⟨fun _ h => absurd h nofun, fun _ _ hmovable => ?_⟩
            refine (hfailed (hmovable result rfl) nofun).mono fun key hkey => ?_
            exact hkey.imp_right fun hastray => ⟨result, rfl, hastray⟩
        | ok _ =>
            refine ⟨fun result' h => ?_, fun _ h => absurd h nofun⟩
            obtain rfl := Except.ok.inj h
            exact hchanged

/-- A script, the output of an earlier run and no place for a manifest. -/
def fullDisk : FaultyStore where
  store := .ofFiles [(⟨"/p/e.js"⟩, "1".toUTF8), (⟨"/p/dist/old.js"⟩, "0".toUTF8)]
  failWrites := [⟨"manifest.json"⟩]

def plainConfig : Config where
  mode := .development
  context := ⟨"/p"⟩
  entry := .single "./e.js"
  cache := false
  optimization := { splitChunks := { defaultVendors := false, defaultGroup := false } }

theorem exists_error {ε α : Type} (result : Except ε α) (h : result.toOption.isNone = true) :
    ∃ e, result = .error e := by
  cases result with
  | error e => exact ⟨e, rfl⟩
  | ok a => exact absurd h Bool.false_ne_true

theorem plain_movable {result : BuildResult}
    (h : (built plainConfig .builtins FaultyStore.fileSystem none fullDisk).1.1 = .ok result) :
    Movable plainConfig.outputDir plainConfig.output.clean result.files := by
  have hkeys : (built plainConfig .builtins FaultyStore.fileSystem none fullDisk).1.1.toOption.all
      (fun result => result.files.keys == ["main.bundle.js", "manifest.json"]) = true := by
    decide +kernel
  rw [h] at hkeys
  have hkeys' : result.files.keys = ["main.bundle.js", "manifest.json"] := by
    simpa [Except.toOption] using hkeys
  have hname : plainConfig.outputDir.fileName = some "dist".toList := by decide +kernel
  refine movable_of_verbatim (tidy_normalize _) hname (by decide) ?_
  rw [hkeys']
  intro name hmem
  rcases List.mem_pair.mp hmem with rfl | rfl
  · exact ⟨by decide, ⟨by decide, by decide, by decide⟩⟩
  · exact ⟨by decide, ⟨by decide, by decide, by decide⟩⟩

theorem run_confined_full_disk :
    Backed FaultyStore.fileSystem FaultyStore.store ∧
      ∃ e, (ran plainConfig .builtins FaultyStore.fileSystem none fullDisk).1.1 = .error e ∧
        Agrees (fun key => Within (stagingDir plainConfig.outputDir) key ∨ ∃ result,
          (built plainConfig .builtins FaultyStore.fileSystem none fullDisk).1.1 = .ok result ∧
            Astray result.files key)
          fullDisk.store (ran plainConfig .builtins FaultyStore.fileSystem none fullDisk).2.store := by
  obtain ⟨e, he⟩ := exists_error
    (ran plainConfig .builtins FaultyStore.fileSystem none fullDisk).1.1 (by decide +kernel)
  refine ⟨backed_faulty, e, he, ?_⟩
  exact (run_confined backed_faulty plainConfig .builtins none fullDisk).2 e he fun _ => plain_movable

/-- A template that puts scripts in the output directory at once. -/
def absoluteConfig : Config := { plainConfig with output := { filename := some "/p/dist/[name].js" } }

/-- A run that fails has written to the output directory. -/
theorem absolute_name_reaches_output :
    (∃ plan, BuildPlan.ofConfig absoluteConfig .builtins = .ok plan) ∧
      (∃ e, (ran absoluteConfig .builtins FaultyStore.fileSystem none fullDisk).1.1 = .error e) ∧
      ¬ Agrees (Within (stagingDir absoluteConfig.outputDir)) fullDisk.store
        (ran absoluteConfig .builtins FaultyStore.fileSystem none fullDisk).2.store := by
  refine ⟨?_, exists_error _ (by decide +kernel), fun h => ?_⟩
  · cases hplan : BuildPlan.ofConfig absoluteConfig .builtins with
    | ok plan => exact ⟨plan, rfl⟩
    | error e =>
        have hchecked : (BuildPlan.ofConfig absoluteConfig .builtins).toOption.isSome = true := by
          decide +kernel
        rw [hplan] at hchecked
        exact absurd hchecked Bool.false_ne_true
  · have houtside : ¬ Within (stagingDir absoluteConfig.outputDir) "/p/dist/main.js" := by
      decide +kernel
    have hbefore : fullDisk.store.files.contains "/p/dist/main.js" = false := by decide +kernel
    have hafter : (ran absoluteConfig .builtins FaultyStore.fileSystem none
        fullDisk).2.store.files.contains "/p/dist/main.js" = true := by decide +kernel
    obtain ⟨content, hcontent⟩ := contains_iff.mp hafter
    rw [h _ houtside] at hcontent
    rw [contains_iff.mpr ⟨content, hcontent⟩] at hbefore
    exact Bool.false_ne_true hbefore.symm

end WebBundle.Proofs.ConfinedRuns
