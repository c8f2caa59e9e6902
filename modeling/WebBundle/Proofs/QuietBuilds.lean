import WebBundle.Build.Basic
import WebBundle.Store.Faulty

namespace WebBundle.Proofs.QuietBuilds

open WebBundle.Discovery

section

variable {σ ε α β : Type}

def Quiet (x : StateM σ α) : Prop := ∀ s, (x.run s).run.2 = s

theorem quiet_pure (a : α) : Quiet (pure a : StateM σ α) := fun _ => rfl

theorem quiet_bind {x : StateM σ α} {f : α → StateM σ β} (hx : Quiet x) (hf : ∀ a, Quiet (f a)) :
    Quiet (x >>= f) := by
  intro s
  have hbind : ((x >>= f).run s).run = ((f (x.run s).run.1).run (x.run s).run.2).run := rfl
  rw [hbind, hf, hx]

/-- A computation that may fail. -/
abbrev QuietTry (x : ExceptT ε (StateM σ) α) : Prop := Quiet x.run

theorem quietTry_bind {x : ExceptT ε (StateM σ) α} {f : α → ExceptT ε (StateM σ) β}
    (hx : QuietTry x) (hf : ∀ a, QuietTry (f a)) : QuietTry (x >>= f) := by
  rw [QuietTry, ExceptT.run_bind]
  refine quiet_bind hx fun result => ?_
  cases result with
  | error e => exact quiet_pure _
  | ok a => exact hf a

theorem quietTry_lift {x : StateM σ α} (hx : Quiet x) :
    QuietTry (liftM x : ExceptT ε (StateM σ) α) :=
  quiet_bind hx fun _ => quiet_pure _

/-- A computation of a build. -/
def QuietBuild (x : BuildM (StateM σ) α) : Prop := ∀ cache, Quiet (x.run.run cache)

theorem quietBuild_pure (a : α) : QuietBuild (pure a : BuildM (StateM σ) α) := fun _ _ => rfl

theorem quietBuild_throw (e : BuildError) : QuietBuild (throw e : BuildM (StateM σ) α) :=
  fun _ _ => rfl

theorem quietBuild_bind {x : BuildM (StateM σ) α} {f : α → BuildM (StateM σ) β} (hx : QuietBuild x)
    (hf : ∀ a, QuietBuild (f a)) : QuietBuild (x >>= f) := by
  intro cache
  rw [ExceptT.run_bind, StateT.run_bind]
  refine quiet_bind (hx cache) fun result => ?_
  obtain ⟨_ | a, next⟩ := result
  · exact quiet_pure _
  · exact hf a next

theorem quietBuild_get : QuietBuild (get : BuildM (StateM σ) (Option Cache)) := fun _ _ => rfl

theorem quietBuild_set (cache : Option Cache) :
    QuietBuild (set cache : BuildM (StateM σ) PUnit) := fun _ _ => rfl

theorem quietBuild_lift {x : StateM σ α} (hx : Quiet x) :
    QuietBuild (liftM x : BuildM (StateM σ) α) := fun _ s => hx s

end

/-- Looking at files leaves a state as it is. -/
structure QuietView {σ : Type} (view : FileView (StateM σ)) : Prop where
  read : ∀ path, Quiet (view.read path)
  isFile : ∀ path, Quiet (view.isFile path)
  isDir : ∀ path, Quiet (view.isDir path)

section

variable {σ α β : Type} {s : σ}

/-- A computation gives in a state what another gives without one, and leaves the state as it is. -/
def Answers (s : σ) (x : StateM σ α) (y : Id α) : Prop := x.run s = pure (y.run, s)

theorem answers_pure (a : α) : Answers s (pure a) (pure a) := rfl

theorem answers_bind {x : StateM σ α} {y : Id α} {f : α → StateM σ β} {g : α → Id β}
    (hx : Answers s x y)
    (hf : ∀ a, Answers s (f a) (g a)) : Answers s (x >>= f) (y >>= g) := by
  rw [Answers, StateT.run_bind, hx]
  exact hf y.run

theorem answers_of_quiet {x : StateM σ α} (h : Quiet x) : Answers s x (pure (x.run s).run.1) :=
  Prod.ext rfl (h s)

/-- What a view shows in a state. -/
def shown (view : FileView (StateM σ)) (s : σ) : FileView Id where
  read path := pure ((view.read path).run s).run.1
  isFile path := pure ((view.isFile path).run s).run.1
  isDir path := pure ((view.isDir path).run s).run.1

end

variable {σ : Type} {s : σ} {view : FileView (StateM σ)} {r : Resolver} {p : Project}

theorem answers_probe (hview : QuietView view) (tried paths : List Path) :
    Answers s (Resolver.probe view tried paths) (Resolver.probe (shown view s) tried paths) := by
  induction paths generalizing tried with
  | nil => exact answers_pure _
  | cons path rest ih =>
      refine answers_bind (answers_of_quiet (hview.isFile path)) fun found => ?_
      cases found with
      | true => exact answers_pure _
      | false => exact ih _

theorem answers_description (hview : QuietView view) (dir : Path) :
    Answers s (Resolver.description view dir) (Resolver.description (shown view s) dir) := by
  refine answers_bind (answers_of_quiet (hview.isFile _)) fun found => ?_
  cases found with
  | false => exact answers_pure _
  | true =>
      refine answers_bind (answers_of_quiet (hview.read _)) fun result => ?_
      cases result with
      | error e => exact answers_pure _
      | ok bytes =>
          dsimp only
          split <;> exact answers_pure _

theorem answers_directoryProbes (hview : QuietView view) (dir : Path) :
    Answers s (r.directoryProbes view dir) (r.directoryProbes (shown view s) dir) := by
  refine answers_bind (answers_description hview dir) fun result => ?_
  split <;> exact answers_pure _

theorem answers_lookupPath (hview : QuietView view) (tried : List Path) (base : Path) :
    Answers s (r.lookupPath view tried base) (r.lookupPath (shown view s) tried base) := by
  refine answers_bind (answers_probe hview _ _) fun probed => ?_
  cases probed with
  | found path => exact answers_pure _
  | missed tried =>
      refine answers_bind (answers_of_quiet (hview.isDir base)) fun isDir => ?_
      cases isDir with
      | false => exact answers_pure _
      | true =>
          refine answers_bind (answers_directoryProbes hview base) fun result => ?_
          cases result with
          | error e => exact answers_pure _
          | ok probes => exact answers_bind (answers_probe hview _ _) fun _ => answers_pure _

theorem answers_lookupPaths (hview : QuietView view) (tried : List Path) (bases : List Path) :
    Answers s (r.lookupPaths view tried bases) (r.lookupPaths (shown view s) tried bases) := by
  induction bases generalizing tried with
  | nil => exact answers_pure _
  | cons base rest ih =>
      refine answers_bind (answers_lookupPath hview tried base) fun result => ?_
      split
      · exact ih _
      · exact answers_pure _

theorem answers_resolve (hview : QuietView view) (specifier : String) (directory : Path) :
    Answers s (r.resolve view specifier directory)
      (r.resolve (shown view s) specifier directory) := by
  rw [Resolver.resolve, Resolver.resolve]
  split
  · exact answers_pure _
  · split
    · exact answers_pure _
    · refine answers_bind (answers_lookupPaths hview _ _) fun result => ?_
      split <;> exact answers_pure _

theorem quiet_resolve (hview : QuietView view) (specifier : String) (directory : Path) :
    Quiet (r.resolve view specifier directory) :=
  fun _ => congrArg Prod.snd (answers_resolve hview specifier directory)

theorem quiet_linkImports (hview : QuietView view) (importer : ModuleId) (directory : Path)
    (imports : List Import) (d : Discovery) :
    QuietTry (linkImports p view importer directory imports d) := by
  induction imports generalizing d with
  | nil => exact quiet_pure _
  | cons i rest ih =>
      refine quietTry_bind (quietTry_lift (quiet_resolve hview _ _)) fun result => ?_
      cases result with
      | error e => exact quiet_pure _
      | ok resolution => exact ih _

theorem quiet_linkSides (hview : QuietView view) (owner : ModuleId) (path : Path)
    (query : Option String) (parse : Bool) (index : Nat) (artifacts : List Artifact) (d : Discovery) :
    QuietTry (linkSides p view owner path query parse index artifacts d) := by
  induction artifacts generalizing index d with
  | nil => exact quiet_pure _
  | cons artifact rest ih =>
      rw [linkSides]
      cases parse with
      | false => exact ih _ _
      | true => exact quietTry_bind (quiet_linkImports hview _ _ _ _) fun _ => ih _ _

theorem quiet_link (hview : QuietView view) (item : Processed) (d : Discovery) :
    QuietTry (link p view item d) := by
  refine quietTry_bind (quiet_linkSides hview _ _ _ _ _ _ _) fun next => ?_
  split
  · exact quiet_linkImports hview _ _ _ _
  · exact quiet_pure _

theorem quiet_linkAll (hview : QuietView view) (items : List Processed) (d : Discovery) :
    QuietTry (linkAll p view items d) := by
  induction items generalizing d with
  | nil => exact quiet_pure _
  | cons item rest ih => exact quietTry_bind (quiet_link hview item d) fun _ => ih _

theorem quiet_withoutCache {α : Type} {x : ExceptT BuildError (StateM σ) α} (hx : QuietTry x) :
    QuietBuild (withoutCache x) := by
  refine quietBuild_bind (quietBuild_lift hx) fun result => ?_
  cases result with
  | error e => exact quietBuild_throw e
  | ok a => exact quietBuild_pure a

theorem quiet_runChain (chain : Chain) (input : Artifact) (path : Path) :
    QuietBuild (runChain chain input path : BuildM (StateM σ) Outcome) := by
  refine quietBuild_bind quietBuild_get fun cache => ?_
  refine quietBuild_bind (quietBuild_set _) fun _ => ?_
  split
  · exact quietBuild_pure _
  · exact quietBuild_throw _

theorem quiet_process (hview : QuietView view) (id : ModuleId) (path : Path) :
    QuietBuild (process p view id path) := by
  refine quietBuild_bind (quietBuild_lift (hview.read path)) fun result => ?_
  cases result with
  | error e => exact quietBuild_throw _
  | ok content =>
      dsimp only
      split
      · exact quietBuild_throw _
      · exact quietBuild_bind (quiet_runChain _ _ _) fun _ => quietBuild_pure _

theorem quiet_processAll (hview : QuietView view) (g : ModuleGraph) (ids : List ModuleId) :
    QuietBuild (processAll p view g ids) := by
  induction ids with
  | nil => exact quietBuild_pure _
  | cons id rest ih =>
      exact quietBuild_bind (quiet_process hview _ _) fun _ =>
        quietBuild_bind ih fun _ => quietBuild_pure _

theorem quiet_wave (hview : QuietView view) (d : Discovery) : QuietBuild (wave p view d) :=
  quietBuild_bind (quiet_processAll hview _ _) fun _ => quiet_withoutCache (quiet_linkAll hview _ _)

theorem quiet_waves (hview : QuietView view) (limit : Nat) (d : Discovery) :
    QuietBuild (waves p view limit d) := by
  induction limit generalizing d with
  | zero =>
      rw [waves]
      split
      · exact quietBuild_pure _
      · exact quietBuild_throw _
  | succ limit ih =>
      rw [waves]
      split
      · exact quietBuild_pure _
      · exact quietBuild_bind (quiet_wave hview d) fun _ => ih _

theorem quiet_addEntries (hview : QuietView view) (entries : List (String × String)) (d : Discovery) :
    QuietTry (addEntries p view entries d) := by
  induction entries generalizing d with
  | nil => exact quiet_pure _
  | cons entry rest ih =>
      refine quietTry_bind (quietTry_lift (quiet_resolve hview _ _)) fun result => ?_
      split
      · exact ih _
      · exact quiet_pure _
      · exact quiet_pure _

theorem quiet_run (hview : QuietView view) (entries : List (String × String)) :
    QuietBuild (run p view entries) :=
  quietBuild_bind (quiet_withoutCache (quiet_addEntries hview _ _)) fun _ =>
    quietBuild_bind (quiet_waves hview _ _) fun _ => quietBuild_pure _

theorem quiet_orFail {α : Type} (x : Except BuildError α) :
    QuietBuild (Build.orFail x : BuildM (StateM σ) α) := by
  cases x with
  | error e => exact quietBuild_throw e
  | ok a => exact quietBuild_pure a

/-- A build leaves the state of its file system as it is if looking at files does. -/
theorem quiet_build (hview : QuietView view) (c : Config) (registry : Registry) :
    QuietBuild (Build.build c registry view) := by
  refine quietBuild_bind (quiet_orFail _) fun plan => ?_
  refine quietBuild_bind quietBuild_get fun cache => ?_
  refine quietBuild_bind (quiet_run hview _) fun found => ?_
  refine quietBuild_bind (quiet_orFail _) fun output => ?_
  exact quietBuild_bind quietBuild_get fun _ => quietBuild_pure _

theorem quietView_faulty : QuietView FaultyStore.fileSystem.toFileView :=
  ⟨fun _ _ => rfl, fun _ _ => rfl, fun _ _ => rfl⟩

end WebBundle.Proofs.QuietBuilds
