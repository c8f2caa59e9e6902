import WebBundle.Proofs.ConfinedRuns

namespace WebBundle.Proofs.EntryFiles

open Discovery (entryRequest addEntries)
open WebBundle.Proofs.ConfinedRuns
open WebBundle.Proofs.QuietBuilds

variable {σ : Type} {fs : FileSystem (StateM σ)} {c : Config} {registry : Registry}
  {cache : Option Cache} {s : σ}

/-- The file to which the path of an entry is resolved. -/
def ResolvesTo (view : FileView Id) (r : Resolver) (path : String) (source : Path)
    (query : Option String) : Prop :=
  r.resolve view (entryRequest path) r.context = .ok (.file source query)

instance {view : FileView Id} {r : Resolver} {path : String} {source : Path}
    {query : Option String} :
    Decidable (ResolvesTo view r path source query) :=
  inferInstanceAs (Decidable ((r.resolve view (entryRequest path) r.context).run =
    .ok (.file source query)))

theorem lift_run {ε α β : Type} {x : StateM σ α} {y : Id α} (hx : Answers s x y)
    (f : α → ExceptT ε (StateM σ) β) :
    ((liftM x >>= f).run.run s).run = ((f y.run).run.run s).run := by
  have hbind : ((liftM x >>= f).run.run s).run =
      ((f (x.run s).run.1).run.run (x.run s).run.2).run := rfl
  rw [hbind, hx]
  rfl

theorem addEntries_resolved {p : Project} {view : FileView (StateM σ)} (hview : QuietView view)
    {entries : List (String × String)} {d d' : Discovery} {s' : σ}
    (h : ((addEntries p view entries d).run.run s).run = (.ok d', s')) :
    ∀ entry ∈ entries, ∃ source query,
      ResolvesTo (shown view s) p.resolver entry.2 source query := by
  induction entries generalizing d with
  | nil => simp
  | cons first rest ih =>
      obtain ⟨name, path⟩ := first
      rw [addEntries] at h
      have hrun := (lift_run (answers_resolve hview (entryRequest path) p.resolver.context)
        _).symm.trans h
      cases hresolve : (p.resolver.resolve (shown view s) (entryRequest path)
        p.resolver.context).run with
      | error e =>
          rw [hresolve] at hrun
          exact absurd (congrArg Prod.fst hrun) nofun
      | ok resolution =>
          rw [hresolve] at hrun
          cases resolution with
          | file source query =>
              rw [List.forall_mem_cons]
              exact ⟨⟨source, query, hresolve⟩, ih hrun⟩
          | «external» global => exact absurd (congrArg Prod.fst hrun) nofun
          | ignored => exact absurd (congrArg Prod.fst hrun) nofun

theorem ok_of_bind {α β : Type} {x : BuildM (StateM σ) α} {f : α → BuildM (StateM σ) β} {b : β}
    (h : (((x >>= f).run.run cache).run s).run.1.1 = .ok b) : ∃ a next s',
      ((x.run.run cache).run s).run = ((.ok a, next), s') ∧
        (((f a).run.run next).run s').run.1.1 = .ok b := by
  rw [run_bind] at h
  rcases hx : ((x.run.run cache).run s).run with ⟨⟨_ | a, next⟩, s'⟩
  · rw [hx] at h
    exact absurd h nofun
  · rw [hx] at h
    exact ⟨a, next, s', rfl, h⟩

theorem withoutCache_eq_ok {α : Type} {x : ExceptT BuildError (StateM σ) α} {a : α}
    {next : Option Cache} {s' : σ}
    (h : (((Discovery.withoutCache x).run.run cache).run s).run = ((.ok a, next), s')) :
    (x.run.run s).run = (.ok a, s') := by
  have hlift : (((liftM x.run : BuildM (StateM σ) (Except BuildError α)).run.run cache).run s).run =
      ((.ok (x.run.run s).run.1, cache), (x.run.run s).run.2) := rfl
  rw [Discovery.withoutCache, run_bind, hlift] at h
  rcases hx : (x.run.run s).run with ⟨_ | b, s''⟩
  · rw [hx] at h
    exact absurd (congrArg (·.1.1) h) nofun
  · rw [hx] at h
    cases (h : ((Except.ok b, cache), s'') = _)
    rfl

/-- A build that succeeds has resolved every entry to a file. -/
theorem entries_resolved (hview : QuietView fs.toFileView) {result : BuildResult}
    (h : (built c registry fs cache s).1.1 = .ok result) :
    ∃ plan, BuildPlan.ofConfig c registry = .ok plan ∧
      ∀ entry ∈ plan.entries, ∃ source query,
        ResolvesTo (shown fs.toFileView s) plan.project.resolver entry.2 source query := by
  obtain ⟨plan, hplan⟩ := ofConfig_of_built h
  refine ⟨plan, hplan, ?_⟩
  rw [built, Build.build, hplan] at h
  obtain ⟨plan', cache', s', hfirst, h⟩ := ok_of_bind h
  cases (hfirst : ((Except.ok plan, cache), s) = _)
  obtain ⟨_, cache', s', hget, h⟩ := ok_of_bind h
  cases (hget : ((Except.ok cache, cache), s) = _)
  obtain ⟨found, cache', s', hfound, -⟩ := ok_of_bind h
  obtain ⟨d, cache'', s'', hentries, -⟩ := ok_of_bind (b := found) (congrArg (·.1.1) hfound)
  exact addEntries_resolved hview (withoutCache_eq_ok hentries)

end WebBundle.Proofs.EntryFiles
