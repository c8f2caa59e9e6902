import WebBundle.Output.Writing
import WebBundle.Proofs.QuietBuilds
import WebBundle.Proofs.StoreRegions

namespace WebBundle.Proofs.StagedWrites

open MemoryStore
open Output (stagingDir)
open WebBundle.Proofs.QuietBuilds
open WebBundle.Proofs.StoreRegions

/-- A file system whose files are those of a store in memory. Reading and writing may fail. -/
structure Backed {σ : Type} (fs : FileSystem (StateM σ)) (stored : σ → MemoryStore) : Prop where
  quiet : QuietView fs.toFileView
  write : ∀ p content s, ∃ result s', (fs.write p content).run s = (result, s') ∧
    (result = .ok () ∧ stored s' = (stored s).write p content ∨
      result ≠ .ok () ∧ stored s' = stored s)
  removeDir : ∀ p s, ∃ s', (fs.removeDir p).run s = (.ok (), s') ∧ stored s' = (stored s).removeDir p
  rename : ∀ source target s, ∃ result s', (fs.rename source target).run s = (result, s') ∧
    ((∃ e, (stored s).rename source target = .error e ∧ result = .error e ∧ stored s' = stored s) ∨
      (stored s).rename source target = .ok (stored s') ∧ result = .ok ())

theorem backed_faulty : Backed FaultyStore.fileSystem FaultyStore.store where
  quiet := quietView_faulty
  write := by
    intro p content s
    have hrun : (FaultyStore.fileSystem.write p content).run s = s.write p content := rfl
    by_cases hfails : s.failWrites.any p.endsWith = true
    · refine ⟨.error (.medium "disk full"), s, ?_, .inr ⟨nofun, rfl⟩⟩
      rw [hrun, FaultyStore.write, if_pos hfails]
    · refine ⟨.ok (), { s with store := s.store.write p content }, ?_, .inl ⟨rfl, rfl⟩⟩
      rw [hrun, FaultyStore.write, if_neg hfails]
      rfl
  removeDir := fun p s => ⟨_, rfl, rfl⟩
  rename := by
    intro source target s
    cases hrename : s.store.rename source target with
    | error e =>
        refine ⟨.error e, s, ?_, .inl ⟨e, rfl, rfl, rfl⟩⟩
        change s.update (s.store.rename source target) = _
        rw [hrename, FaultyStore.update]
    | ok store =>
        refine ⟨.ok (), { s with store }, ?_, .inr ⟨rfl, rfl⟩⟩
        change s.update (s.store.rename source target) = _
        rw [hrename, FaultyStore.update]

theorem run_bind_of {σ α β : Type} {x : StateM σ α} {f : α → StateM σ β} {s s' : σ} {a : α}
    (h : x.run s = (a, s')) : (x >>= f).run s = (f a).run s' := by
  rw [StateT.run_bind, h]
  rfl

section

variable {σ : Type} {fs : FileSystem (StateM σ)} {stored : σ → MemoryStore}
variable {dir source target staging : Path} {files : OutputFiles} {clean : Bool}

theorem writeAll_run (hfs : Backed fs stored) (dir : Path) (entries : List (String × ByteArray))
    (s : σ) : ∃ result s', (Output.writeAll fs dir entries).run s = (result, s') ∧
      Agrees (fun key => ∃ e ∈ entries, keyOf (dir.join ⟨e.1⟩) = key) (stored s) (stored s') ∧
      (∀ key, ((stored s).files.get? key).isSome → ((stored s').files.get? key).isSome) ∧
      (result = .ok () →
        ∀ e ∈ entries, ((stored s').files.get? (keyOf (dir.join ⟨e.1⟩))).isSome) := by
  induction entries generalizing s with
  | nil => exact ⟨.ok (), s, rfl, .refl _, fun _ h => h, by simp⟩
  | cons entry rest ih =>
      obtain ⟨name, content⟩ := entry
      obtain ⟨result, s₁, hwrite, hresult⟩ := hfs.write (dir.join ⟨name⟩) content s
      rcases hresult with ⟨rfl, hstored⟩ | ⟨hresult, hstored⟩
      · obtain ⟨result, s₂, hrun, hagrees, hkept, hwritten⟩ := ih s₁
        have hfirst : Agrees (fun key => keyOf (dir.join ⟨name⟩) = key) (stored s) (stored s₁) :=
          hstored ▸ write_agrees content
        have hwrites : ∀ key, keyOf (dir.join ⟨name⟩) = key ∨ ((stored s).files.get? key).isSome →
            ((stored s₁).files.get? key).isSome := fun key h => hstored ▸ isSome_write h
        refine ⟨result, s₂, ?_, ?_, fun key h => hkept key (hwrites key (.inr h)), fun hok => ?_⟩
        · rw [Output.writeAll, run_bind_of hwrite]
          exact hrun
        · refine (hfirst.mono fun key hkey => ?_).trans (hagrees.mono fun key hkey => ?_)
          · exact ⟨(name, content), List.mem_cons_self, hkey⟩
          · obtain ⟨e, he, hkey⟩ := hkey
            exact ⟨e, List.mem_cons_of_mem _ he, hkey⟩
        · intro e he
          rcases List.mem_cons.mp he with rfl | he
          · exact hkept _ (hwrites _ (.inl rfl))
          · exact hwritten hok e he
      · refine ⟨result, s₁, ?_, ?_, ?_, fun hok => absurd hok hresult⟩
        · rw [Output.writeAll, run_bind_of hwrite]
          cases result with
          | error e => rfl
          | ok _ => exact absurd rfl hresult
        · rw [hstored]
          exact .refl _
        · rw [hstored]
          exact fun _ h => h

/-- Changes in two directories only. -/
abbrev AgreesBut (source target : Path) (store store' : MemoryStore) : Prop :=
  Agrees (fun key => Within source key ∨ Within target key) store store'

theorem join_absolute {name : String} (h : (Path.mk name).isAbsolute = true) (dir : Path) :
    dir.join ⟨name⟩ = ⟨name⟩ := by
  rw [Path.join, if_pos h]

theorem rename_join_agrees {name : String} {store store' : MemoryStore} (hsource : source.text ≠ "")
    (htarget : target.text ≠ "")
    (h : store.rename (source.join ⟨name⟩) (target.join ⟨name⟩) = .ok store') :
    AgreesBut source target store store' := by
  by_cases hname : (Path.mk name).isAbsolute = true
  · rw [join_absolute hname, join_absolute hname] at h
    exact rename_self_agrees h
  · rw [Bool.not_eq_true] at hname
    refine (rename_agrees h).mono fun key hkey => ?_
    exact hkey.imp (within_join hsource hname).trans (within_join htarget hname).trans

theorem moveAll_run (hfs : Backed fs stored) (hsource : source.text ≠ "") (htarget : target.text ≠ "")
    (names : List String) (s : σ) :
    ∃ result s', (Output.moveAll fs source target names).run s = (result, s') ∧
      AgreesBut source target (stored s) (stored s') ∧
      ((names.map fun name => keyOf (source.join ⟨name⟩)).Nodup →
        (∀ name ∈ names, ((stored s).files.get? (keyOf (source.join ⟨name⟩))).isSome) →
        result = .ok ()) := by
  induction names generalizing s with
  | nil => exact ⟨.ok (), s, rfl, .refl _, fun _ _ => rfl⟩
  | cons name rest ih =>
      obtain ⟨result, s₁, hrename, hresult⟩ :=
        hfs.rename (source.join ⟨name⟩) (target.join ⟨name⟩) s
      rcases hresult with ⟨e, herror, rfl, hstored⟩ | ⟨hok, rfl⟩
      · refine ⟨.error e, s₁, ?_, ?_, fun _ hfiles => ?_⟩
        · rw [Output.moveAll, run_bind_of hrename]
          rfl
        · rw [hstored]
          exact .refl _
        · obtain ⟨_, hmoved, -⟩ := rename_file (hfiles name List.mem_cons_self)
          exact absurd (herror.symm.trans hmoved) nofun
      · obtain ⟨result, s₂, hrun, hagrees, hmoved⟩ := ih s₁
        refine ⟨result, s₂, ?_, (rename_join_agrees hsource htarget hok).trans hagrees, ?_⟩
        · rw [Output.moveAll, run_bind_of hrename]
          exact hrun
        · intro hnodup hfiles
          obtain ⟨hname, hrest⟩ := List.nodup_cons.mp hnodup
          refine hmoved hrest fun other hother => ?_
          obtain ⟨_, hok', hkept⟩ := rename_file (hfiles name List.mem_cons_self)
          obtain rfl := Except.ok.inj (hok'.symm.trans hok)
          refine hkept _ (fun heq => hname ?_) (hfiles other (List.mem_cons_of_mem _ hother))
          exact List.mem_map.mpr ⟨other, hother, heq⟩

theorem mergeDir_run (hfs : Backed fs stored) (hstaging : staging.text ≠ "") (hdir : dir.text ≠ "")
    (files : OutputFiles) (s : σ) :
    ∃ result s', (Output.mergeDir fs staging dir files).run s = (result, s') ∧
      AgreesBut staging dir (stored s) (stored s') ∧
      ((files.keys.map fun name => keyOf (staging.join ⟨name⟩)).Nodup →
        (∀ name ∈ files.keys, ((stored s).files.get? (keyOf (staging.join ⟨name⟩))).isSome) →
        result = .ok ()) := by
  obtain ⟨result, s₁, hmove, hagrees, hmoved⟩ := moveAll_run hfs hstaging hdir files.keys s
  cases result with
  | error e =>
      refine ⟨.error e, s₁, ?_, hagrees, hmoved⟩
      rw [Output.mergeDir, run_bind_of hmove]
      rfl
  | ok _ =>
      obtain ⟨s₂, hremove, hstored⟩ := hfs.removeDir staging s₁
      refine ⟨.ok (), s₂, ?_, hagrees.trans ?_, fun _ _ => rfl⟩
      · rw [Output.mergeDir, run_bind_of hmove]
        exact hremove
      · rw [hstored]
        exact removeDir_agrees.mono fun _ => .inl

theorem replaceDir_run (hfs : Backed fs stored) (staging dir : Path) (files : OutputFiles) (s : σ) :
    ∃ result s', (Output.replaceDir fs staging dir files).run s = (result, s') ∧
      AgreesBut staging dir (stored s) (stored s') ∧
      ((files.isEmpty = false → ∃ key, Within staging key ∧ ¬ Within dir key ∧
          ((stored s).files.get? key).isSome) → result = .ok ()) := by
  obtain ⟨s₁, hremove, hstored⟩ := hfs.removeDir dir s
  have hagrees : AgreesBut staging dir (stored s) (stored s₁) := by
    rw [hstored]
    exact removeDir_agrees.mono fun _ => .inr
  by_cases hempty : files.isEmpty = true
  · refine ⟨.ok (), s₁, ?_, hagrees, fun _ => rfl⟩
    rw [Output.replaceDir, run_bind_of hremove]
    simp only [if_pos hempty]
    rfl
  · obtain ⟨result, s₂, hrename, hresult⟩ := hfs.rename staging dir s₁
    refine ⟨result, s₂, ?_, ?_, fun hmovable => ?_⟩
    · rw [Output.replaceDir, run_bind_of hremove]
      simp only [if_neg hempty]
      exact hrename
    · rcases hresult with ⟨e, -, -, hstored₂⟩ | ⟨hok, -⟩
      · rw [hstored₂]
        exact hagrees
      · exact hagrees.trans (rename_agrees hok)
    · rcases hresult with ⟨e, herror, -⟩ | ⟨-, hresult⟩
      · obtain ⟨key, hkey, houtside, hfile⟩ := hmovable (Bool.eq_false_iff.mpr hempty)
        have hfile₁ : ((stored s₁).files.get? key).isSome := by
          rw [hstored, get?_removeDir, if_neg fun hbelow => houtside (.inr hbelow)]
          exact hfile
        obtain ⟨_, hok⟩ := rename_isOk hkey hfile₁
        exact absurd (herror.symm.trans hok) nofun
      · exact hresult

/-- A key that an absolute file name leads to, wherever the output directory is. -/
def Astray (files : OutputFiles) (key : String) : Prop :=
  ∃ name ∈ files.keys, (Path.mk name).isAbsolute = true ∧ keyOf ⟨name⟩ = key

/-- Prepared files can be put in the place of an output directory. -/
structure Movable (dir : Path) (clean : Bool) (files : OutputFiles) : Prop where
  /-- The prepared files do not go away with the output directory. -/
  apart : clean = true → ∀ key, Within (stagingDir dir) key → ¬ Within dir key
  /-- Some file was prepared in the staging directory. -/
  staged : clean = true → files.isEmpty = false →
    ∃ name ∈ files.keys, (Path.mk name).isAbsolute = false
  /-- No two files were prepared in one place. -/
  distinct : clean = false →
    (files.keys.map fun name => keyOf ((stagingDir dir).join ⟨name⟩)).Nodup

theorem join_text_ne {p : Path} {name : String} (hname : name ≠ "") : (p.join ⟨name⟩).text ≠ "" := by
  rw [Path.join]
  split
  · exact hname
  · split <;> simp [hname]

theorem stagingDir_ne (dir : Path) : (stagingDir dir).text ≠ "" := by
  have hname : "." ++ (dir.fileName.map String.ofList).getD "output" ++ ".staging" ≠ "" := by
    simp
  simp only [stagingDir, Path.withFileName]
  split <;> exact join_text_ne hname

theorem within_or_astray {name : String} (hdir : dir.text ≠ "") (hname : name ∈ files.keys) :
    Within dir (keyOf (dir.join ⟨name⟩)) ∨ Astray files (keyOf (dir.join ⟨name⟩)) := by
  by_cases habsolute : (Path.mk name).isAbsolute = true
  · rw [join_absolute habsolute]
    exact .inr ⟨name, hname, habsolute, rfl⟩
  · exact .inl (within_join hdir (Bool.not_eq_true _ ▸ habsolute))

theorem place_run (hfs : Backed fs stored) (hdir : dir.text ≠ "") (clean : Bool)
    (files : OutputFiles) (s : σ) : ∃ result s',
      (if clean then Output.replaceDir fs (stagingDir dir) dir files
        else Output.mergeDir fs (stagingDir dir) dir files).run s = (result, s') ∧
      AgreesBut (stagingDir dir) dir (stored s) (stored s') ∧
      (Movable dir clean files →
        (∀ name ∈ files.keys,
          ((stored s).files.get? (keyOf ((stagingDir dir).join ⟨name⟩))).isSome) →
        result = .ok ()) := by
  cases clean with
  | true =>
      obtain ⟨result, s', hrun, hchanged, hmoved⟩ := replaceDir_run hfs (stagingDir dir) dir files s
      refine ⟨result, s', hrun, hchanged, fun hmovable hfiles => hmoved fun hempty => ?_⟩
      obtain ⟨name, hname, hrelative⟩ := hmovable.staged rfl hempty
      have hwithin := within_join (stagingDir_ne dir) hrelative
      exact ⟨_, hwithin, hmovable.apart rfl _ hwithin, hfiles name hname⟩
  | false =>
      obtain ⟨result, s', hrun, hchanged, hmoved⟩ :=
        mergeDir_run hfs (stagingDir_ne dir) hdir files s
      exact ⟨result, s', hrun, hchanged, fun hmovable => hmoved (hmovable.distinct rfl)⟩

/-- Writing an output changes files in the output directory, in the staging directory and under
absolute names only. Where prepared files can be moved, a failure leaves the output directory alone. -/
theorem write_run (hfs : Backed fs stored) (hdir : dir.text ≠ "") (clean : Bool)
    (files : OutputFiles) (s : σ) :
    ∃ result s', (Output.write fs dir clean files).run s = (result, s') ∧
      Agrees (fun key => Within dir key ∨ Within (stagingDir dir) key ∨ Astray files key)
        (stored s) (stored s') ∧
      (Movable dir clean files → result ≠ .ok () →
        Agrees (fun key => Within (stagingDir dir) key ∨ Astray files key)
          (stored s) (stored s')) := by
  obtain ⟨s₁, hremove, hstored₁⟩ := hfs.removeDir (stagingDir dir) s
  obtain ⟨result, s₂, hwrite, hagrees, -, hwritten⟩ :=
    writeAll_run hfs (stagingDir dir) files.entries s₁
  have hprepared : Agrees (fun key => Within (stagingDir dir) key ∨ Astray files key)
      (stored s) (stored s₂) := by
    have hremoved : Agrees (Within (stagingDir dir)) (stored s) (stored s₁) :=
      hstored₁ ▸ removeDir_agrees
    refine (hremoved.mono fun _ => .inl).trans (hagrees.mono ?_)
    rintro key ⟨e, he, rfl⟩
    exact within_or_astray (stagingDir_ne dir) (List.mem_map.mpr ⟨e, he, rfl⟩)
  cases result with
  | error e =>
      obtain ⟨s₃, hremove₃, hstored₃⟩ := hfs.removeDir (stagingDir dir) s₂
      have hremoved : Agrees (Within (stagingDir dir)) (stored s₂) (stored s₃) :=
        hstored₃ ▸ removeDir_agrees
      have hfailed := hprepared.trans (hremoved.mono fun _ => .inl)
      refine ⟨.error e, s₃, ?_, hfailed.mono fun _ => .inr, fun _ _ => hfailed⟩
      rw [Output.write, run_bind_of hremove]
      simp only
      rw [run_bind_of hwrite]
      simp only
      rw [run_bind_of hremove₃]
      rfl
  | ok _ =>
      obtain ⟨result, s₃, hplace, hchanged, hplaced⟩ := place_run hfs hdir clean files s₂
      refine ⟨result, s₃, ?_, ?_, fun hmovable hfailed => absurd (hplaced hmovable ?_) hfailed⟩
      · rw [Output.write, run_bind_of hremove]
        simp only
        rw [run_bind_of hwrite]
        exact hplace
      · refine (hprepared.mono fun _ => .inr).trans (hchanged.mono fun key hkey => ?_)
        exact hkey.elim (fun h => .inr (.inl h)) .inl
      · intro name hname
        obtain ⟨e, he, rfl⟩ := List.mem_map.mp hname
        exact hwritten rfl e he

end

end WebBundle.Proofs.StagedWrites
