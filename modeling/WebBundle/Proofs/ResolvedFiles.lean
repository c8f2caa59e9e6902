import WebBundle.Proofs.ProbeLists
import WebBundle.Proofs.TidyPaths

namespace WebBundle.Proofs.ResolvedFiles

open Resolver
open WebBundle.Proofs.ProbeLists
open WebBundle.Proofs.TidyPaths

/-- Extensions that only make the last part of a path longer. -/
def Plain (extensions : List String) : Prop :=
  ∀ extension ∈ extensions, '/' ∉ extension.toList ∧ extension ≠ "."

variable {r : Resolver} {view : FileView Id} {base dir path : Path} {specifier : String}
  {directory : Path} {query : Option String}

section Repetitions

variable {α : Type} {a b : α} {list : List α}

theorem eraseRepsBy_loop (same : α → α → Bool) (last : α) (rest erased : List α) :
    List.eraseRepsBy.loop same last rest erased =
      erased.reverse ++ List.eraseRepsBy.loop same last rest [] := by
  induction rest generalizing last erased with
  | nil => simp [List.eraseRepsBy.loop]
  | cons next rest ih =>
      rw [List.eraseRepsBy.loop, List.eraseRepsBy.loop]
      split
      · exact ih last erased
      · rw [ih next (last :: erased), ih next [last], List.reverse_cons, List.append_assoc]
        rfl

variable [BEq α]

theorem eraseReps_cons_cons (a next : α) (rest : List α) : (a :: next :: rest).eraseReps =
    if a == next then (a :: rest).eraseReps else a :: (next :: rest).eraseReps := by
  rw [List.eraseReps, List.eraseRepsBy, List.eraseRepsBy.loop]
  cases a == next with
  | true => rfl
  | false => exact eraseRepsBy_loop _ next rest [a]

theorem exists_eraseReps_cons (a : α) (list : List α) :
    ∃ rest, (a :: list).eraseReps = a :: rest := by
  induction list with
  | nil => exact ⟨[], rfl⟩
  | cons next list ih =>
      rw [eraseReps_cons_cons]
      split
      · exact ih
      · exact ⟨_, rfl⟩

theorem mem_eraseReps [LawfulBEq α] : b ∈ list.eraseReps ↔ b ∈ list := by
  induction list with
  | nil => exact Iff.rfl
  | cons a list ih =>
      cases list with
      | nil => exact Iff.rfl
      | cons next rest =>
          rw [eraseReps_cons_cons]
          split
          · next hsame =>
              obtain rfl : a = next := beq_iff_eq.mp hsame
              rw [ih]
              simp
          · rw [List.mem_cons, ih, ← List.mem_cons]

theorem eraseReps_replicate [LawfulBEq α] (a : α) (count : Nat) :
    (List.replicate (count + 1) a).eraseReps = [a] := by
  induction count with
  | zero => rfl
  | succ count ih =>
      rw [List.replicate_succ, List.replicate_succ, eraseReps_cons_cons, if_pos BEq.rfl]
      exact ih

theorem eraseReps_eq_singleton_iff [LawfulBEq α] :
    list.eraseReps = [a] ↔ list ≠ [] ∧ ∀ b ∈ list, b = a := by
  constructor
  · refine fun h => ⟨fun hnil => ?_, fun b hb => ?_⟩
    · subst hnil
      exact absurd h nofun
    · rw [← mem_eraseReps, h] at hb
      exact List.mem_singleton.mp hb
  · rintro ⟨hne, hall⟩
    rw [List.eq_replicate_of_mem hall]
    obtain ⟨count, hcount⟩ := Nat.exists_eq_succ_of_ne_zero (List.length_pos_iff.mpr hne).ne'
    rw [hcount]
    exact eraseReps_replicate a count

end Repetitions

theorem tidy_candidates (request : String) (directory : Path) :
    ∀ base ∈ r.candidates request directory, Tidy base := by
  intro base hbase
  rw [candidates] at hbase
  split at hbase
  · exact List.mem_singleton.mp hbase ▸ tidy_normalize _
  · split at hbase
    · exact List.mem_singleton.mp hbase ▸ tidy_normalize _
    · obtain ⟨dir, -, hbase⟩ := List.mem_flatMap.mp (mem_eraseReps.mp hbase)
      split at hbase
      · exact List.mem_singleton.mp hbase ▸ tidy_normalize _
      · obtain ⟨above, -, rfl⟩ := List.mem_map.mp hbase
        exact tidy_normalize _

theorem exists_base_of_mem_probesOf (hbase : Tidy base) (h : .file path ∈ probesOf r view base) :
    ∃ base, Tidy base ∧ (path ∈ r.fileProbes base ∨ path ∈ r.indexProbes base) := by
  rw [probesOf, List.mem_append] at h
  rcases h with h | h
  · exact ⟨base, hbase, .inl (mem_map_file.mp h)⟩
  · split at h
    · rcases List.mem_append.mp h with h | h
      · obtain ⟨main, hmain⟩ := exists_main_of_mem_packageProbes h
        exact ⟨_, tidy_normalize _, hmain⟩
      · exact ⟨base, hbase, .inr (mem_map_file.mp h)⟩
    · exact absurd h List.not_mem_nil

/-- A specifier that is resolved to a file leads to a stored one, which is tried for a tidy path, with the
query of the specifier. -/
theorem probed_of_resolve (h : (r.resolve view specifier directory).run = .ok (.file path query)) :
    (view.isFile path).run = true ∧ query = (splitQuery specifier).2 ∧
      ∃ base, Tidy base ∧ (path ∈ r.fileProbes base ∨ path ∈ r.indexProbes base) := by
  rw [resolve] at h
  split at h
  · cases h
  · split at h
    · cases h
    · simp only [bind, Id.run] at h
      split at h
      · cases h
      · next found hfound =>
          obtain ⟨rfl, rfl⟩ : found = path ∧ _ = query := by simpa [pure] using h
          obtain ⟨hmem, hfile⟩ := probed_of_lookupPaths hfound
          obtain ⟨base, hbase, hprobe⟩ := List.mem_flatMap.mp hmem
          exact ⟨hfile, rfl, exists_base_of_mem_probesOf (tidy_candidates _ _ base hbase) hprobe⟩
      · cases h

theorem isFile_of_resolve (h : (r.resolve view specifier directory).run = .ok (.file path query)) :
    (view.isFile path).run = true :=
  (probed_of_resolve h).1

theorem tidy_fileProbes (hr : Plain r.extensions) (hbase : Tidy base) :
    ∀ path ∈ r.fileProbes base, Tidy path := by
  intro path hpath
  rcases List.mem_cons.mp hpath with rfl | hpath
  · exact hbase
  · obtain ⟨extension, hextension, rfl⟩ := List.mem_map.mp hpath
    exact tidy_append hbase (hr extension hextension).1 (hr extension hextension).2

theorem isName_index {extension : String} (h : '/' ∉ extension.toList) :
    IsName ("index" ++ extension).toList := by
  rw [isName_iff, String.toList_append]
  exact ⟨by simp, by simp, by simp [h]⟩

theorem tidy_indexProbes (hr : Plain r.extensions) (hdir : Tidy dir) :
    ∀ path ∈ r.indexProbes dir, Tidy path := by
  intro path hpath
  obtain ⟨extension, hextension, rfl⟩ := List.mem_map.mp hpath
  have hname := isName_index (hr extension hextension).1
  rw [← String.ofList_toList (s := "index" ++ extension)]
  exact tidy_join hdir hname

theorem tidy_of_resolve (hr : Plain r.extensions)
    (h : (r.resolve view specifier directory).run = .ok (.file path query)) : Tidy path := by
  obtain ⟨-, -, base, hbase, hfile | hindex⟩ := probed_of_resolve h
  · exact tidy_fileProbes hr hbase path hfile
  · exact tidy_indexProbes hr hbase path hindex

end WebBundle.Proofs.ResolvedFiles
