import WebBundle.Proofs.DraftInvariant

/-!
An extraction as a whole. It keeps the order of what boundaries load, takes from no boundary a module that
the boundary does not load otherwise, and leaves the base chunks of entries where they are.
-/

namespace WebBundle.Proofs.ExtractionInvariant

open WebBundle.Proofs.BoundaryMembers
open WebBundle.Proofs.DraftInvariant
open WebBundle.Proofs.Extraction
open WebBundle.Proofs.LoadList
open WebBundle.Proofs.ModuleReach

variable {g : ModuleGraph} {d : Draft} {p : Policy} {users modules : IdSet} {bucket : Bucket}
variable {t i : Nat} {m : ModuleId}

/-- The draft with the chunk that takes the modules of an extraction. -/
def withTarget (d : Draft) (p : Policy) (bucket : Bucket) : Draft :=
  (d.target p bucket.users bucket.modules).1

/-- The chunk that takes the modules of an extraction. -/
def targetOf (d : Draft) (p : Policy) (bucket : Bucket) : Nat :=
  (d.target p bucket.users bucket.modules).2

/-- The draft once the modules are in their chunk, before the users load it. -/
def moved (d : Draft) (p : Policy) (bucket : Bucket) : Draft :=
  ((withTarget d p bucket).moveModules bucket (targetOf d p bucket)).releaseBase
    (targetOf d p bucket)

/-- The draft once the users load the chunk, before empty base chunks are dropped. -/
def loaded (d : Draft) (p : Policy) (bucket : Bucket) : Draft :=
  (moved d p bucket).load bucket.users (targetOf d p bucket)

theorem boundaries_extract :
    (d.extract p bucket).boundaries =
      ((loaded d p bucket).dropEmptyBases bucket.users).boundaries :=
  rfl

theorem modulesOf_extract (chunk : Nat) : (d.extract p bucket).modulesOf chunk =
    ((withTarget d p bucket).moveModules bucket (targetOf d p bucket)).modulesOf chunk :=
  modulesOf_releaseBase chunk

/-- A base chunk that has just the modules of a bucket is that of an asynchronous boundary. -/
def ReusesAsync (d : Draft) (bucket : Bucket) : Prop :=
  ∀ b ∈ d.boundaries, ∀ base, b.base = some base → d.modulesOf base = bucket.modules →
    b.initial = false

/-- What is known of the chunk that takes the modules of an extraction. -/
structure Targets (d : Draft) (t : Nat) : Prop where
  sound : Sound d
  lt : t < d.chunks.length
  async : ∀ b ∈ d.boundaries, b.base = some t → b.initial = false

theorem targets (h : Sound d) (hasync : ReusesAsync d bucket) :
    Targets (withTarget d p bucket) (targetOf d p bucket) := by
  have hcases := target_cases d p bucket.users bucket.modules
  rw [withTarget, targetOf]
  generalize d.target p bucket.users bucket.modules = target at hcases
  cases hcases with
  | reused _ _ hbase hmodules =>
      obtain ⟨owner, howner, hbase⟩ := baseOf_eq_some.mp hbase
      exact ⟨h, h.base_lt (List.mem_of_getElem? howner) hbase,
        fun b hb hbase' => hasync b hb _ hbase' hmodules⟩
  | extended _ hc horigin =>
      exact ⟨h, (List.getElem?_eq_some_iff.mp hc).1,
        fun b hb hbase => absurd hbase (h.free_of_split hc horigin b hb)⟩
  | added =>
      refine ⟨h.of_keepsNeeds keepsNeeds_addChunk, ?_, ?_⟩
      · obtain ⟨c, hc, -⟩ := chunks_addChunk d p bucket.users
        rw [hc, List.length_append]
        exact Nat.lt_succ_self _
      · exact fun b hb hbase => absurd (h.base_lt hb hbase) (Nat.lt_irrefl _)

theorem length_releaseBase : (d.releaseBase t).chunks.length = d.chunks.length := by
  rw [Draft.releaseBase]
  split
  · rfl
  · exact List.length_modify ..

theorem free_releaseBase : Free (d.releaseBase t) t := by
  by_cases hfree : Free d t
  · rwa [releaseBase_of_free hfree]
  · obtain ⟨b, hb, hbase⟩ := exists_base_of_not_free hfree
    obtain ⟨i, hi⟩ := List.mem_iff_getElem?.mp hb
    obtain ⟨owner, -, -, heq⟩ := releaseBase_of_base (baseOf_eq_some.mpr ⟨b, hi, hbase⟩)
    rw [heq]
    intro b' hb' hbase'
    obtain ⟨b, -, rfl⟩ := List.mem_map.mp hb'
    exact (base_released.mp hbase').2 rfl

theorem sound_moved (h : Sound d) (hasync : ReusesAsync d bucket) :
    Sound (moved d p bucket) ∧ targetOf d p bucket < (moved d p bucket).chunks.length ∧
      Free (moved d p bucket) (targetOf d p bucket) := by
  obtain ⟨hsound, hlt, hinitial⟩ := targets (p := p) h hasync
  refine ⟨(hsound.of_keepsNeeds keepsNeeds_moveModules).releaseBase hinitial, ?_,
    free_releaseBase⟩
  rw [moved, length_releaseBase]
  exact hlt.trans_le keepsNeeds_moveModules.length_le

theorem updates_loaded (h : Sound d) (hasync : ReusesAsync d bucket) :
    Updates (moved d p bucket) (loaded d p bucket)
      (loading (moved d p bucket) bucket.users (targetOf d p bucket)) := by
  obtain ⟨hsound, hlt, hfree⟩ := sound_moved (p := p) h hasync
  exact hsound.updates_load hlt hfree

theorem sound_extract (h : Sound d) (hasync : ReusesAsync d bucket) :
    Sound (d.extract p bucket) := by
  obtain ⟨hsound, hlt, hfree⟩ := sound_moved (p := p) h hasync
  have hdropped : Sound ((loaded d p bucket).dropEmptyBases bucket.users) :=
    (hsound.load hlt hfree).dropEmptyBases
  -- Besides, an extraction only claims modules, of which the invariant says nothing.
  refine hdropped.of_keepsNeeds ⟨rfl, fun chunk c hc => ⟨c, hc, rfl, rfl⟩, ?_⟩
  intro chunk c hc hnone
  exact absurd (hnone.symm.trans hc) (Option.some_ne_none c).symm

def after (d : Draft) (p : Policy) (bucket : Bucket) (i : Nat) (b : Boundary) : Boundary :=
  dropped (loaded d p bucket) bucket.users i
    (loading (moved d p bucket) bucket.users (targetOf d p bucket) i
      (released (targetOf d p bucket) b))

theorem boundaries_withTarget : (withTarget d p bucket).boundaries = d.boundaries := by
  have hcases := target_cases d p bucket.users bucket.modules
  rw [withTarget]
  generalize d.target p bucket.users bucket.modules = target at hcases
  cases hcases <;> rfl

theorem base_ne_target (h : Sound d) (hasync : ReusesAsync d bucket) {b : Boundary}
    (hb : b ∈ d.boundaries) (hinitial : b.initial = true) :
    b.base ≠ some (targetOf d p bucket) := by
  intro hbase
  rw [← boundaries_withTarget (p := p) (d := d)] at hb
  have hlate := (targets h hasync).async b hb hbase
  rw [hinitial] at hlate
  exact Bool.noConfusion hlate

theorem modulesOf_withTarget (chunk : Nat) :
    (withTarget d p bucket).modulesOf chunk = d.modulesOf chunk := by
  have hcases := target_cases d p bucket.users bucket.modules
  rw [withTarget]
  generalize d.target p bucket.users bucket.modules = target at hcases
  cases hcases with
  | reused => rfl
  | extended => rfl
  | added => exact modulesOf_addChunk chunk

theorem boundaries_releaseBase :
    (d.releaseBase t).boundaries = d.boundaries.map (released t) := by
  by_cases hfree : Free d t
  · rw [releaseBase_of_free hfree]
    refine (List.map_id' d.boundaries).symm.trans (List.map_congr_left fun b hb => ?_)
    rw [released, if_neg (hfree b hb)]
  · obtain ⟨b, hb, hbase⟩ := exists_base_of_not_free hfree
    obtain ⟨i, hi⟩ := List.mem_iff_getElem?.mp hb
    obtain ⟨owner, -, -, heq⟩ := releaseBase_of_base (baseOf_eq_some.mpr ⟨b, hi, hbase⟩)
    rw [heq]

theorem getElem?_extract (h : Sound d) (hasync : ReusesAsync d bucket) (i : Nat) :
    (d.extract p bucket).boundaries[i]? = d.boundaries[i]?.map (after d p bucket i) := by
  rw [boundaries_extract, getElem?_dropEmptyBases, (updates_loaded h hasync).boundary, moved,
    boundaries_releaseBase, boundaries_moveModules, boundaries_withTarget, List.getElem?_map,
    Option.map_map, Option.map_map]
  rfl

theorem boundary_extract (h : Sound d) (hasync : ReusesAsync d bucket) {b : Boundary}
    (hb : d.boundaries[i]? = some b) :
    (d.extract p bucket).boundaries[i]? = some (after d p bucket i b) := by
  rw [getElem?_extract h hasync, hb, Option.map_some]

theorem bare_after (b : Boundary) : bare (after d p bucket i b) = bare b := by
  rw [after, dropped, loading, released]
  repeat' split
  all_goals rfl

theorem root_after (b : Boundary) : (after d p bucket i b).root = b.root := by
  show (bare (after d p bucket i b)).root = (bare b).root
  rw [bare_after]

theorem initial_after (b : Boundary) : (after d p bucket i b).initial = b.initial := by
  show (bare (after d p bucket i b)).initial = (bare b).initial
  rw [bare_after]

theorem mem_loads_after_of_released {b : Boundary} {chunk : Nat}
    (hchunk : chunk ∈ (released (targetOf d p bucket) b).loads) :
    chunk ∈ (after d p bucket i b).loads := by
  rw [after, loads_dropped, loading]
  split
  · exact subset_withChunk hchunk
  · exact hchunk

theorem mem_loads_after {b : Boundary} {chunk : Nat} (hchunk : chunk ∈ b.loads) :
    chunk ∈ (after d p bucket i b).loads :=
  mem_loads_after_of_released (mem_loads_released.mpr (.inl hchunk))

theorem target_mem_of_base {b : Boundary} (hbase : b.base = some (targetOf d p bucket)) :
    targetOf d p bucket ∈ (after d p bucket i b).loads :=
  mem_loads_after_of_released (mem_loads_released.mpr (.inr ⟨hbase, rfl⟩))

theorem target_mem_of_user {b : Boundary} (hi : i ∈ bucket.users) :
    targetOf d p bucket ∈ (after d p bucket i b).loads := by
  rw [after, loads_dropped, loading, if_pos hi]
  exact mem_withChunk.mpr (.inr (.inl rfl))

theorem base_after {b : Boundary} {base : Nat} (hbase : b.base = some base)
    (hne : base ≠ targetOf d p bucket) (hm : m ∈ (d.extract p bucket).modulesOf base) :
    (after d p bucket i b).base = some base := by
  have hreleased : (released (targetOf d p bucket) b).base = some base :=
    base_released.mpr ⟨hbase, hne⟩
  have hloading : (loading (moved d p bucket) bucket.users (targetOf d p bucket) i
      (released (targetOf d p bucket) b)).base = some base := by
    rw [loading]
    split <;> exact hreleased
  rw [after, dropped, if_neg, hloading]
  rw [hloading, Option.any_some, Bool.and_eq_true]
  rintro ⟨-, hempty⟩
  exact Reachability.isEmpty_iff.mp hempty m hm

theorem base_of_after {b : Boundary} {base : Nat}
    (hbase : (after d p bucket i b).base = some base) :
    b.base = some base ∧ base ≠ targetOf d p bucket := by
  have hloading := base_of_dropped hbase
  rw [loading] at hloading
  split at hloading <;> exact base_released.mp hloading

theorem mem_modulesOf_extract {chunk : Nat} (hne : chunk ≠ targetOf d p bucket) :
    m ∈ (d.extract p bucket).modulesOf chunk ↔ m ∈ d.modulesOf chunk ∧
      ¬ ∃ c ∈ bucket, c.id = m ∧ ∃ i ∈ c.users, d.baseOf i = some chunk := by
  rw [modulesOf_extract, mem_modulesOf_other hne, modulesOf_withTarget]
  simp only [Draft.baseOf, boundaries_withTarget]

theorem mem_modulesOf_extract_target (h : Sound d) (hasync : ReusesAsync d bucket) :
    m ∈ (d.extract p bucket).modulesOf (targetOf d p bucket) ↔
      m ∈ d.modulesOf (targetOf d p bucket) ∨ m ∈ bucket.modules := by
  rw [modulesOf_extract, mem_modulesOf_target (targets h hasync).lt, modulesOf_withTarget]

theorem free_withTarget {chunk : Nat} (hfree : Free d chunk) :
    Free (withTarget d p bucket) chunk := by
  rw [Free, boundaries_withTarget]
  exact hfree

theorem needsOf_target_of_base (h : Sound d) (hasync : ReusesAsync d bucket) {owner : Boundary}
    (howner : owner ∈ d.boundaries) (hbase : owner.base = some (targetOf d p bucket)) :
    needsOf (moved d p bucket).chunks (targetOf d p bucket) = owner.loads := by
  obtain ⟨hsound, hlt, -⟩ := targets (p := p) h hasync
  have hmoved : Sound ((withTarget d p bucket).moveModules bucket (targetOf d p bucket)) :=
    hsound.of_keepsNeeds keepsNeeds_moveModules
  have howner' :
      owner ∈ ((withTarget d p bucket).moveModules bucket (targetOf d p bucket)).boundaries := by
    rw [boundaries_moveModules, boundaries_withTarget]
    exact howner
  obtain ⟨i, hi⟩ := List.mem_iff_getElem?.mp howner'
  obtain ⟨found, hfound, hbase', heq⟩ :=
    releaseBase_of_base (baseOf_eq_some.mpr ⟨owner, hi, hbase⟩)
  obtain rfl := hmoved.eq_of_base hfound howner' hbase' hbase
  rw [moved, heq, needsOf_modify (hlt.trans_le keepsNeeds_moveModules.length_le), if_pos rfl]

theorem needsOf_target_of_free (h : Sound d) (hfree : Free d (targetOf d p bucket)) :
    needsOf (moved d p bucket).chunks (targetOf d p bucket) = [] := by
  have hfree' : Free ((withTarget d p bucket).moveModules bucket (targetOf d p bucket))
      (targetOf d p bucket) := by
    rw [Free, boundaries_moveModules]
    exact free_withTarget hfree
  rw [moved, releaseBase_of_free hfree', keepsNeeds_moveModules.needsOf_eq]
  have hcases := target_cases d p bucket.users bucket.modules
  rw [targetOf] at hfree ⊢
  rw [withTarget]
  generalize d.target p bucket.users bucket.modules = target at hcases hfree
  cases hcases with
  | reused _ _ hbase _ =>
      obtain ⟨owner, howner, hbase⟩ := baseOf_eq_some.mp hbase
      exact absurd hbase (hfree owner (List.mem_of_getElem? howner))
  | extended _ hc horigin =>
      rw [needsOf_of_getElem? hc]
      by_contra hne
      obtain ⟨⟨root, hasync⟩, -⟩ := h.former_base _ _ hc hne
      rw [horigin] at hasync
      exact ChunkOrigin.noConfusion hasync
  | added =>
      obtain ⟨c, hc, -, -, hdependencies⟩ := chunks_addChunk d p bucket.users
      refine (needsOf_of_getElem? (c := c) ?_).trans hdependencies
      rw [hc]
      exact List.getElem?_concat_length ..

/-- A boundary loads a module. -/
def Provides (d : Draft) (i : Nat) (m : ModuleId) : Prop :=
  ∃ b, d.boundaries[i]? = some b ∧
    ∃ chunk, (chunk ∈ b.loads ∨ b.base = some chunk) ∧ m ∈ d.modulesOf chunk

theorem provides_extract (h : Sound d) (hasync : ReusesAsync d bucket) (hm : Provides d i m) :
    Provides (d.extract p bucket) i m := by
  obtain ⟨b, hb, chunk, hchunk, hm⟩ := hm
  refine ⟨after d p bucket i b, boundary_extract h hasync hb, ?_⟩
  by_cases htarget : chunk = targetOf d p bucket
  · subst htarget
    exact ⟨targetOf d p bucket, .inl (hchunk.elim mem_loads_after target_mem_of_base),
      (mem_modulesOf_extract_target h hasync).mpr (.inl hm)⟩
  · by_cases htaken : ∃ c ∈ bucket, c.id = m ∧ ∃ i ∈ c.users, d.baseOf i = some chunk
    · obtain ⟨c, hc, hid, j, hj, hbase⟩ := htaken
      obtain rfl : j = i := by
        obtain ⟨owner, howner, hbase⟩ := baseOf_eq_some.mp hbase
        rcases hchunk with hloaded | hown
        · exact absurd hbase ((h.loads b (List.mem_of_getElem? hb)).free chunk hloaded owner
            (List.mem_of_getElem? howner))
        · exact h.base_unique j i chunk (baseOf_eq_some.mpr ⟨owner, howner, hbase⟩)
            (baseOf_eq_some.mpr ⟨b, hb, hown⟩)
      exact ⟨targetOf d p bucket, .inl (target_mem_of_user (mem_users.mpr ⟨c, hc, hj⟩)),
        (mem_modulesOf_extract_target h hasync).mpr (.inr (mem_modules.mpr ⟨c, hc, hid⟩))⟩
    · have hm' := (mem_modulesOf_extract (p := p) htarget).mpr ⟨hm, htaken⟩
      exact ⟨chunk, hchunk.imp mem_loads_after fun hbase => base_after hbase htarget hm', hm'⟩

/-- The draft of a graph, between extractions. -/
structure Invariant (g : ModuleGraph) (d : Draft) : Prop where
  sound : Sound d
  boundaries : d.boundaries.map bare = Boundary.ofGraph g
  entry : ∀ b ∈ d.boundaries, b.initial = true →
    ∃ base, b.base = some base ∧ b.root ∈ d.modulesOf base
  base_subset : ∀ b ∈ d.boundaries, ∀ base, b.base = some base →
    ∀ m ∈ d.modulesOf base, m ∈ g.staticClosure b.root
  provides : ∀ (i : Nat) (modules : IdSet),
    (Boundary.members g (Boundary.ofGraph g))[i]? = some modules → ∀ m ∈ modules, Provides d i m

theorem Invariant.bare_mem (h : Invariant g d) {b : Boundary} (hb : b ∈ d.boundaries) :
    bare b ∈ Boundary.ofGraph g :=
  h.boundaries ▸ List.mem_map_of_mem hb

theorem Invariant.bare_eq {d' : Draft} (h : Invariant g d) (h' : Invariant g d') {b b' : Boundary}
    (hb : d.boundaries[i]? = some b) (hb' : d'.boundaries[i]? = some b') : bare b = bare b' := by
  have heq : (d.boundaries.map bare)[i]? = (d'.boundaries.map bare)[i]? := by
    rw [h.boundaries, h'.boundaries]
  rw [List.getElem?_map, List.getElem?_map, hb, hb'] at heq
  exact Option.some.inj heq

theorem Invariant.isEntry_root (h : Invariant g d) {b : Boundary} (hb : b ∈ d.boundaries)
    (hinitial : b.initial = true) : g.isEntry b.root = true :=
  isEntry_of_mem_ofGraph (b := bare b) (h.bare_mem hb) hinitial

theorem Invariant.reusesAsync (h : Invariant g d)
    (hbucket : ∀ c ∈ bucket, g.isEntry c.id = false) : ReusesAsync d bucket := by
  intro b hb base hbase hmodules
  by_contra hinitial
  have hinitial : b.initial = true := by simpa using hinitial
  obtain ⟨base', hbase', hroot⟩ := h.entry b hb hinitial
  obtain rfl : base = base' := Option.some.inj (hbase.symm.trans hbase')
  rw [hmodules] at hroot
  obtain ⟨c, hc, hid⟩ := mem_modules.mp hroot
  have := hbucket c hc
  rw [hid, h.isEntry_root hb hinitial] at this
  exact Bool.noConfusion this

theorem Invariant.exists_old (h : Invariant g d) (hbucket : ∀ c ∈ bucket, g.isEntry c.id = false)
    {b' : Boundary} (hb' : b' ∈ (d.extract p bucket).boundaries) :
    ∃ i b, d.boundaries[i]? = some b ∧ b' = after d p bucket i b := by
  obtain ⟨i, hi⟩ := List.mem_iff_getElem?.mp hb'
  rw [getElem?_extract h.sound (h.reusesAsync hbucket), Option.map_eq_some_iff] at hi
  obtain ⟨b, hi, rfl⟩ := hi
  exact ⟨i, b, hi, rfl⟩

/-- An extraction of modules that are no entries keeps the invariant. -/
theorem invariant_extract (h : Invariant g d) (hbucket : ∀ c ∈ bucket, g.isEntry c.id = false) :
    Invariant g (d.extract p bucket) := by
  have hasync := h.reusesAsync hbucket
  refine ⟨sound_extract h.sound hasync, ?_, ?_, ?_, ?_⟩
  · rw [← h.boundaries]
    apply List.ext_getElem?
    intro i
    rw [List.getElem?_map, List.getElem?_map, getElem?_extract h.sound hasync, Option.map_map]
    congr 1
    funext b
    exact bare_after b
  · intro b' hb' hinitial
    obtain ⟨i, b, hi, rfl⟩ := h.exists_old hbucket hb'
    have hb := List.mem_of_getElem? hi
    rw [initial_after] at hinitial
    obtain ⟨base, hbase, hroot⟩ := h.entry b hb hinitial
    have hne : base ≠ targetOf d p bucket := fun heq =>
      base_ne_target h.sound hasync hb hinitial (heq ▸ hbase)
    have hroot' : b.root ∈ (d.extract p bucket).modulesOf base := by
      refine (mem_modulesOf_extract hne).mpr ⟨hroot, ?_⟩
      rintro ⟨c, hc, hid, -⟩
      have := hbucket c hc
      rw [hid, h.isEntry_root hb hinitial] at this
      exact Bool.noConfusion this
    refine ⟨base, base_after hbase hne hroot', ?_⟩
    rw [root_after]
    exact hroot'
  · intro b' hb' base hbase m hm
    obtain ⟨i, b, hi, rfl⟩ := h.exists_old hbucket hb'
    obtain ⟨hbase, hne⟩ := base_of_after hbase
    rw [root_after]
    exact h.base_subset b (List.mem_of_getElem? hi) base hbase m
      ((mem_modulesOf_extract hne).mp hm).1
  · intro i modules hmodules m hm
    exact provides_extract h.sound hasync (h.provides i modules hmodules m hm)

end WebBundle.Proofs.ExtractionInvariant
