import WebBundle.Proofs.LoadList

namespace WebBundle.Proofs.Extraction

open WebBundle.Proofs.LoadList

variable {d : Draft} {p : Policy} {users modules : IdSet} {bucket : Bucket} {t : Nat}

theorem mem_modules {m : ModuleId} : m ∈ bucket.modules ↔ ∃ c ∈ bucket, c.id = m := by
  simp [Bucket.modules, IdSet.mem_ofList]

theorem mem_users {b : Nat} : b ∈ bucket.users ↔ ∃ c ∈ bucket, b ∈ c.users := by
  simp [Bucket.users, IdSet.mem_ofList, IdSet.mem_toList]

theorem mem_takenFrom {i : Nat} {m : ModuleId} :
    m ∈ bucket.takenFrom i ↔ ∃ c ∈ bucket, c.id = m ∧ i ∈ c.users := by
  simp only [Bucket.takenFrom, List.mem_map, List.mem_filter, IdSet.contains_iff]
  constructor
  · rintro ⟨c, ⟨hc, hi⟩, hid⟩
    exact ⟨c, hc, hid, hi⟩
  · rintro ⟨c, hc, hid, hi⟩
    exact ⟨c, ⟨hc, hi⟩, hid⟩

theorem modulesOf_of_getElem? {chunk : Nat} {c : DraftChunk} (h : d.chunks[chunk]? = some c) :
    d.modulesOf chunk = c.modules := by
  simp [Draft.modulesOf, h]

theorem exists_chunk_of_mem {chunk : Nat} {m : ModuleId} (h : m ∈ d.modulesOf chunk) :
    ∃ c, d.chunks[chunk]? = some c ∧ m ∈ c.modules := by
  cases hc : d.chunks[chunk]? with
  | none =>
      simp only [Draft.modulesOf, hc] at h
      exact absurd h (IdSet.not_mem_empty m)
  | some c => exact ⟨c, rfl, modulesOf_of_getElem? hc ▸ h⟩

theorem baseOf_eq_some {i chunk : Nat} :
    d.baseOf i = some chunk ↔ ∃ b, d.boundaries[i]? = some b ∧ b.base = some chunk := by
  rw [Draft.baseOf, Option.bind_eq_some_iff]

theorem mem_basesOf {chunk : Nat} :
    chunk ∈ d.basesOf users ↔ ∃ i ∈ users, d.baseOf i = some chunk := by
  simp only [Draft.basesOf, IdSet.mem_ofList, List.mem_filterMap, Prod.exists,
    List.mem_zipIdx_iff_getElem?, baseOf_eq_some]
  constructor
  · rintro ⟨b, i, hb, hbase⟩
    split at hbase
    · next hi => exact ⟨i, IdSet.contains_iff.mp hi, b, hb, hbase⟩
    · simp at hbase
  · rintro ⟨i, hi, b, hb, hbase⟩
    exact ⟨b, i, hb, by rw [if_pos (IdSet.contains_iff.mpr hi), hbase]⟩

/-- How the chunk that takes the modules of an extraction is found. -/
inductive TargetCase (d : Draft) (p : Policy) (users modules : IdSet) : Draft × Nat → Prop
  /-- The base chunk of a user has just these modules. -/
  | reused {i base : Nat} : p.reuse = true → i ∈ users → d.baseOf i = some base →
      d.modulesOf base = modules → TargetCase d p users modules (d, base)
  /-- The policy has a name, and a chunk of that name was split off before. -/
  | extended {chunk : Nat} {c : DraftChunk} {policy : String} : p.name = some c.name →
      d.chunks[chunk]? = some c → c.origin = .split policy →
      TargetCase d p users modules (d, chunk)
  /-- There is no such chunk yet. -/
  | added : TargetCase d p users modules (d.addChunk p users)

theorem reusable?_eq_some {base : Nat} (h : d.reusable? users modules = some base) :
    (∃ i ∈ users, d.baseOf i = some base) ∧ d.modulesOf base = modules := by
  have hmem := List.mem_of_find?_eq_some h
  simp only [List.mem_filterMap, IdSet.mem_toList] at hmem
  exact ⟨hmem, by simpa using List.find?_some h⟩

theorem extracted?_eq_some {name : String} {chunk : Nat} (h : d.extracted? name = some chunk) :
    ∃ c policy, d.chunks[chunk]? = some c ∧ c.name = name ∧ c.origin = .split policy := by
  obtain ⟨hlt, hc, -⟩ := List.findIdx?_eq_some_iff_getElem.mp h
  rw [Bool.and_eq_true] at hc
  obtain ⟨hname, horigin⟩ := hc
  generalize hchunk : d.chunks[chunk] = c at hname horigin
  refine ⟨c, ?_⟩
  split at horigin
  · next policy hpolicy =>
      exact ⟨policy, hchunk ▸ List.getElem?_eq_getElem hlt, by simpa using hname, hpolicy⟩
  · simp at horigin

theorem target_cases (d : Draft) (p : Policy) (users modules : IdSet) :
    TargetCase d p users modules (d.target p users modules) := by
  simp only [Draft.target]
  split
  · next base hreused =>
      split at hreused
      · next hreuse =>
          obtain ⟨⟨i, hi, hbase⟩, hmodules⟩ := reusable?_eq_some hreused
          exact .reused hreuse hi hbase hmodules
      · simp at hreused
  · split
    · next chunk hextracted =>
        obtain ⟨name, hname, hextracted⟩ := Option.bind_eq_some_iff.mp hextracted
        obtain ⟨c, policy, hc, rfl, horigin⟩ := extracted?_eq_some hextracted
        exact .extended hname hc horigin
    · exact .added

theorem chunks_addChunk (d : Draft) (p : Policy) (users : IdSet) :
    ∃ c, (d.addChunk p users).1.chunks = d.chunks ++ [c] ∧ c.origin = .split p.key ∧
      c.modules = ∅ ∧ c.dependencies = [] :=
  ⟨_, rfl, rfl, rfl, rfl⟩

theorem boundaries_addChunk : (d.addChunk p users).1.boundaries = d.boundaries := rfl

theorem modulesOf_addChunk (chunk : Nat) :
    (d.addChunk p users).1.modulesOf chunk = d.modulesOf chunk := by
  obtain ⟨c, hc, -, hmodules, -⟩ := chunks_addChunk d p users
  simp only [Draft.modulesOf, hc, List.getElem?_append]
  split
  · rfl
  · next hge =>
      rw [List.getElem?_eq_none (Nat.le_of_not_lt hge)]
      cases chunk - d.chunks.length with
      | zero => exact hmodules
      | succ n => rfl

theorem boundaries_moveModules : (d.moveModules bucket t).boundaries = d.boundaries := rfl

theorem getElem?_moveModules (chunk : Nat) :
    (d.moveModules bucket t).chunks[chunk]? = d.chunks[chunk]?.map fun c =>
      if chunk = t then { c with modules := c.modules.union bucket.modules }
      else
        { c with modules := c.modules.diff (Draft.takenFromChunk (d.homesOf bucket) chunk) } := by
  simp [Draft.moveModules]

theorem mem_takenFromChunk {chunk : Nat} {m : ModuleId} :
    m ∈ Draft.takenFromChunk (d.homesOf bucket) chunk ↔
      ∃ c ∈ bucket, c.id = m ∧ ∃ i ∈ c.users, d.baseOf i = some chunk := by
  simp only [Draft.takenFromChunk, Draft.homesOf, IdSet.mem_ofList, List.mem_map, List.mem_filter,
    IdSet.contains_iff]
  constructor
  · rintro ⟨home, ⟨⟨c, hc, rfl⟩, hchunk⟩, rfl⟩
    exact ⟨c, hc, rfl, mem_basesOf.mp hchunk⟩
  · rintro ⟨c, hc, rfl, hi⟩
    exact ⟨(c.id, d.basesOf c.users), ⟨⟨c, hc, rfl⟩, mem_basesOf.mpr hi⟩, rfl⟩

theorem mem_modulesOf_target {m : ModuleId} (ht : t < d.chunks.length) :
    m ∈ (d.moveModules bucket t).modulesOf t ↔ m ∈ d.modulesOf t ∨ m ∈ bucket.modules := by
  simp [Draft.modulesOf, getElem?_moveModules, List.getElem?_eq_getElem ht, IdSet.mem_union]

theorem mem_modulesOf_other {chunk : Nat} {m : ModuleId} (hne : chunk ≠ t) :
    m ∈ (d.moveModules bucket t).modulesOf chunk ↔
      m ∈ d.modulesOf chunk ∧
        ¬ ∃ c ∈ bucket, c.id = m ∧ ∃ i ∈ c.users, d.baseOf i = some chunk := by
  rw [← mem_takenFromChunk]
  simp only [Draft.modulesOf, getElem?_moveModules]
  cases d.chunks[chunk]? with
  | none => exact iff_of_false (IdSet.not_mem_empty m) fun h => IdSet.not_mem_empty m h.1
  | some c => simp [hne, IdSet.mem_diff]

/-- A boundary once a chunk is no base chunk: the boundary whose base it was loads it like
others. -/
def released (t : Nat) (b : Boundary) : Boundary :=
  if b.base = some t then { b with base := none, loads := b.loads ++ [t] } else b

theorem releaseBase_of_free (h : ∀ b ∈ d.boundaries, b.base ≠ some t) : d.releaseBase t = d := by
  have hnone : d.boundaries.find? (fun b => b.base == some t) = none :=
    List.find?_eq_none.mpr fun b hb => by simpa using h b hb
  simp only [Draft.releaseBase, hnone]

theorem releaseBase_of_base {i : Nat} (h : d.baseOf i = some t) :
    ∃ owner ∈ d.boundaries, owner.base = some t ∧
      d.releaseBase t =
        { d with chunks := d.chunks.modify t fun c => { c with dependencies := owner.loads }
                 boundaries := d.boundaries.map (released t) } := by
  obtain ⟨b, hb, hbase⟩ := baseOf_eq_some.mp h
  cases howner : d.boundaries.find? (fun b => b.base == some t) with
  | none =>
      have := List.find?_eq_none.mp howner b (List.mem_of_getElem? hb)
      simp [hbase] at this
  | some owner =>
      refine ⟨owner, List.mem_of_find?_eq_some howner, by simpa using List.find?_some howner, ?_⟩
      simp only [Draft.releaseBase, howner]
      rfl

theorem modulesOf_modify_dependencies {loads : List Nat} (chunk : Nat) :
    Draft.modulesOf { d with
      chunks := d.chunks.modify t fun c => { c with dependencies := loads } } chunk =
        d.modulesOf chunk := by
  simp only [Draft.modulesOf, List.getElem?_modify]
  cases d.chunks[chunk]? with
  | none => rfl
  | some c => by_cases h : t = chunk <;> simp [h]

theorem modulesOf_releaseBase (chunk : Nat) :
    (d.releaseBase t).modulesOf chunk = d.modulesOf chunk := by
  simp only [Draft.releaseBase]
  split
  · rfl
  · exact modulesOf_modify_dependencies chunk

theorem needsOf_modify {chunks : List DraftChunk} {loads : List Nat} (ht : t < chunks.length)
    (chunk : Nat) :
    needsOf (chunks.modify t fun c => { c with dependencies := loads }) chunk =
      if chunk = t then loads else needsOf chunks chunk := by
  simp only [needsOf, List.getElem?_modify]
  by_cases h : chunk = t
  · subst h
    simp [List.getElem?_eq_getElem ht]
  · simp [h, Ne.symm h]

theorem chunks_load : (d.load users t).chunks = d.chunks := rfl

theorem getElem?_load (i : Nat) :
    (d.load users t).boundaries[i]? = d.boundaries[i]?.map fun b =>
      if i ∈ users then
        { b with loads := Draft.addLoad d.chunks b.base d.chunks.length b.loads t }
      else b := by
  simp [Draft.load, IdSet.contains_iff]

theorem chunks_dropEmptyBases : (d.dropEmptyBases users).chunks = d.chunks := rfl

/-- A boundary without its base chunk if that was emptied. -/
def dropped (d : Draft) (users : IdSet) (i : Nat) (b : Boundary) : Boundary :=
  if users.contains i && b.base.any fun base => (d.modulesOf base).isEmpty then
    { b with base := none }
  else b

theorem getElem?_dropEmptyBases (i : Nat) :
    (d.dropEmptyBases users).boundaries[i]? = d.boundaries[i]?.map (dropped d users i) := by
  simp only [Draft.dropEmptyBases, List.getElem?_mapIdx]
  rfl

theorem loads_dropped (i : Nat) (b : Boundary) : (dropped d users i b).loads = b.loads := by
  rw [dropped]
  split <;> rfl

theorem base_of_dropped {i : Nat} {b : Boundary} {base : Nat}
    (h : (dropped d users i b).base = some base) : b.base = some base := by
  rw [dropped] at h
  split at h
  · simp at h
  · exact h

end WebBundle.Proofs.Extraction
