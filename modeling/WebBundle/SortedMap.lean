namespace WebBundle

/-- A finite map from texts. -/
structure SortedMap (α : Type) where
  entries : List (String × α)
  ascending : entries.Pairwise fun a b => a.1 < b.1

namespace SortedMap

variable {α β : Type}

theorem ext {m n : SortedMap α} (h : m.entries = n.entries) : m = n := by
  cases m
  cases n
  simp_all

instance [DecidableEq α] : DecidableEq (SortedMap α) := fun m n =>
  if h : m.entries = n.entries then isTrue (ext h) else isFalse fun e => h (by rw [e])

def empty : SortedMap α := ⟨[], .nil⟩

instance : EmptyCollection (SortedMap α) := ⟨empty⟩

instance : Inhabited (SortedMap α) := ⟨empty⟩

/-- Puts an entry in its place among entries with ascending keys. -/
def insertEntry (key : String) (value : α) : List (String × α) → List (String × α)
  | [] => [(key, value)]
  | first :: rest =>
    if key < first.1 then (key, value) :: first :: rest
    else if key = first.1 then (key, value) :: rest
    else first :: insertEntry key value rest

theorem key_of_mem_insertEntry {key : String} {value : α} {e : String × α} :
    ∀ {entries : List (String × α)}, e ∈ insertEntry key value entries →
      e = (key, value) ∨ e ∈ entries := by
  intro entries
  induction entries with
  | nil => simp [insertEntry]
  | cons first rest ih =>
    unfold insertEntry
    split
    · simp
    · split
      · simp only [List.mem_cons]
        rintro (h | h)
        · exact .inl h
        · exact .inr (.inr h)
      · simp only [List.mem_cons]
        rintro (h | h)
        · exact .inr (.inl h)
        · exact (ih h).imp_right .inr

theorem pairwise_insertEntry (key : String) (value : α) {entries : List (String × α)}
    (h : entries.Pairwise fun a b => a.1 < b.1) :
    (insertEntry key value entries).Pairwise fun a b => a.1 < b.1 := by
  induction entries with
  | nil => simp [insertEntry]
  | cons first rest ih =>
    obtain ⟨hfirst, hrest⟩ := List.pairwise_cons.1 h
    unfold insertEntry
    split
    · next hlt =>
      refine List.pairwise_cons.2 ⟨fun e he => ?_, h⟩
      rcases List.mem_cons.1 he with rfl | he
      · exact hlt
      · exact String.lt_trans hlt (hfirst e he)
    · next hge =>
      split
      · next heq =>
        exact List.pairwise_cons.2 ⟨fun e he => by simpa [heq] using hfirst e he, hrest⟩
      · next hne =>
        refine List.pairwise_cons.2 ⟨fun e he => ?_, ih hrest⟩
        rcases key_of_mem_insertEntry he with rfl | he
        · rcases String.le_total first.1 key with hle | hle
          · by_cases hlt : first.1 < key
            · exact hlt
            · exact absurd (String.le_antisymm (String.not_lt.1 hlt) hle) hne
          · exact absurd (String.le_antisymm hle (String.not_lt.1 hge)) hne
        · exact hfirst e he

/-- The map with one entry added, in the place of one with the same key. -/
def insert (m : SortedMap α) (key : String) (value : α) : SortedMap α :=
  ⟨insertEntry key value m.entries, pairwise_insertEntry key value m.ascending⟩

/-- The map without the entries that fail a test. -/
def filter (m : SortedMap α) (p : String → α → Bool) : SortedMap α :=
  ⟨m.entries.filter fun e => p e.1 e.2, m.ascending.filter _⟩

def erase (m : SortedMap α) (key : String) : SortedMap α := m.filter fun k _ => k != key

def get? (m : SortedMap α) (key : String) : Option α :=
  (m.entries.find? fun e => e.1 == key).map (·.2)

def contains (m : SortedMap α) (key : String) : Bool := m.entries.any fun e => e.1 == key

def keys (m : SortedMap α) : List String := m.entries.map (·.1)

def size (m : SortedMap α) : Nat := m.entries.length

def isEmpty (m : SortedMap α) : Bool := m.entries.isEmpty

/-- The map of some entries; of entries with one key the last counts. -/
def ofList (entries : List (String × α)) : SortedMap α :=
  entries.foldl (fun m e => m.insert e.1 e.2) empty

def map (f : String → α → β) (m : SortedMap α) : SortedMap β :=
  ⟨m.entries.map fun e => (e.1, f e.1 e.2), m.ascending.map _ fun _ _ h => h⟩

theorem find?_insertEntry (key : String) (value : α) (k : String) (entries : List (String × α)) :
    (insertEntry key value entries).find? (fun e => e.1 == k) =
      if key = k then some (key, value) else entries.find? fun e => e.1 == k := by
  induction entries with
  | nil => by_cases h : key = k <;> simp [insertEntry, h]
  | cons first rest ih =>
    unfold insertEntry
    split
    · by_cases h : key = k <;> simp [h]
    · split
      · next heq =>
        by_cases h : key = k
        · simp [h]
        · have hfirst : ¬ first.1 = k := heq ▸ h
          simp [h, hfirst]
      · next hne =>
        by_cases hfirst : first.1 = k
        · have h : ¬ key = k := fun e => hne (e.trans hfirst.symm)
          simp [h, hfirst]
        · simpa [hfirst] using ih

theorem get?_insert (m : SortedMap α) (key : String) (value : α) (k : String) :
    (m.insert key value).get? k = if key = k then some value else m.get? k := by
  by_cases h : key = k <;> simp [get?, insert, find?_insertEntry, h]

theorem get?_filter_key (m : SortedMap α) (p : String → Bool) (k : String) :
    (m.filter fun key _ => p key).get? k = if p k then m.get? k else none := by
  simp only [get?, filter]
  induction m.entries with
  | nil => simp
  | cons first rest ih =>
    by_cases hp : p first.1
    · by_cases hk : first.1 = k
      · subst hk
        simp [hp]
      · simpa [hp, hk] using ih
    · by_cases hk : first.1 = k
      · subst hk
        simpa [hp] using ih
      · simpa [hp, hk] using ih

theorem get?_erase (m : SortedMap α) (key k : String) :
    (m.erase key).get? k = if k = key then none else m.get? k := by
  simp only [erase, get?_filter_key]
  by_cases h : k = key <;> simp [h]

theorem mem_iff_find? {entries : List (String × α)}
    (h : entries.Pairwise fun a b => a.1 < b.1) {key : String} {value : α} :
    (key, value) ∈ entries ↔ entries.find? (fun e => e.1 == key) = some (key, value) := by
  induction entries with
  | nil => simp
  | cons first rest ih =>
    obtain ⟨hfirst, hrest⟩ := List.pairwise_cons.1 h
    by_cases hk : first.1 = key
    · have hrest' : (key, value) ∉ rest := fun he =>
        String.lt_irrefl key (by simpa [hk] using hfirst _ he)
      simp only [List.mem_cons, hrest', or_false, hk, BEq.rfl, List.find?_cons_of_pos,
        Option.some.injEq]
      exact eq_comm
    · have hne : ¬ (key, value) = first := fun e => hk (by rw [← e])
      simpa [hk, hne] using ih hrest

theorem mem_entries (m : SortedMap α) {key : String} {value : α} :
    (key, value) ∈ m.entries ↔ m.get? key = some value := by
  rw [mem_iff_find? m.ascending, get?]
  constructor
  · intro h
    simp [h]
  · intro h
    obtain ⟨⟨k, v⟩, hfind, rfl⟩ := Option.map_eq_some_iff.1 h
    have hk : k = key := by simpa using List.find?_some hfind
    rw [hfind, hk]

theorem nodup_entries (m : SortedMap α) : m.entries.Nodup := by
  apply m.ascending.imp
  intro a b hlt heq
  subst heq
  exact String.lt_irrefl _ hlt

/-- A map is told by its answers. -/
theorem ext_get? {m n : SortedMap α} (h : ∀ key, m.get? key = n.get? key) : m = n := by
  have hmem : ∀ e, e ∈ m.entries ↔ e ∈ n.entries := by
    intro ⟨key, value⟩
    rw [mem_entries, mem_entries, h]
  have hperm : m.entries.Perm n.entries :=
    (List.perm_ext_iff_of_nodup m.nodup_entries n.nodup_entries).mpr hmem
  apply ext
  apply hperm.eq_of_pairwise _ m.ascending n.ascending
  intro a b _ _ hlt hlt'
  exact absurd hlt' (String.lt_asymm hlt)

theorem mem_keys_iff {m : SortedMap α} {key : String} : key ∈ m.keys ↔ ∃ value, m.get? key = some value := by
  simp [keys, mem_entries]

theorem mem_keys_insert {m : SortedMap α} {key k : String} {value : α} :
    key ∈ (m.insert k value).keys ↔ key = k ∨ key ∈ m.keys := by
  simp only [mem_keys_iff, get?_insert]
  by_cases h : k = key
  · simp [h]
  · simp [h, Ne.symm h]

theorem mem_keys_ofList {entries : List (String × α)} {key : String} :
    key ∈ (ofList entries).keys ↔ key ∈ entries.map (·.1) := by
  suffices h : ∀ m : SortedMap α, key ∈ (entries.foldl (fun m e => m.insert e.1 e.2) m).keys ↔
      key ∈ entries.map (·.1) ∨ key ∈ m.keys by
    simpa [ofList, empty, keys] using h empty
  induction entries with
  | nil => simp
  | cons entry rest ih =>
    intro m
    rw [List.foldl_cons, ih, mem_keys_insert, List.map_cons, List.mem_cons, or_left_comm, or_assoc]

theorem pairwise_keys (m : SortedMap α) : m.keys.Pairwise (· < ·) := List.pairwise_map.2 m.ascending

end SortedMap

end WebBundle
