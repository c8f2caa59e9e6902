import WebBundle.Config.Writer
import WebBundle.Proofs.JsonTexts
import WebBundle.Proofs.ReadOptions

namespace WebBundle

namespace Config

def clearedOutput (o : OutputOptions) : OutputOptions := { o with unclaimed := ∅ }

def clearedRule (o : RuleOptions) : RuleOptions := { o with unclaimed := ∅ }

def clearedModule (o : ModuleOptions) : ModuleOptions :=
  { o with rules := o.rules.map clearedRule, unclaimed := ∅ }

def clearedResolve (o : ResolveOptions) : ResolveOptions := { o with unclaimed := ∅ }

def clearedGroup (o : CacheGroup) : CacheGroup := { o with unclaimed := ∅ }

def clearedSplit (o : SplitOptions) : SplitOptions :=
  { o with cacheGroups := o.cacheGroups.map clearedGroup, unclaimed := ∅ }

def clearedOptimization (o : OptimizationOptions) : OptimizationOptions :=
  { o with splitChunks := clearedSplit o.splitChunks, unclaimed := ∅ }

def clearedAsset (o : AssetOptions) : AssetOptions := { o with unclaimed := ∅ }

/-- A configuration with every map of unclaimed keys emptied. -/
def cleared (c : Config) : Config :=
  { c with
    output := clearedOutput c.output
    module := clearedModule c.module
    resolve := clearedResolve c.resolve
    optimization := clearedOptimization c.optimization
    asset := clearedAsset c.asset
    unclaimed := ∅ }

end Config

namespace Proofs.WrittenOptions

open Config JsonTexts ReadOptions

variable {α : Type} {read : Json → Option α} {write : α → Json} {f : α → α} {depth : Nat}
  {v : Json}

/-- What is written can be stored, and is read again as something else or the same. -/
structure Rereads (read : Json → Option α) (write : α → Json) (depth : Nat) (x y : α) : Prop where
  storable : Storable depth (write x)
  reads : read (write x) = some y

theorem bind_of {β : Type} {x : Option α} {next : α → Option β} {a : α} {b : β} (hx : x = some a)
    (hnext : next a = some b) : x >>= next = some b := by
  rw [hx]
  exact hnext

theorem option_of_only {fields : Fields} {names : List String} {usual x : α}
    {field : String × Json} (honly : fields.filter (fun f => names.contains f.1) = [field])
    (hread : read field.2 = some x) : option fields names read usual = some x := by
  rw [option, honly]
  exact hread

@[simp] theorem storable_null : Storable depth .null := by simp [Storable]

@[simp] theorem storable_bool (b : Bool) : Storable depth (.bool b) := by simp [Storable]

@[simp] theorem storable_string (text : String) : Storable depth (.string text) := by
  simp [Storable]

@[simp] theorem storable_path (path : Path) : Storable depth (writePath path) :=
  storable_string path.text

@[simp] theorem storable_object {fields : Fields} :
    Storable (depth + 1) (.object fields) ↔ StorableFields depth fields := by rw [Storable]

theorem rereads_string (depth : Nat) (text : String) : Rereads readString .string depth text text :=
  ⟨storable_string text, rfl⟩

theorem rereads_path (depth : Nat) (path : Path) : Rereads readPath writePath depth path path :=
  ⟨storable_string path.text, rfl⟩

theorem rereads_nat (depth : Nat) {n : Nat} (h : readNat v = some n) :
    Rereads readNat writeNat depth n n := by
  cases v with
  | integer m =>
      rw [readNat] at h
      split at h
      · next hm =>
          obtain rfl : m.toNat = n := Option.some.inj h
          simp only [Bool.and_eq_true, decide_eq_true_eq] at hm
          constructor
          · rw [writeNat, Storable, Fits]
            omega
          · rw [writeNat, readNat, Int.toNat_of_nonneg hm.1, if_pos (by simpa using hm)]
      · contradiction
  | _ => contradiction

theorem rereads_priority (depth : Nat) {n : Int} (h : readPriority v = some n) :
    Rereads readPriority .integer depth n n := by
  cases v with
  | integer m =>
      rw [readPriority] at h
      split at h
      · next hm =>
          obtain rfl : m = n := Option.some.inj h
          constructor
          · simp only [Bool.and_eq_true, decide_eq_true_eq] at hm
            rw [Storable, Fits]
            omega
          · rw [readPriority, if_pos hm]
      · contradiction
  | _ => contradiction

theorem rereads_mode (depth : Nat) (m : Mode) : Rereads readMode Mode.toJson depth m m :=
  ⟨storable_string m.name, by cases m <;> rfl⟩

theorem rereads_type (depth : Nat) (t : ResourceType) :
    Rereads readResourceType ResourceType.toJson depth t t :=
  ⟨storable_string t.name, by cases t <;> rfl⟩

theorem rereads_selection (depth : Nat) (s : ChunkSelection) :
    Rereads readSelection ChunkSelection.toJson depth s s :=
  ⟨storable_string s.name, by cases s <;> rfl⟩

theorem rereads_optional {x : Option α} (hnull : ∀ a, write a ≠ .null)
    (h : ∀ a, x = some a → Rereads read write depth a a) :
    Rereads (readOptional read) (writeOptional write) depth x x := by
  cases x with
  | none => exact ⟨storable_null, rfl⟩
  | some a =>
      obtain ⟨hstorable, hread⟩ := h a rfl
      refine ⟨hstorable, ?_⟩
      rw [writeOptional, readOptional, hread, Option.map_some]
      exact hnull a

theorem rereads_optionalNat (depth : Nat) {fields : Fields} {names : List String} {x : Option Nat}
    (h : option fields names (readOptional readNat) none = some x) :
    Rereads (readOptional readNat) (writeOptional writeNat) depth x x := by
  refine rereads_optional (by simp [writeNat]) ?_
  refine option_induction
    (P := fun x => ∀ n, x = some n → Rereads readNat writeNat depth n n) h ?_ (by simp)
  rintro value hvalue n rfl
  exact rereads_nat depth (read_of_readOptional hvalue)

theorem rereads_optionalString (depth : Nat) (x : Option String) :
    Rereads (readOptional readString) (writeOptional .string) depth x x :=
  rereads_optional (by simp) fun text _ => rereads_string depth text

theorem rereads_optionalType (depth : Nat) (x : Option ResourceType) :
    Rereads (readOptional readResourceType) (writeOptional ResourceType.toJson) depth x x :=
  rereads_optional (by simp [ResourceType.toJson]) fun t _ => rereads_type depth t

theorem rereads_items {xs : List α} (h : ∀ a ∈ xs, Rereads read write depth a (f a)) :
    StorableItems depth (xs.map write) ∧ readItems read (xs.map write) = some (xs.map f) := by
  induction xs with
  | nil => exact ⟨by simp [StorableItems], rfl⟩
  | cons x xs ih =>
      obtain ⟨⟨hstorable, hread⟩, hrest⟩ := List.forall_mem_cons.mp h
      obtain ⟨hstorables, hreads⟩ := ih hrest
      constructor
      · rw [List.map_cons, StorableItems]
        exact ⟨hstorable, hstorables⟩
      · rw [List.map_cons, readItems, hread, hreads]
        rfl

theorem rereads_list {xs : List α} (h : ∀ a ∈ xs, Rereads read write depth a (f a)) :
    Rereads (readList read) (fun xs => .array (xs.map write)) (depth + 1) xs (xs.map f) := by
  obtain ⟨hstorable, hread⟩ := rereads_items h
  exact ⟨by rwa [Storable], hread⟩

theorem rereads_list_self {l : List α} (h : ∀ a ∈ l, Rereads read write depth a a) :
    Rereads (readList read) (fun xs => .array (xs.map write)) (depth + 1) l l := by
  have hlist := rereads_list (f := id) h
  rwa [List.map_id] at hlist

theorem insertEntry_last {key : String} {x : α} {entries : List (String × α)}
    (h : ∀ e ∈ entries, e.1 < key) :
    SortedMap.insertEntry key x entries = entries ++ [(key, x)] := by
  induction entries with
  | nil => rfl
  | cons first rest ih =>
      obtain ⟨hfirst, hrest⟩ := List.forall_mem_cons.mp h
      have hlt : ¬ key < first.1 := fun hlt => String.lt_irrefl _ (String.lt_trans hlt hfirst)
      have hne : key ≠ first.1 := by
        rintro rfl
        exact String.lt_irrefl _ hfirst
      rw [SortedMap.insertEntry, if_neg hlt, if_neg hne, ih hrest, List.cons_append]

theorem ofList_entries (m : SortedMap α) : SortedMap.ofList m.entries = m := by
  suffices h : ∀ (entries : List (String × α)) (done : SortedMap α),
      (done.entries ++ entries).Pairwise (fun a b => a.1 < b.1) →
        (entries.foldl (fun m e => m.insert e.1 e.2) done).entries = done.entries ++ entries from
    SortedMap.ext (h m.entries .empty m.ascending)
  intro entries
  induction entries with
  | nil => intro done _; simp
  | cons entry rest ih =>
      intro done h
      have hlast : (done.insert entry.1 entry.2).entries = done.entries ++ [entry] :=
        insertEntry_last fun e he => (List.pairwise_append.mp h).2.2 e he entry List.mem_cons_self
      rw [List.foldl_cons, ih, hlast, List.append_assoc, List.singleton_append]
      rwa [hlast, List.append_assoc, List.singleton_append]

theorem rereads_values {entries : List (String × α)}
    (h : ∀ e ∈ entries, Rereads read write depth e.2 e.2) :
    StorableFields depth (entries.map fun e => (e.1, write e.2)) ∧
      readValues read (entries.map fun e => (e.1, write e.2)) = some entries := by
  induction entries with
  | nil => exact ⟨by simp [StorableFields], rfl⟩
  | cons entry rest ih =>
      obtain ⟨⟨hstorable, hread⟩, hrest⟩ := List.forall_mem_cons.mp h
      obtain ⟨hstorables, hreads⟩ := ih hrest
      constructor
      · rw [List.map_cons, StorableFields]
        exact ⟨hstorable, hstorables⟩
      · rw [List.map_cons, readValues, hread, hreads]
        rfl

theorem rereads_map {m : SortedMap α} (h : ∀ e ∈ m.entries, Rereads read write depth e.2 e.2) :
    Rereads (readMap read) (writeMap write) (depth + 1) m m := by
  obtain ⟨hstorable, hread⟩ := rereads_values h
  refine ⟨by rwa [writeMap, Storable], ?_⟩
  rw [writeMap, readMap, hread, Option.map_some, ofList_entries]

theorem mem_of_mem_ofList {entries : List (String × α)} {e : String × α}
    (h : e ∈ (SortedMap.ofList entries).entries) : e ∈ entries := by
  suffices hfold : ∀ m : SortedMap α,
      e ∈ (entries.foldl (fun m e => m.insert e.1 e.2) m).entries → e ∈ m.entries ∨ e ∈ entries by
    exact (hfold .empty h).resolve_left List.not_mem_nil
  clear h
  induction entries with
  | nil => intro m h; exact .inl h
  | cons entry rest ih =>
      intro m h
      rcases ih _ h with h | h
      · rcases SortedMap.key_of_mem_insertEntry h with rfl | h
        · exact .inr List.mem_cons_self
        · exact .inl h
      · exact .inr (List.mem_cons_of_mem _ h)

theorem exists_of_mem_readValues {fields : Fields} {entries : List (String × α)}
    (h : readValues read fields = some entries) : ∀ e ∈ entries, ∃ value, read value = some e.2 := by
  induction fields generalizing entries with
  | nil =>
      obtain rfl : [] = entries := Option.some.inj h
      simp
  | cons field rest ih =>
      obtain ⟨x, hx, h⟩ := of_bind h
      obtain ⟨others, hothers, rfl⟩ := Option.map_eq_some_iff.mp h
      exact List.forall_mem_cons.mpr ⟨⟨field.2, hx⟩, ih hothers⟩

theorem exists_of_mem_readMap {m : SortedMap α} (h : readMap read v = some m) :
    ∀ e ∈ m.entries, ∃ value, read value = some e.2 := by
  cases v with
  | object fields =>
      obtain ⟨entries, hentries, rfl⟩ := Option.map_eq_some_iff.mp h
      exact fun e he => exists_of_mem_readValues hentries e (mem_of_mem_ofList he)
  | _ => contradiction

theorem exists_of_mem_readList {xs : List α} (h : readList read v = some xs) :
    ∀ x ∈ xs, ∃ item, read item = some x := by
  obtain ⟨items, -, hitems⟩ := readList_eq_some h
  clear h
  induction hitems with
  | nil => simp
  | cons hx _ ih => exact List.forall_mem_cons.mpr ⟨⟨_, hx⟩, ih⟩

theorem rereads_entry (depth : Nat) (entry : EntryOption) :
    Rereads readEntry EntryOption.toJson (depth + 1) entry entry := by
  cases entry with
  | single path => exact ⟨storable_string path, rfl⟩
  | named paths =>
      obtain ⟨hstorable, hread⟩ := rereads_map (m := paths) fun e _ => rereads_string depth e.2
      refine ⟨hstorable, ?_⟩
      rw [writeMap] at hread
      rw [EntryOption.toJson, writeMap, readEntry, hread, Option.map_some]
      simp

theorem rereads_transform (depth : Nat) (t : TransformRef) :
    Rereads readTransformRef TransformRef.toJson (depth + 1) t t := by
  cases t with
  | plain id => exact ⟨storable_string id, rfl⟩
  | detailed id optional =>
      constructor
      · simp [TransformRef.toJson, StorableFields]
      · rfl

theorem rereads_transforms (depth : Nat) (ts : List TransformRef) :
    Rereads readTransforms (fun ts => .array (ts.map TransformRef.toJson)) (depth + 2) ts ts := by
  obtain ⟨hstorable, hread⟩ := rereads_list_self (l := ts) fun t _ => rereads_transform depth t
  exact ⟨hstorable, hread⟩

theorem rereads_ignore (depth : Nat) (o : IgnoreOptions) :
    Rereads readIgnore IgnoreOptions.toJson (depth + 1) o o := by
  obtain ⟨resource, context⟩ := o
  have hcontext := rereads_optionalString depth context
  constructor
  · simp [IgnoreOptions.toJson, StorableFields, hcontext.storable]
  · cases context <;> rfl

theorem rereads_output (depth : Nat) (o : OutputOptions) :
    Rereads readOutput OutputOptions.toJson (depth + 1) o (clearedOutput o) := by
  have hfilename := rereads_optionalString depth o.filename
  have hmanifest := rereads_optionalString depth o.manifest
  constructor
  · simp [OutputOptions.toJson, StorableFields, hfilename.storable, hmanifest.storable]
  · rw [readOutput]
    refine bind_of rfl ?_
    refine bind_of (option_of_only rfl rfl) ?_
    refine bind_of (option_of_only rfl hfilename.reads) ?_
    refine bind_of (option_of_only rfl rfl) ?_
    refine bind_of (option_of_only rfl rfl) ?_
    refine bind_of (option_of_only rfl rfl) ?_
    refine bind_of (option_of_only rfl rfl) ?_
    refine bind_of (option_of_only rfl hmanifest.reads) ?_
    rfl

theorem rereads_rule (depth : Nat) {o : RuleOptions} (h : readRule v = some o) :
    Rereads readRule RuleOptions.toJson (depth + 3) o (clearedRule o) := by
  obtain ⟨fields, -, -, -, -, -, -, hthreshold, -⟩ := readRule_eq_some h
  have hthreshold := rereads_optionalNat (depth + 2) hthreshold
  have htransforms := rereads_transforms depth o.transforms
  have htype := rereads_optionalType (depth + 2) o.type
  have hkind := rereads_optionalString (depth + 2) o.assetKind
  constructor
  · simp [RuleOptions.toJson, StorableFields, hthreshold.storable, htransforms.storable,
      htype.storable, hkind.storable]
  · rw [readRule]
    refine bind_of rfl ?_
    refine bind_of (option_of_only rfl rfl) ?_
    refine bind_of (option_of_only rfl htransforms.reads) ?_
    refine bind_of (option_of_only rfl htype.reads) ?_
    refine bind_of (option_of_only rfl hkind.reads) ?_
    refine bind_of (option_of_only rfl rfl) ?_
    refine bind_of (option_of_only rfl hthreshold.reads) ?_
    rfl

theorem rereads_strings (depth : Nat) (texts : List String) :
    Rereads (readList readString) writeStrings (depth + 1) texts texts := by
  obtain ⟨hstorable, hread⟩ := rereads_list_self (l := texts) fun text _ => rereads_string depth text
  exact ⟨hstorable, hread⟩

theorem exists_of_mem_option {fields : Fields} {names : List String} {xs : List α}
    (h : option fields names (readList read) [] = some xs) :
    ∀ x ∈ xs, ∃ item, read item = some x :=
  option_induction (P := fun xs => ∀ x ∈ xs, ∃ item, read item = some x) h
    (fun _ => exists_of_mem_readList) (by simp)

theorem rereads_module (depth : Nat) {o : ModuleOptions} (h : readModule v = some o) :
    Rereads readModule ModuleOptions.toJson (depth + 5) o (clearedModule o) := by
  obtain ⟨fields, -, hrules, -, -, -⟩ := readModule_eq_some h
  have hrules : ∀ rule ∈ o.rules,
      Rereads readRule RuleOptions.toJson (depth + 3) rule (clearedRule rule) := by
    intro rule hrule
    obtain ⟨item, hitem⟩ := exists_of_mem_option hrules rule hrule
    exact rereads_rule depth hitem
  have hrules := rereads_list hrules
  have hnoParse := rereads_strings (depth + 3) o.noParse
  constructor
  · simp [ModuleOptions.toJson, StorableFields, hrules.storable, hnoParse.storable]
  · rw [readModule]
    refine bind_of rfl ?_
    refine bind_of (option_of_only rfl hrules.reads) ?_
    refine bind_of (option_of_only rfl hnoParse.reads) ?_
    refine bind_of (option_of_only rfl rfl) ?_
    rfl

theorem rereads_resolve (depth : Nat) (o : ResolveOptions) :
    Rereads readResolve ResolveOptions.toJson (depth + 3) o (clearedResolve o) := by
  have haliases := rereads_map (m := o.aliases) fun e _ => rereads_path (depth + 1) e.2
  have hextensions := rereads_strings (depth + 1) o.extensions
  have hpaths := rereads_list_self (l := o.modulePaths) fun path _ => rereads_path (depth + 1) path
  have hfields := rereads_strings (depth + 1) o.mainFields
  have hignore := rereads_list_self (l := o.ignore) fun rule _ => rereads_ignore depth rule
  constructor
  · simp [ResolveOptions.toJson, StorableFields, haliases.storable, hextensions.storable,
      hpaths.storable, hfields.storable, hignore.storable]
  · rw [readResolve]
    refine bind_of rfl ?_
    refine bind_of (option_of_only rfl haliases.reads) ?_
    refine bind_of (option_of_only rfl hextensions.reads) ?_
    refine bind_of (option_of_only rfl hpaths.reads) ?_
    refine bind_of (option_of_only rfl hfields.reads) ?_
    refine bind_of (option_of_only rfl hignore.reads) ?_
    rfl

theorem rereads_group (depth : Nat) {o : CacheGroup} (h : readGroup v = some o) :
    Rereads readGroup CacheGroup.toJson (depth + 1) o (clearedGroup o) := by
  obtain ⟨fields, -, -, -, -, -, -, hminChunks, hminSize, hasync, hinitial, hpriority, -⟩ :=
    readGroup_eq_some h
  have hminChunks := rereads_optionalNat depth hminChunks
  have hminSize := rereads_optionalNat depth hminSize
  have hasync := rereads_optionalNat depth hasync
  have hinitial := rereads_optionalNat depth hinitial
  have hpriority : Rereads readPriority .integer depth o.priority o.priority :=
    option_induction (P := fun n => Rereads readPriority .integer depth n n) hpriority
      (fun _ => rereads_priority depth) (rereads_priority depth (v := .integer 0) rfl)
  have hname := rereads_optionalString depth o.name
  have htest := rereads_optionalString depth o.test
  have htype := rereads_optionalType depth o.type
  have hchunks : Rereads (readOptional readSelection) (writeOptional ChunkSelection.toJson) depth
      o.chunks o.chunks :=
    rereads_optional (by simp [ChunkSelection.toJson]) fun s _ => rereads_selection depth s
  constructor
  · simp [CacheGroup.toJson, StorableFields, hminChunks.storable, hminSize.storable,
      hasync.storable, hinitial.storable, hpriority.storable, hname.storable, htest.storable,
      htype.storable, hchunks.storable]
  · rw [readGroup]
    refine bind_of rfl ?_
    refine bind_of (option_of_only rfl rfl) ?_
    refine bind_of (option_of_only rfl hname.reads) ?_
    refine bind_of (option_of_only rfl htest.reads) ?_
    refine bind_of (option_of_only rfl htype.reads) ?_
    refine bind_of (option_of_only rfl hchunks.reads) ?_
    refine bind_of (option_of_only rfl hminChunks.reads) ?_
    refine bind_of (option_of_only rfl hminSize.reads) ?_
    refine bind_of (option_of_only rfl hasync.reads) ?_
    refine bind_of (option_of_only rfl hinitial.reads) ?_
    refine bind_of (option_of_only rfl hpriority.reads) ?_
    refine bind_of (option_of_only rfl rfl) ?_
    refine bind_of (option_of_only rfl rfl) ?_
    rfl

theorem rereads_natOption (depth : Nat) {fields : Fields} {names : List String} {n default : Nat}
    (h : option fields names readNat default = some n)
    (hdefault : readNat (writeNat default) = some default) :
    Rereads readNat writeNat depth n n :=
  option_induction (P := fun n => Rereads readNat writeNat depth n n) h
    (fun _ => rereads_nat depth) (rereads_nat depth hdefault)

theorem rereads_split (depth : Nat) {o : SplitOptions} (h : readSplit v = some o) :
    Rereads readSplit SplitOptions.toJson (depth + 3) o (clearedSplit o) := by
  obtain ⟨fields, -, -, hminSize, hremaining, hminChunks, hasync, hinitial, henforce, -, -, hgroups,
    -⟩ := readSplit_eq_some h
  have hminSize := rereads_optionalNat (depth + 2) hminSize
  have hremaining := rereads_optionalNat (depth + 2) hremaining
  have hminChunks := rereads_natOption (depth + 2) hminChunks rfl
  have hasync := rereads_natOption (depth + 2) hasync rfl
  have hinitial := rereads_natOption (depth + 2) hinitial rfl
  have henforce := rereads_natOption (depth + 2) henforce rfl
  have hgroups : ∀ group ∈ o.cacheGroups,
      Rereads readGroup CacheGroup.toJson (depth + 1) group (clearedGroup group) := by
    intro group hgroup
    obtain ⟨item, hitem⟩ := exists_of_mem_option hgroups group hgroup
    exact rereads_group depth hitem
  have hgroups := rereads_list hgroups
  have hchunks := rereads_selection (depth + 2) o.chunks
  constructor
  · simp [SplitOptions.toJson, StorableFields, hminSize.storable, hremaining.storable,
      hminChunks.storable, hasync.storable, hinitial.storable, henforce.storable, hgroups.storable,
      hchunks.storable]
  · rw [readSplit]
    refine bind_of rfl ?_
    refine bind_of (option_of_only rfl hchunks.reads) ?_
    refine bind_of (option_of_only rfl hminSize.reads) ?_
    refine bind_of (option_of_only rfl hremaining.reads) ?_
    refine bind_of (option_of_only rfl hminChunks.reads) ?_
    refine bind_of (option_of_only rfl hasync.reads) ?_
    refine bind_of (option_of_only rfl hinitial.reads) ?_
    refine bind_of (option_of_only rfl henforce.reads) ?_
    refine bind_of (option_of_only rfl rfl) ?_
    refine bind_of (option_of_only rfl rfl) ?_
    refine bind_of (option_of_only rfl hgroups.reads) ?_
    rfl

theorem rereads_optimization (depth : Nat) {o : OptimizationOptions}
    (h : readOptimization v = some o) :
    Rereads readOptimization OptimizationOptions.toJson (depth + 4) o (clearedOptimization o) := by
  obtain ⟨fields, -, -, hsplit, -⟩ := readOptimization_eq_some h
  have hsplit := option_induction (P := fun o : SplitOptions =>
      Rereads readSplit SplitOptions.toJson (depth + 3) o (clearedSplit o)) hsplit
    (fun _ => rereads_split depth) (rereads_split depth (v := .object []) rfl)
  have hminimize : Rereads (readOptional readBool) (writeOptional .bool) (depth + 3) o.minimize
      o.minimize := rereads_optional (by simp) fun b _ => ⟨storable_bool b, rfl⟩
  constructor
  · simp [OptimizationOptions.toJson, StorableFields, hsplit.storable, hminimize.storable]
  · rw [readOptimization]
    refine bind_of rfl ?_
    refine bind_of (option_of_only rfl hminimize.reads) ?_
    refine bind_of (option_of_only rfl hsplit.reads) ?_
    rfl

theorem rereads_asset (depth : Nat) {o : AssetOptions} (h : readAsset v = some o) :
    Rereads readAsset AssetOptions.toJson (depth + 2) o (clearedAsset o) := by
  obtain ⟨fields, -, hthresholds, hdefault, hmax, -⟩ := readAsset_eq_some h
  have hthresholds : ∀ e ∈ o.inlineThresholds.entries, ∃ item, readNat item = some e.2 :=
    option_induction (P := fun m : SortedMap Nat => ∀ e ∈ m.entries, ∃ item, readNat item = some e.2)
      hthresholds (fun _ => exists_of_mem_readMap) (fun _ h => absurd h List.not_mem_nil)
  have hthresholds := rereads_map fun e he =>
    (hthresholds e he).elim fun _ => rereads_nat depth
  have hdefault := rereads_natOption (depth + 1) hdefault rfl
  have hmax := rereads_optionalNat (depth + 1) hmax
  constructor
  · simp [AssetOptions.toJson, StorableFields, hthresholds.storable, hdefault.storable,
      hmax.storable]
  · rw [readAsset]
    refine bind_of rfl ?_
    refine bind_of (option_of_only rfl hthresholds.reads) ?_
    refine bind_of (option_of_only rfl hdefault.reads) ?_
    refine bind_of (option_of_only rfl hmax.reads) ?_
    rfl

theorem rereads_config (depth : Nat) {c : Config} (h : ofJson? v = some c) :
    Rereads ofJson? Config.toJson (depth + 6) c (cleared c) := by
  obtain ⟨fields, -, -, -, -, -, hmodule, -, -, hoptimization, hasset, hparallelism, -, -⟩ :=
    ofJson?_eq_some h
  have hmodule := option_induction (P := fun o : ModuleOptions =>
      Rereads readModule ModuleOptions.toJson (depth + 5) o (clearedModule o)) hmodule
    (fun _ => rereads_module depth) (rereads_module depth (v := .object []) rfl)
  have hoptimization := option_induction (P := fun o : OptimizationOptions =>
      Rereads readOptimization OptimizationOptions.toJson (depth + 5) o (clearedOptimization o))
    hoptimization (fun _ => rereads_optimization (depth + 1))
    (rereads_optimization (depth + 1) (v := .object []) rfl)
  have hasset := option_induction (P := fun o : AssetOptions =>
      Rereads readAsset AssetOptions.toJson (depth + 5) o (clearedAsset o)) hasset
    (fun _ => rereads_asset (depth + 3)) (rereads_asset (depth + 3) (v := .object []) rfl)
  have hparallelism := rereads_natOption (depth + 5) hparallelism rfl
  have hmode := rereads_mode (depth + 5) c.mode
  have hcontext := rereads_path (depth + 5) c.context
  have hentry := rereads_entry (depth + 4) c.entry
  have houtput := rereads_output (depth + 4) c.output
  have hresolve := rereads_resolve (depth + 2) c.resolve
  have hexternals := rereads_map (m := c.externals) fun e _ => rereads_string (depth + 4) e.2
  constructor
  · simp [Config.toJson, StorableFields, hmodule.storable, hoptimization.storable, hasset.storable,
      hparallelism.storable, hmode.storable, hcontext.storable, hentry.storable, houtput.storable,
      hresolve.storable, hexternals.storable]
  · rw [ofJson?]
    refine bind_of rfl ?_
    refine bind_of (option_of_only rfl hmode.reads) ?_
    refine bind_of (option_of_only rfl hcontext.reads) ?_
    refine bind_of (option_of_only rfl hentry.reads) ?_
    refine bind_of (option_of_only rfl houtput.reads) ?_
    refine bind_of (option_of_only rfl hmodule.reads) ?_
    refine bind_of (option_of_only rfl hresolve.reads) ?_
    refine bind_of (option_of_only rfl hexternals.reads) ?_
    refine bind_of (option_of_only rfl hoptimization.reads) ?_
    refine bind_of (option_of_only rfl hasset.reads) ?_
    refine bind_of (option_of_only rfl hparallelism.reads) ?_
    refine bind_of (option_of_only rfl rfl) ?_
    rfl

theorem writtenItems_map (write : α → Json) (xs : List α) :
    writtenItems (xs.map write) = xs.map fun x => written (write x) := by
  induction xs with
  | nil => rfl
  | cons x xs ih => rw [List.map_cons, writtenItems, ih, List.map_cons]

theorem withoutUnread_written (c : Config) : withoutUnread (written c.toJson) = written c.toJson := by
  have hrule : ∀ rule : IgnoreOptions,
      (written rule.toJson).keepFields ignoreNames = written rule.toJson := by
    intro rule
    simp [IgnoreOptions.toJson, written, writtenFields, Json.Written.keepFields, ignoreNames]
  simp [withoutUnread, Config.toJson, ResolveOptions.toJson, written, writtenFields,
    Json.Written.mapField, Json.Written.mapItems, writtenItems_map, hrule]

theorem dottedRules_cleared (index : Nat) (rules : List RuleOptions) :
    dottedRules index (rules.map clearedRule) = [] := by
  induction rules generalizing index with
  | nil => rfl
  | cons rule rest ih =>
      rw [List.map_cons, dottedRules, ih]
      rfl

theorem unclaimedPaths_cleared (c : Config) : (cleared c).unclaimedPaths = [] := by
  have hempty : ∀ group, dotted group ∅ = [] := fun _ => rfl
  simp [unclaimedPaths, cleared, clearedOutput, clearedModule, clearedResolve, clearedOptimization,
    clearedSplit, clearedAsset, clearedGroup, dottedRules_cleared, hempty, List.flatMap_map]

/-- A configuration that is written and read again comes back without its unclaimed keys, and
otherwise as it was. -/
theorem parse?_written {text : String} {c : Config} (h : parse? text = some c) :
    parse? c.toJson.compact = some (cleared c) ∧
      (cleared c).minimize = c.minimize ∧ (cleared c).filename = c.filename ∧
      (cleared c).entry.entries = c.entry.entries ∧
      (∀ mode, (cleared c).optimization.splitChunks.minSizeFor mode =
          c.optimization.splitChunks.minSizeFor mode ∧
        (cleared c).optimization.splitChunks.minRemainingSizeFor mode =
          c.optimization.splitChunks.minRemainingSizeFor mode) ∧
      (cleared c).optimization.splitChunks.enforceSizeThreshold =
        c.optimization.splitChunks.enforceSizeThreshold ∧
      (cleared c).module.rules.map RuleOptions.transforms =
        c.module.rules.map RuleOptions.transforms ∧
      (cleared c).unclaimedPaths = [] := by
  simp only [parse?, Option.bind_eq_bind, Option.bind_eq_some_iff] at h
  obtain ⟨w, -, value, -, hc⟩ := h
  obtain ⟨hstorable, hread⟩ := rereads_config 121 hc
  refine ⟨?_, rfl, rfl, rfl, fun _ => ⟨rfl, rfl⟩, rfl, ?_, unclaimedPaths_cleared c⟩
  · rw [parse?, written?_compact hstorable]
    simp only [Option.bind_eq_bind, Option.bind_some, withoutUnread_written]
    rw [Json.nestingLimit, value?_written _ _ hstorable, Option.bind_some, hread]
  · simp [cleared, clearedModule, clearedRule, Function.comp_def]

/-- A document with options in their shorter forms, and with a misspelt one. -/
def shortForms : String :=
  "\x7b\"entry\":\x7b\"b\":\"./b.js\",\"a\":\"./a.js\"\x7d," ++
    "\"module\":\x7b\"rules\":[\x7b\"use\":\x7b\"loader\":\"x\"\x7d\x7d]\x7d," ++
    "\"output\":\x7b\"manifest\":null,\"mdoe\":1\x7d\x7d"

theorem parse?_written_shortForms :
    ∃ c, parse? shortForms = some c ∧ c.unclaimedPaths = ["output.mdoe"] ∧
      parse? c.toJson.compact = some (cleared c) ∧
      (cleared c).entry.entries = [("a", "./a.js"), ("b", "./b.js")] ∧
      (cleared c).module.rules.map RuleOptions.transforms = [[.detailed "x" false]] ∧
      (cleared c).unclaimedPaths = [] := by
  have hread : (parse? shortForms).map (fun c =>
      (c.unclaimedPaths, c.entry.entries, c.module.rules.map RuleOptions.transforms)) =
      some (["output.mdoe"], [("a", "./a.js"), ("b", "./b.js")], [[.detailed "x" false]]) := by
    decide +kernel
  obtain ⟨c, hc, hread⟩ := Option.map_eq_some_iff.mp hread
  simp only [Prod.mk.injEq] at hread
  obtain ⟨hpaths, hentries, htransforms⟩ := hread
  obtain ⟨hwritten, -, -, hentries', -, -, htransforms', hnone⟩ := parse?_written hc
  exact ⟨c, hc, hpaths, hwritten, hentries'.trans hentries, htransforms'.trans htransforms, hnone⟩

end Proofs.WrittenOptions

end WebBundle
