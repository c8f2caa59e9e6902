import Mathlib.Data.List.Dedup
import Mathlib.Data.List.Perm.Basic
import Mathlib.Data.List.Sort
import WebBundle.Json.Reader
import WebBundle.Proofs.ReadOptions

namespace WebBundle.Proofs.StrayKeys

open SortedMap (mem_keys_ofList pairwise_keys)
open WebBundle.Config
open WebBundle.Proofs.ReadOptions

/-- What stands at a place of a configuration. -/
inductive Shape where
  /-- A value without options: its keys are data. -/
  | plain
  /-- A list of such places, or one in place of it, and how each is named behind the list. -/
  | items (label : Nat → Json → String) (item : Shape)
  /-- Options by their names, and whether the keys are kept that name none. -/
  | group (kept : Bool) (options : List (List String × Shape))

def plainOptions (names : List String) : List (List String × Shape) :=
  names.map fun name => ([name], .plain)

def byNumber (index : Nat) (_ : Json) : String := "[" ++ toString index ++ "]"

def byKey (_ : Nat) (group : Json) : String :=
  "." ++ ((group.get? "key").bind Json.string?).getD ""

def transformShape : Shape := .group false [(["id", "loader"], .plain), (["optional"], .plain)]

def ignoreShape : Shape := .group false (plainOptions ["resource", "context"])

def ruleShape : Shape := .group true [
  (["test"], .plain), (["transforms", "use"], .items byNumber transformShape), (["type"], .plain),
  (["assetKind"], .plain), (["exclusive"], .plain), (["inlineThreshold"], .plain)]

def moduleShape : Shape := .group true [
  (["rules"], .items byNumber ruleShape), (["noParse"], .plain), (["fallbackRawCopy"], .plain)]

def resolveShape : Shape := .group true [
  (["alias"], .plain), (["extensions"], .plain), (["modulePaths", "modules"], .plain),
  (["mainFields"], .plain), (["ignore"], .items byNumber ignoreShape)]

def outputShape : Shape := .group true (plainOptions
  ["path", "filename", "cssFilename", "assetFilename", "publicPath", "clean", "manifest"])

def cacheGroupShape : Shape := .group true (plainOptions
  ["key", "name", "test", "type", "chunks", "minChunks", "minSize", "maxAsyncRequests",
    "maxInitialRequests", "priority", "enforce", "reuseExistingChunk"])

def splitShape : Shape := .group true [
  (["chunks"], .plain), (["minSize"], .plain), (["minRemainingSize"], .plain),
  (["minChunks"], .plain), (["maxAsyncRequests"], .plain), (["maxInitialRequests"], .plain),
  (["enforceSizeThreshold"], .plain), (["defaultVendors"], .plain), (["defaultGroup"], .plain),
  (["cacheGroups"], .items byKey cacheGroupShape)]

def optimizationShape : Shape := .group true [(["minimize"], .plain), (["splitChunks"], splitShape)]

def assetShape : Shape := .group true (plainOptions
  ["inlineThresholds", "defaultInlineThreshold", "maxInlinePerModule"])

def configShape : Shape := .group true [
  (["mode"], .plain), (["context"], .plain), (["entry"], .plain), (["output"], outputShape),
  (["module"], moduleShape), (["resolve"], resolveShape), (["externals"], .plain),
  (["optimization"], optimizationShape), (["asset"], assetShape), (["parallelism"], .plain),
  (["cache"], .plain)]

/-- The keys of an object that are none of some names, once each and in ascending order. -/
def strayKeys (names : List String) (fields : Fields) : List String :=
  ((fields.map (·.1)).filter fun key => !names.contains key).dedup.insertionSort (· ≤ ·)

/-- What stands in front of the keys at a place. -/
def front (place : String) : String := if place = "" then "" else place ++ "."

mutual

/-- The dotted paths of the keys that no option claims, in the groups of the wanted kinds. -/
def strays (wanted : Bool → Bool) : Shape → (place : String) → Json → List String
  | .plain, _, _ => []
  | .items label item, place, .array values =>
    values.zipIdx.flatMap fun (value, i) => strays wanted item (place ++ label i value) value
  | .items _ item, place, value => strays wanted item place value
  | .group kept options, place, .object fields =>
    (if wanted kept then
      (strayKeys (options.flatMap (·.1)) fields).map (front place ++ ·) else []) ++
      straysIn wanted options place fields
  | .group _ _, _, _ => []

/-- Those among them that stand in the values of options, under the first names of these. -/
def straysIn (wanted : Bool → Bool) :
    List (List String × Shape) → (place : String) → Fields → List String
  | [], _, _ => []
  | (names, shape) :: rest, place, fields =>
    ((fields.filter fun field => names.contains field.1).flatMap fun field =>
      strays wanted shape (front place ++ names.headD "") field.2) ++
      straysIn wanted rest place fields

end

def reported (kept : Bool) : Bool := kept

def silent (kept : Bool) : Bool := !kept

def anywhere (_ : Bool) : Bool := true

mutual

/-- What is written, with `null` for a number or string without value. -/
def content : Json.Written → Json
  | .scalar value => value.getD .null
  | .array items => .array (contents items)
  | .object fields => .object (contentFields fields)

def contents : List Json.Written → List Json
  | [] => []
  | item :: rest => content item :: contents rest

def contentFields : List (Option String × Json.Written) → Fields
  | [] => []
  | (some key, item) :: rest => (key, content item) :: contentFields rest
  | (none, _) :: rest => contentFields rest

end

theorem keys_unclaimedOf (fields : Fields) (names : List String) :
    (unclaimedOf fields names).keys = strayKeys names fields := by
  have hkeys := pairwise_keys (unclaimedOf fields names)
  have hnodup : (unclaimedOf fields names).keys.Nodup := by
    refine hkeys.imp ?_
    rintro key _ h rfl
    exact String.lt_irrefl key h
  have hle : (unclaimedOf fields names).keys.Pairwise (· ≤ ·) :=
    hkeys.imp fun h => String.not_lt.mp fun h' => String.lt_irrefl _ (String.lt_trans h h')
  refine List.Perm.eq_of_pairwise (fun _ _ _ _ => String.le_antisymm) hle
    (List.pairwise_insertionSort _ _) (List.Perm.trans ?_ (List.perm_insertionSort _ _).symm)
  rw [List.perm_ext_iff_of_nodup hnodup (List.nodup_dedup _)]
  intro key
  rw [unclaimedOf, mem_keys_ofList, List.mem_dedup]
  simp [List.map_map, Function.comp_def, List.mem_filter, and_comm]

variable {wanted : Bool → Bool} {shape item : Shape} {place : String} {fields : Fields}
  {value : Json} {names : List String} {options : List (List String × Shape)}

theorem front_of_ne (h : place ≠ "") : front place = place ++ "." := if_neg h

theorem strays_group (options : List (List String × Shape)) (place : String) (fields : Fields) :
    strays reported (.group true options) place (.object fields) =
      dotted (front place) (unclaimedOf fields (options.flatMap (·.1))) ++
        straysIn reported options place fields := by
  simp [strays, reported, dotted, keys_unclaimedOf]

theorem straysIn_plain (names : List String) (rest : List (List String × Shape)) :
    straysIn wanted ((names, .plain) :: rest) place fields = straysIn wanted rest place fields := by
  simp [straysIn, strays]

theorem straysIn_plainOptions (names : List String) :
    straysIn wanted (plainOptions names) place fields = [] := by
  induction names with
  | nil => simp [plainOptions, straysIn]
  | cons name rest ih => exact (straysIn_plain [name] _).trans ih

theorem straysIn_nil : straysIn wanted [] place fields = [] := by simp [straysIn]

theorem straysIn_silent {rest : List (List String × Shape)}
    (h : ∀ place value, strays wanted shape place value = []) :
    straysIn wanted ((names, shape) :: rest) place fields = straysIn wanted rest place fields := by
  simp [straysIn, h]

theorem straysIn_option {α : Type} {read : Json → Option α} {x default : α} {inner : String}
    (place : String) (paths : α → List String) (h : option fields names read default = some x)
    (hinner : front place ++ names.headD "" = inner)
    (hread : ∀ value, read value = some x → strays wanted shape inner value = paths x)
    (hdefault : paths default = []) (rest : List (List String × Shape)) :
    straysIn wanted ((names, shape) :: rest) place fields =
      paths x ++ straysIn wanted rest place fields := by
  rw [straysIn, hinner]
  congr 1
  rcases option_eq_some h with ⟨hnone, rfl⟩ | ⟨field, hone, hfield⟩
  · rw [hnone, hdefault, List.flatMap_nil]
  · rw [hone, List.flatMap_singleton, hread field.2 hfield]

theorem strays_items_nil {label : Nat → Json → String}
    (h : ∀ place value, strays wanted item place value = []) (place : String) (value : Json) :
    strays wanted (.items label item) place value = [] := by
  cases value <;> simp [strays, h]

theorem strays_transform (place : String) (value : Json) :
    strays reported transformShape place value = [] := by
  cases value <;> simp [transformShape, strays, straysIn, reported]

theorem strays_ignore (place : String) (value : Json) :
    strays reported ignoreShape place value = [] := by
  cases value <;> simp [ignoreShape, strays, straysIn_plainOptions, reported]

theorem strays_output {o : OutputOptions} (h : readOutput value = some o) :
    strays reported outputShape place value = dotted (front place) o.unclaimed := by
  obtain ⟨fields, rfl, -, -, -, -, -, -, -, hunclaimed⟩ := readOutput_eq_some h
  rw [outputShape, strays_group, straysIn_plainOptions, List.append_nil, hunclaimed]
  rfl

theorem strays_asset {o : AssetOptions} (h : readAsset value = some o) :
    strays reported assetShape place value = dotted (front place) o.unclaimed := by
  obtain ⟨fields, rfl, -, -, -, hunclaimed⟩ := readAsset_eq_some h
  rw [assetShape, strays_group, straysIn_plainOptions, List.append_nil, hunclaimed]
  rfl

theorem strays_cacheGroup {o : CacheGroup} (h : readGroup value = some o) :
    strays reported cacheGroupShape place value = dotted (front place) o.unclaimed := by
  obtain ⟨fields, rfl, -, -, -, -, -, -, -, -, -, -, -, -, hunclaimed⟩ := readGroup_eq_some h
  rw [cacheGroupShape, strays_group, straysIn_plainOptions, List.append_nil, hunclaimed]
  rfl

theorem strays_rule {o : RuleOptions} (h : readRule value = some o) :
    strays reported ruleShape place value = dotted (front place) o.unclaimed := by
  obtain ⟨fields, rfl, -, -, -, -, -, -, hunclaimed⟩ := readRule_eq_some h
  simp only [ruleShape, strays_group, straysIn_plain,
    straysIn_silent (strays_items_nil strays_transform), straysIn_nil, List.append_nil, hunclaimed]
  rfl

theorem strays_resolve {o : ResolveOptions} (h : readResolve value = some o) :
    strays reported resolveShape place value = dotted (front place) o.unclaimed := by
  obtain ⟨fields, rfl, -, -, -, -, -, hunclaimed⟩ := readResolve_eq_some h
  simp only [resolveShape, strays_group, straysIn_plain,
    straysIn_silent (strays_items_nil strays_ignore), straysIn_nil, List.append_nil, hunclaimed]
  rfl

theorem front_rule (index : Nat) (value : Json) :
    front ("module.rules" ++ byNumber index value) = "module.rules[" ++ toString index ++ "]." := by
  have hopen : "module.rules[" = "module.rules" ++ "[" := rfl
  have hclose : "]." = "]" ++ "." := rfl
  rw [front_of_ne (by simp [String.append_eq_empty_iff]), byNumber, hopen, hclose]
  simp only [String.append_assoc]

theorem strays_rules {items : List Json} {rules : List RuleOptions} (index : Nat)
    (h : List.Forall₂ (fun item rule => readRule item = some rule) items rules) :
    ((items.zipIdx index).flatMap fun (value, i) =>
        strays reported ruleShape ("module.rules" ++ byNumber i value) value) =
      dottedRules index rules := by
  induction h generalizing index with
  | nil => rfl
  | cons hrule _ ih =>
      rw [List.zipIdx_cons, List.flatMap_cons, ih]
      dsimp only
      rw [strays_rule hrule, front_rule, dottedRules]

theorem strays_module {o : ModuleOptions} (h : readModule value = some o) :
    strays reported moduleShape "module" value =
      dotted "module." o.unclaimed ++ dottedRules 0 o.rules := by
  obtain ⟨fields, rfl, hrules, -, -, hunclaimed⟩ := readModule_eq_some h
  have hread : ∀ value, readList readRule value = some o.rules →
      strays reported (.items byNumber ruleShape) "module.rules" value = dottedRules 0 o.rules := by
    intro value hvalue
    obtain ⟨items, rfl, hitems⟩ := readList_eq_some hvalue
    rw [strays]
    exact strays_rules 0 hitems
  rw [moduleShape, strays_group, straysIn_option "module" (dottedRules 0) hrules rfl hread rfl]
  simp only [straysIn_plain, straysIn_nil, List.append_nil, hunclaimed]
  rfl

/-- The stray keys of cache groups, each under the key of its group. -/
def dottedGroups (groups : List CacheGroup) : List String :=
  groups.flatMap fun group =>
    dotted ("optimization.splitChunks.cacheGroups." ++ group.key ++ ".") group.unclaimed

theorem byKey_eq {o : CacheGroup} (index : Nat) (h : readGroup value = some o) :
    byKey index value = "." ++ o.key := by
  obtain ⟨fields, rfl, hkey, -⟩ := readGroup_eq_some h
  have hlast : (Json.object fields).get? "key" =
      (fields.filter fun field => ["key"].contains field.1).getLast?.map (·.2) := by
    have hkey : (fun field : String × Json => ["key"].contains field.1) = (·.1 == "key") := by
      funext field
      simp [Bool.beq_eq_decide_eq]
    rw [Json.get?, ← List.head?_filter, List.filter_reverse, List.head?_reverse, hkey]
  rw [byKey, hlast]
  rcases option_eq_some hkey with ⟨hnone, hdefault⟩ | ⟨field, hone, hfield⟩
  · rw [hnone, hdefault]
    rfl
  · rw [hone]
    obtain ⟨_, item⟩ := field
    cases item with
    | string text =>
        obtain rfl : text = o.key := Option.some.inj hfield
        rfl
    | _ => contradiction

theorem front_cacheGroup (key : String) :
    front ("optimization.splitChunks.cacheGroups" ++ ("." ++ key)) =
      "optimization.splitChunks.cacheGroups." ++ key ++ "." := by
  have hdot : "optimization.splitChunks.cacheGroups." =
      "optimization.splitChunks.cacheGroups" ++ "." := rfl
  rw [front_of_ne (by simp [String.append_eq_empty_iff]), hdot]
  simp only [String.append_assoc]

theorem strays_cacheGroups {items : List Json} {groups : List CacheGroup} (index : Nat)
    (h : List.Forall₂ (fun item group => readGroup item = some group) items groups) :
    ((items.zipIdx index).flatMap fun (value, i) => strays reported cacheGroupShape
        ("optimization.splitChunks.cacheGroups" ++ byKey i value) value) =
      dottedGroups groups := by
  induction h generalizing index with
  | nil => rfl
  | cons hgroup _ ih =>
      rw [List.zipIdx_cons, List.flatMap_cons, ih]
      dsimp only
      rw [byKey_eq index hgroup, strays_cacheGroup hgroup, front_cacheGroup, dottedGroups,
        dottedGroups, List.flatMap_cons]

theorem strays_split {o : SplitOptions} (h : readSplit value = some o) :
    strays reported splitShape "optimization.splitChunks" value =
      dotted "optimization.splitChunks." o.unclaimed ++ dottedGroups o.cacheGroups := by
  obtain ⟨fields, rfl, -, -, -, -, -, -, -, -, -, hgroups, hunclaimed⟩ := readSplit_eq_some h
  have hread : ∀ value, readList readGroup value = some o.cacheGroups →
      strays reported (.items byKey cacheGroupShape) "optimization.splitChunks.cacheGroups" value =
        dottedGroups o.cacheGroups := by
    intro value hvalue
    obtain ⟨items, rfl, hitems⟩ := readList_eq_some hvalue
    rw [strays]
    exact strays_cacheGroups 0 hitems
  simp only [splitShape, strays_group, straysIn_plain]
  rw [straysIn_option "optimization.splitChunks" dottedGroups hgroups rfl hread rfl, straysIn_nil,
    List.append_nil, hunclaimed]
  rfl

theorem strays_optimization {o : OptimizationOptions} (h : readOptimization value = some o) :
    strays reported optimizationShape "optimization" value =
      dotted "optimization." o.unclaimed ++
        (dotted "optimization.splitChunks." o.splitChunks.unclaimed ++
          dottedGroups o.splitChunks.cacheGroups) := by
  obtain ⟨fields, rfl, -, hsplit, hunclaimed⟩ := readOptimization_eq_some h
  rw [optimizationShape, strays_group, straysIn_plain,
    straysIn_option "optimization"
      (fun split => dotted "optimization.splitChunks." split.unclaimed ++
        dottedGroups split.cacheGroups) hsplit rfl (fun _ => strays_split) rfl,
    straysIn_nil, List.append_nil, hunclaimed]
  rfl

/-- What a configuration reports are the stray keys of the groups that keep unclaimed keys. -/
theorem strays_config {c : Config} (h : ofJson? value = some c) :
    strays reported configShape "" value = c.unclaimedPaths := by
  obtain ⟨fields, rfl, -, -, -, houtput, hmodule, hresolve, -, hoptimization, hasset, -, -,
    hunclaimed⟩ := ofJson?_eq_some h
  have houtput := straysIn_option "" (fun o => dotted (front "output") o.unclaimed) houtput rfl
    (fun _ => strays_output) rfl
  have hmodule := straysIn_option ""
    (fun o => dotted "module." o.unclaimed ++ dottedRules 0 o.rules) hmodule rfl
    (fun _ => strays_module) rfl
  have hresolve := straysIn_option "" (fun o => dotted (front "resolve") o.unclaimed) hresolve rfl
    (fun _ => strays_resolve) rfl
  have hoptimization := straysIn_option "" (fun o => dotted "optimization." o.unclaimed ++
      (dotted "optimization.splitChunks." o.splitChunks.unclaimed ++
        dottedGroups o.splitChunks.cacheGroups)) hoptimization rfl
    (fun _ => strays_optimization) rfl
  have hasset := straysIn_option "" (fun o => dotted (front "asset") o.unclaimed) hasset rfl
    (fun _ => strays_asset) rfl
  simp only [configShape, strays_group, straysIn_plain, houtput, hmodule, hresolve, hoptimization,
    hasset, straysIn_nil, unclaimedPaths, hunclaimed, dottedGroups, List.append_assoc,
    List.append_nil]
  rfl

mutual

theorem content_of_value? (depth : Nat) (w : Json.Written) (value : Json)
    (h : w.value? depth = some value) : content w = value := by
  match depth, w with
  | _, .scalar scalar =>
      obtain rfl : scalar = some value := by simpa [Json.Written.value?] using h
      rfl
  | 0, .array _ => simp [Json.Written.value?] at h
  | 0, .object _ => simp [Json.Written.value?] at h
  | depth + 1, .array items =>
      rw [Json.Written.value?, Option.map_eq_some_iff] at h
      obtain ⟨values, hvalues, rfl⟩ := h
      rw [content, contents_of_values? depth items values hvalues]
  | depth + 1, .object fields =>
      rw [Json.Written.value?, Option.map_eq_some_iff] at h
      obtain ⟨values, hvalues, rfl⟩ := h
      rw [content, contentFields_of_fields? depth fields values hvalues]

theorem contents_of_values? (depth : Nat) (items : List Json.Written) (values : List Json)
    (h : Json.Written.values? depth items = some values) : contents items = values := by
  match items with
  | [] =>
      obtain rfl : [] = values := by simpa [Json.Written.values?] using h
      rfl
  | item :: rest =>
      rw [Json.Written.values?, Option.bind_eq_some_iff] at h
      obtain ⟨value, hvalue, h⟩ := h
      obtain ⟨others, hothers, rfl⟩ := Option.map_eq_some_iff.mp h
      rw [contents, content_of_value? depth item value hvalue,
        contents_of_values? depth rest others hothers]

theorem contentFields_of_fields? (depth : Nat) (fields : List (Option String × Json.Written))
    (values : Fields) (h : Json.Written.fields? depth fields = some values) :
    contentFields fields = values := by
  match fields with
  | [] =>
      obtain rfl : [] = values := by simpa [Json.Written.fields?] using h
      rfl
  | (key, item) :: rest =>
      rw [Json.Written.fields?, Option.bind_eq_some_iff] at h
      obtain ⟨key, rfl, h⟩ := h
      rw [Option.bind_eq_some_iff] at h
      obtain ⟨value, hvalue, h⟩ := h
      obtain ⟨others, hothers, rfl⟩ := Option.map_eq_some_iff.mp h
      rw [contentFields, content_of_value? depth item value hvalue,
        contentFields_of_fields? depth rest others hothers]

end

/-- A change of what is written that no reported key sees. -/
def Unseen (change : Json.Written → Json.Written) (shape : Shape) : Prop :=
  ∀ place w, strays reported shape place (content (change w)) =
    strays reported shape place (content w)

section MapField

variable {key : String} {change : Json.Written → Json.Written}

theorem keys_mapField (written : List (Option String × Json.Written)) :
    (contentFields (written.map fun (k, w) => (k, if k = some key then change w else w))).map
      (·.1) = (contentFields written).map (·.1) := by
  induction written with
  | nil => rfl
  | cons field rest ih =>
      obtain ⟨_ | k, w⟩ := field
      · exact ih
      · simp [contentFields, ih]

theorem values_mapField (h : key ∈ names → Unseen change shape)
    (written : List (Option String × Json.Written)) :
    ((contentFields (written.map fun (k, w) => (k, if k = some key then change w else w))).filter
        fun field => names.contains field.1).flatMap
        (fun field => strays reported shape place field.2) =
      ((contentFields written).filter fun field => names.contains field.1).flatMap
        fun field => strays reported shape place field.2 := by
  induction written with
  | nil => rfl
  | cons field rest ih =>
      obtain ⟨_ | k, w⟩ := field
      · exact ih
      · rw [List.map_cons]
        simp only [contentFields, List.filter_cons]
        split
        · next hk =>
            have hvalue : strays reported shape place
                (content (if some k = some key then change w else w)) =
                  strays reported shape place (content w) := by
              split
              · next heq => exact h (Option.some.inj heq ▸ List.contains_iff_mem.mp hk) place w
              · rfl
            rw [List.flatMap_cons, List.flatMap_cons, hvalue, ih]
        · exact ih

theorem unseen_mapField {kept : Bool}
    (h : ∀ names shape, (names, shape) ∈ options → key ∈ names → Unseen change shape) :
    Unseen (.mapField key change) (.group kept options) := by
  intro place w
  cases w with
  | scalar value => rfl
  | array items => rfl
  | object written =>
      rw [Json.Written.mapField, content, content, strays, strays, strayKeys, strayKeys,
        keys_mapField]
      congr 1
      induction options with
      | nil => simp [straysIn]
      | cons option rest ih =>
          obtain ⟨names, shape⟩ := option
          rw [straysIn, straysIn, values_mapField (h names shape List.mem_cons_self)]
          rw [ih fun names shape hmem => h names shape (List.mem_cons_of_mem _ hmem)]

theorem unseen_option {kept : Bool}
    (hoption : options.filter (fun option => option.1.contains key) = [(names, shape)])
    (h : Unseen change shape) : Unseen (.mapField key change) (.group kept options) := by
  refine unseen_mapField fun names' shape' hmem hkey => ?_
  have hfound : (names', shape') ∈ options.filter fun option => option.1.contains key :=
    List.mem_filter.mpr ⟨hmem, List.contains_iff_mem.mpr hkey⟩
  rw [hoption, List.mem_singleton] at hfound
  obtain ⟨-, rfl⟩ := Prod.mk.inj hfound
  exact h

end MapField

theorem unseen_withoutUnread : Unseen withoutUnread configShape := by
  have hignore : ∀ change, Unseen change (.items byNumber ignoreShape) := by
    intro change place w
    rw [strays_items_nil strays_ignore, strays_items_nil strays_ignore]
  have hresolve : ∀ change, Unseen (.mapField "ignore" change) resolveShape := fun change =>
    unseen_option rfl (hignore change)
  exact unseen_option rfl (hresolve _)

mutual

theorem strays_perm (shape : Shape) (place : String) (value : Json) :
    (strays anywhere shape place value).Perm
      (strays reported shape place value ++ strays silent shape place value) := by
  match shape with
  | .plain => simp [strays]
  | .items label item =>
      cases value with
      | array values =>
          rw [strays, strays, strays]
          refine List.Perm.trans (List.Perm.flatMap_left _ fun field _ => ?_)
            (List.flatMap_append_perm _ _ _).symm
          exact strays_perm item (place ++ label field.2 field.1) field.1
      | _ =>
          simp only [strays]
          exact strays_perm item place _
  | .group kept options =>
      cases value with
      | object fields =>
          have hin := straysIn_perm options place fields
          -- The stray keys of the group itself are all reported, or they are all silent.
          cases kept with
          | true =>
              simp only [strays, anywhere, reported, silent, if_true, Bool.not_true,
                List.nil_append, Bool.false_eq_true, if_false]
              rw [List.append_assoc]
              exact hin.append_left _
          | false =>
              simp only [strays, anywhere, reported, silent, if_true, Bool.not_false,
                List.nil_append, Bool.false_eq_true, if_false]
              exact (hin.append_left _).trans (List.perm_append_comm_assoc _ _ _)
      | _ => simp [strays]

theorem straysIn_perm (options : List (List String × Shape)) (place : String) (fields : Fields) :
    (straysIn anywhere options place fields).Perm
      (straysIn reported options place fields ++ straysIn silent options place fields) := by
  match options with
  | [] => simp [straysIn]
  | (names, shape) :: rest =>
      rw [straysIn, straysIn, straysIn]
      have hshape := (List.Perm.flatMap_left (fields.filter fun field => names.contains field.1)
        fun field _ => strays_perm shape (front place ++ names.headD "") field.2).trans
        (List.flatMap_append_perm _ _ _).symm
      refine (hshape.append (straysIn_perm rest place fields)).trans ?_
      rw [List.append_assoc, List.append_assoc]
      exact (List.perm_append_comm_assoc _ _ _).append_left _

end

/-- A configuration reports, one dotted path for each, the stray keys of its document that stand in
groups which keep them. These are all, if and only if there is none in an ignore rule or in the
details of a transform. -/
theorem unclaimedPaths_complete_iff {text : String} {c : Config} (h : parse? text = some c) :
    ∃ w, Json.written? text = some w ∧
      c.unclaimedPaths = strays reported configShape "" (content w) ∧
      (c.unclaimedPaths.Perm (strays anywhere configShape "" (content w)) ↔
        strays silent configShape "" (content w) = []) := by
  simp only [parse?, Option.bind_eq_bind, Option.bind_eq_some_iff] at h
  obtain ⟨w, hw, value, hvalue, hc⟩ := h
  have hpaths : c.unclaimedPaths = strays reported configShape "" (content w) := by
    rw [← strays_config hc, ← content_of_value? _ _ _ hvalue, unseen_withoutUnread]
  have hall := strays_perm configShape "" (content w)
  refine ⟨w, hw, hpaths, ?_⟩
  rw [hpaths]
  constructor
  · intro hperm
    have hlength := (hperm.trans hall).length_eq
    rw [List.length_append] at hlength
    exact List.eq_nil_of_length_eq_zero (by omega)
  · intro hnone
    rw [hnone, List.append_nil] at hall
    exact hall.symm

/-- A document with misspelt options. -/
def misspelt : String :=
  "\x7b\"mdoe\":1," ++
    "\"module\":\x7b\"rules\":[\x7b\"use\":\x7b\"id\":\"a\"\x7d,\"tset\":\"\"\x7d]\x7d\x7d"

theorem misspelt_complete :
    ∃ w c, parse? misspelt = some c ∧ Json.written? misspelt = some w ∧
      c.unclaimedPaths = ["mdoe", "module.rules[0].tset"] ∧
      c.unclaimedPaths.Perm (strays anywhere configShape "" (content w)) := by
  have hpaths : (parse? misspelt).map unclaimedPaths = some ["mdoe", "module.rules[0].tset"] := by
    decide +kernel
  have hnone : (Json.written? misspelt).map
      (fun w => strays silent configShape "" (content w)) = some [] := by decide +kernel
  obtain ⟨c, hc, hpaths⟩ := Option.map_eq_some_iff.mp hpaths
  obtain ⟨w, hw, hnone⟩ := Option.map_eq_some_iff.mp hnone
  obtain ⟨w', hw', -, hall⟩ := unclaimedPaths_complete_iff hc
  obtain rfl : w = w' := Option.some.inj (hw.symm.trans hw')
  exact ⟨w, c, hc, hw, hpaths, hall.mpr hnone⟩

/-- A document with misspelt options in the details of a transform and in an ignore rule. -/
def misspeltInside : String :=
  "\x7b\"module\":\x7b\"rules\":[\x7b\"use\":[\x7b\"id\":\"a\",\"more\":1\x7d]\x7d]\x7d," ++
    "\"resolve\":\x7b\"ignore\":[\x7b\"resource\":\"x\",\"extra\":1\x7d]\x7d\x7d"

theorem misspelt_inside_unreported :
    ∃ w c, parse? misspeltInside = some c ∧ Json.written? misspeltInside = some w ∧
      c.unclaimedPaths = [] ∧ strays anywhere configShape "" (content w) =
        ["module.rules[0].transforms[0].more", "resolve.ignore[0].extra"] := by
  have hpaths : (parse? misspeltInside).map unclaimedPaths = some [] := by decide +kernel
  have hall : (Json.written? misspeltInside).map
      (fun w => strays anywhere configShape "" (content w)) =
        some ["module.rules[0].transforms[0].more", "resolve.ignore[0].extra"] := by decide +kernel
  obtain ⟨c, hc, hpaths⟩ := Option.map_eq_some_iff.mp hpaths
  obtain ⟨w, hw, hall⟩ := Option.map_eq_some_iff.mp hall
  exact ⟨w, c, hc, hw, hpaths, hall⟩

end WebBundle.Proofs.StrayKeys
