import Mathlib.Data.List.Forall2
import WebBundle.Config.Reader

namespace WebBundle.Proofs.ReadOptions

open WebBundle.Config

theorem fields?_eq_some {value : Json} {fields : Fields} (h : fields? value = some fields) :
    value = .object fields := by
  cases value with
  | object fields' => rw [Option.some.inj h]
  | _ => contradiction

section Option

variable {α β : Type} {fields : Fields} {names : List String} {read : Json → Option α} {x : α}

theorem option_eq_some {default : α} (h : option fields names read default = some x) :
    (fields.filter fun field => names.contains field.1) = [] ∧ x = default ∨
      ∃ field, (fields.filter fun field => names.contains field.1) = [field] ∧
        read field.2 = some x := by
  rw [option] at h
  split at h
  · next hnone => exact .inl ⟨hnone, (Option.some.inj h).symm⟩
  · next field hone => exact .inr ⟨field, hone, h⟩
  · contradiction

/-- What holds of the default and of all that is read, holds of an option. -/
theorem option_induction {P : α → Prop} {default : α}
    (h : option fields names read default = some x) (hread : ∀ value, read value = some x → P x)
    (hdefault : P default) : P x := by
  rcases option_eq_some h with ⟨-, rfl⟩ | ⟨field, -, hfield⟩
  · exact hdefault
  · exact hread field.2 hfield

theorem read_of_readOptional {value : Json} {x : α}
    (h : readOptional read value = some (some x)) : read value = some x := by
  cases value with
  | null => simp [readOptional] at h
  | _ =>
      rw [readOptional, Option.map_eq_some_iff] at h
      · obtain ⟨y, hy, heq⟩ := h
        rwa [Option.some.inj heq] at hy
      · simp

theorem readItems_eq_some {items : List Json} {values : List α}
    (h : readItems read items = some values) :
    List.Forall₂ (fun item value => read item = some value) items values := by
  induction items generalizing values with
  | nil =>
      obtain rfl : values = [] := (Option.some.inj h).symm
      exact .nil
  | cons item rest ih =>
      rw [readItems, Option.bind_eq_some_iff] at h
      obtain ⟨value, hvalue, h⟩ := h
      obtain ⟨others, hothers, rfl⟩ := Option.map_eq_some_iff.mp h
      exact .cons hvalue (ih hothers)

theorem readList_eq_some {value : Json} {values : List α} (h : readList read value = some values) :
    ∃ items, value = .array items ∧
      List.Forall₂ (fun item value => read item = some value) items values := by
  cases value with
  | array items => exact ⟨items, rfl, readItems_eq_some h⟩
  | _ => contradiction

end Option

theorem of_bind {α β : Type} {x : Option α} {f : α → Option β} {b : β} (h : x >>= f = some b) :
    ∃ a, x = some a ∧ f a = some b :=
  Option.bind_eq_some_iff.mp h

theorem readOutput_eq_some {value : Json} {o : OutputOptions} (h : readOutput value = some o) :
    ∃ fields, value = .object fields ∧
      option fields ["path"] readPath ⟨"dist"⟩ = some o.path ∧
      option fields ["filename"] (readOptional readString) none = some o.filename ∧
      option fields ["cssFilename"] readString "[name].css" = some o.cssFilename ∧
      option fields ["assetFilename"] readString "[name].[hash:8][ext]" = some o.assetFilename ∧
      option fields ["publicPath"] readString "/" = some o.publicPath ∧
      option fields ["clean"] readBool true = some o.clean ∧
      option fields ["manifest"] (readOptional readString) (some "manifest.json") =
        some o.manifest ∧
      o.unclaimed = unclaimedOf fields outputNames := by
  rw [readOutput] at h
  obtain ⟨fields, hfields, h⟩ := of_bind h
  obtain ⟨_, hpath, h⟩ := of_bind h
  obtain ⟨_, hfilename, h⟩ := of_bind h
  obtain ⟨_, hcssFilename, h⟩ := of_bind h
  obtain ⟨_, hassetFilename, h⟩ := of_bind h
  obtain ⟨_, hpublicPath, h⟩ := of_bind h
  obtain ⟨_, hclean, h⟩ := of_bind h
  obtain ⟨_, hmanifest, h⟩ := of_bind h
  cases h
  exact ⟨fields, fields?_eq_some hfields, hpath, hfilename, hcssFilename, hassetFilename,
    hpublicPath, hclean, hmanifest, rfl⟩

theorem readRule_eq_some {value : Json} {o : RuleOptions} (h : readRule value = some o) :
    ∃ fields, value = .object fields ∧
      option fields ["test"] readString "" = some o.test ∧
      option fields ["transforms", "use"] readTransforms [] = some o.transforms ∧
      option fields ["type"] (readOptional readResourceType) none = some o.type ∧
      option fields ["assetKind"] (readOptional readString) none = some o.assetKind ∧
      option fields ["exclusive"] readBool true = some o.exclusive ∧
      option fields ["inlineThreshold"] (readOptional readNat) none = some o.inlineThreshold ∧
      o.unclaimed = unclaimedOf fields ruleNames := by
  rw [readRule] at h
  obtain ⟨fields, hfields, h⟩ := of_bind h
  obtain ⟨_, htest, h⟩ := of_bind h
  obtain ⟨_, htransforms, h⟩ := of_bind h
  obtain ⟨_, htype, h⟩ := of_bind h
  obtain ⟨_, hassetKind, h⟩ := of_bind h
  obtain ⟨_, hexclusive, h⟩ := of_bind h
  obtain ⟨_, hinlineThreshold, h⟩ := of_bind h
  cases h
  exact ⟨fields, fields?_eq_some hfields, htest, htransforms, htype, hassetKind, hexclusive,
    hinlineThreshold, rfl⟩

theorem readModule_eq_some {value : Json} {o : ModuleOptions} (h : readModule value = some o) :
    ∃ fields, value = .object fields ∧
      option fields ["rules"] (readList readRule) [] = some o.rules ∧
      option fields ["noParse"] (readList readString) [] = some o.noParse ∧
      option fields ["fallbackRawCopy"] readBool false = some o.fallbackRawCopy ∧
      o.unclaimed = unclaimedOf fields moduleNames := by
  rw [readModule] at h
  obtain ⟨fields, hfields, h⟩ := of_bind h
  obtain ⟨_, hrules, h⟩ := of_bind h
  obtain ⟨_, hnoParse, h⟩ := of_bind h
  obtain ⟨_, hfallbackRawCopy, h⟩ := of_bind h
  cases h
  exact ⟨fields, fields?_eq_some hfields, hrules, hnoParse, hfallbackRawCopy, rfl⟩

theorem readResolve_eq_some {value : Json} {o : ResolveOptions} (h : readResolve value = some o) :
    ∃ fields, value = .object fields ∧
      option fields ["alias"] (readMap readPath) ∅ = some o.aliases ∧
      option fields ["extensions"] (readList readString) ["..."] = some o.extensions ∧
      option fields ["modulePaths", "modules"] (readList readPath) [⟨"node_modules"⟩] =
        some o.modulePaths ∧
      option fields ["mainFields"] (readList readString) ["browser", "module", "main"] =
        some o.mainFields ∧
      option fields ["ignore"] (readList readIgnore) [] = some o.ignore ∧
      o.unclaimed = unclaimedOf fields resolveNames := by
  rw [readResolve] at h
  obtain ⟨fields, hfields, h⟩ := of_bind h
  obtain ⟨_, haliases, h⟩ := of_bind h
  obtain ⟨_, hextensions, h⟩ := of_bind h
  obtain ⟨_, hmodulePaths, h⟩ := of_bind h
  obtain ⟨_, hmainFields, h⟩ := of_bind h
  obtain ⟨_, hignore, h⟩ := of_bind h
  cases h
  exact ⟨fields, fields?_eq_some hfields, haliases, hextensions, hmodulePaths, hmainFields, hignore,
    rfl⟩

theorem readGroup_eq_some {value : Json} {o : CacheGroup} (h : readGroup value = some o) :
    ∃ fields, value = .object fields ∧
      option fields ["key"] readString "" = some o.key ∧
      option fields ["name"] (readOptional readString) none = some o.name ∧
      option fields ["test"] (readOptional readString) none = some o.test ∧
      option fields ["type"] (readOptional readResourceType) none = some o.type ∧
      option fields ["chunks"] (readOptional readSelection) none = some o.chunks ∧
      option fields ["minChunks"] (readOptional readNat) none = some o.minChunks ∧
      option fields ["minSize"] (readOptional readNat) none = some o.minSize ∧
      option fields ["maxAsyncRequests"] (readOptional readNat) none = some o.maxAsyncRequests ∧
      option fields ["maxInitialRequests"] (readOptional readNat) none = some o.maxInitialRequests ∧
      option fields ["priority"] readPriority 0 = some o.priority ∧
      option fields ["enforce"] readBool false = some o.enforce ∧
      option fields ["reuseExistingChunk"] readBool false = some o.reuseExistingChunk ∧
      o.unclaimed = unclaimedOf fields groupNames := by
  rw [readGroup] at h
  obtain ⟨fields, hfields, h⟩ := of_bind h
  obtain ⟨_, hkey, h⟩ := of_bind h
  obtain ⟨_, hname, h⟩ := of_bind h
  obtain ⟨_, htest, h⟩ := of_bind h
  obtain ⟨_, htype, h⟩ := of_bind h
  obtain ⟨_, hchunks, h⟩ := of_bind h
  obtain ⟨_, hminChunks, h⟩ := of_bind h
  obtain ⟨_, hminSize, h⟩ := of_bind h
  obtain ⟨_, hmaxAsyncRequests, h⟩ := of_bind h
  obtain ⟨_, hmaxInitialRequests, h⟩ := of_bind h
  obtain ⟨_, hpriority, h⟩ := of_bind h
  obtain ⟨_, henforce, h⟩ := of_bind h
  obtain ⟨_, hreuseExistingChunk, h⟩ := of_bind h
  cases h
  exact ⟨fields, fields?_eq_some hfields, hkey, hname, htest, htype, hchunks, hminChunks, hminSize,
    hmaxAsyncRequests, hmaxInitialRequests, hpriority, henforce, hreuseExistingChunk, rfl⟩

theorem readSplit_eq_some {value : Json} {o : SplitOptions} (h : readSplit value = some o) :
    ∃ fields, value = .object fields ∧
      option fields ["chunks"] readSelection .all = some o.chunks ∧
      option fields ["minSize"] (readOptional readNat) none = some o.minSize ∧
      option fields ["minRemainingSize"] (readOptional readNat) none = some o.minRemainingSize ∧
      option fields ["minChunks"] readNat 2 = some o.minChunks ∧
      option fields ["maxAsyncRequests"] readNat 30 = some o.maxAsyncRequests ∧
      option fields ["maxInitialRequests"] readNat 30 = some o.maxInitialRequests ∧
      option fields ["enforceSizeThreshold"] readNat 50000 = some o.enforceSizeThreshold ∧
      option fields ["defaultVendors"] readBool true = some o.defaultVendors ∧
      option fields ["defaultGroup"] readBool true = some o.defaultGroup ∧
      option fields ["cacheGroups"] (readList readGroup) [] = some o.cacheGroups ∧
      o.unclaimed = unclaimedOf fields splitNames := by
  rw [readSplit] at h
  obtain ⟨fields, hfields, h⟩ := of_bind h
  obtain ⟨_, hchunks, h⟩ := of_bind h
  obtain ⟨_, hminSize, h⟩ := of_bind h
  obtain ⟨_, hminRemainingSize, h⟩ := of_bind h
  obtain ⟨_, hminChunks, h⟩ := of_bind h
  obtain ⟨_, hmaxAsyncRequests, h⟩ := of_bind h
  obtain ⟨_, hmaxInitialRequests, h⟩ := of_bind h
  obtain ⟨_, henforceSizeThreshold, h⟩ := of_bind h
  obtain ⟨_, hdefaultVendors, h⟩ := of_bind h
  obtain ⟨_, hdefaultGroup, h⟩ := of_bind h
  obtain ⟨_, hcacheGroups, h⟩ := of_bind h
  cases h
  exact ⟨fields, fields?_eq_some hfields, hchunks, hminSize, hminRemainingSize, hminChunks,
    hmaxAsyncRequests, hmaxInitialRequests, henforceSizeThreshold, hdefaultVendors, hdefaultGroup,
    hcacheGroups, rfl⟩

theorem readOptimization_eq_some {value : Json} {o : OptimizationOptions}
    (h : readOptimization value = some o) :
    ∃ fields, value = .object fields ∧
      option fields ["minimize"] (readOptional readBool) none = some o.minimize ∧
      option fields ["splitChunks"] readSplit {} = some o.splitChunks ∧
      o.unclaimed = unclaimedOf fields optimizationNames := by
  rw [readOptimization] at h
  obtain ⟨fields, hfields, h⟩ := of_bind h
  obtain ⟨_, hminimize, h⟩ := of_bind h
  obtain ⟨_, hsplitChunks, h⟩ := of_bind h
  cases h
  exact ⟨fields, fields?_eq_some hfields, hminimize, hsplitChunks, rfl⟩

theorem readAsset_eq_some {value : Json} {o : AssetOptions} (h : readAsset value = some o) :
    ∃ fields, value = .object fields ∧
      option fields ["inlineThresholds"] (readMap readNat) ∅ = some o.inlineThresholds ∧
      option fields ["defaultInlineThreshold"] readNat 8192 = some o.defaultInlineThreshold ∧
      option fields ["maxInlinePerModule"] (readOptional readNat) none = some o.maxInlinePerModule ∧
      o.unclaimed = unclaimedOf fields assetNames := by
  rw [readAsset] at h
  obtain ⟨fields, hfields, h⟩ := of_bind h
  obtain ⟨_, hinlineThresholds, h⟩ := of_bind h
  obtain ⟨_, hdefaultInlineThreshold, h⟩ := of_bind h
  obtain ⟨_, hmaxInlinePerModule, h⟩ := of_bind h
  cases h
  exact ⟨fields, fields?_eq_some hfields, hinlineThresholds, hdefaultInlineThreshold,
    hmaxInlinePerModule, rfl⟩

theorem ofJson?_eq_some {value : Json} {c : Config} (h : ofJson? value = some c) :
    ∃ fields, value = .object fields ∧
      option fields ["mode"] readMode .production = some c.mode ∧
      option fields ["context"] readPath ⟨"."⟩ = some c.context ∧
      option fields ["entry"] readEntry (.single "./src/index.js") = some c.entry ∧
      option fields ["output"] readOutput {} = some c.output ∧
      option fields ["module"] readModule {} = some c.module ∧
      option fields ["resolve"] readResolve {} = some c.resolve ∧
      option fields ["externals"] (readMap readString) ∅ = some c.externals ∧
      option fields ["optimization"] readOptimization {} = some c.optimization ∧
      option fields ["asset"] readAsset {} = some c.asset ∧
      option fields ["parallelism"] readNat 0 = some c.parallelism ∧
      option fields ["cache"] readBool true = some c.cache ∧
      c.unclaimed = unclaimedOf fields configNames := by
  rw [ofJson?] at h
  obtain ⟨fields, hfields, h⟩ := of_bind h
  obtain ⟨_, hmode, h⟩ := of_bind h
  obtain ⟨_, hcontext, h⟩ := of_bind h
  obtain ⟨_, hentry, h⟩ := of_bind h
  obtain ⟨_, houtput, h⟩ := of_bind h
  obtain ⟨_, hmodule, h⟩ := of_bind h
  obtain ⟨_, hresolve, h⟩ := of_bind h
  obtain ⟨_, hexternals, h⟩ := of_bind h
  obtain ⟨_, hoptimization, h⟩ := of_bind h
  obtain ⟨_, hasset, h⟩ := of_bind h
  obtain ⟨_, hparallelism, h⟩ := of_bind h
  obtain ⟨_, hcache, h⟩ := of_bind h
  cases h
  exact ⟨fields, fields?_eq_some hfields, hmode, hcontext, hentry, houtput, hmodule, hresolve,
    hexternals, hoptimization, hasset, hparallelism, hcache, rfl⟩

end WebBundle.Proofs.ReadOptions
