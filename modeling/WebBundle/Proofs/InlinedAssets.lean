import Mathlib.Data.Finset.Card
import Mathlib.Data.Prod.Lex
import WebBundle.Asset.Delivery
import WebBundle.Proofs.GraphGrowth

namespace WebBundle.Proofs.InlinedAssets

open Delivery
open WebBundle.Proofs.GraphGrowth (get_of_size_le)

variable {o : AssetOptions} {template : String} {g : ModuleGraph} {delivery : Delivery}
  {id other importer : ModuleId} {budget : Nat}

theorem mem_all : (id, delivery) ∈ Delivery.all o template g ↔
    id < g.size ∧ of? o template g (overBudget o g) id = some delivery := by
  rw [Delivery.all, List.mem_filterMap]
  constructor
  · rintro ⟨id', hid, heq⟩
    obtain ⟨delivery', hdelivery, heq⟩ := Option.map_eq_some_iff.mp heq
    obtain ⟨rfl, rfl⟩ := Prod.mk.inj heq
    exact ⟨List.mem_range.mp hid, hdelivery⟩
  · rintro ⟨hid, hdelivery⟩
    exact ⟨id, List.mem_range.mpr hid, by rw [hdelivery]; rfl⟩

theorem nodup_deliveries (o : AssetOptions) (template : String) (g : ModuleGraph) :
    ((Delivery.all o template g).map Prod.fst).Nodup := by
  rw [Delivery.all, List.map_filterMap]
  refine List.Nodup.filterMap (fun id id' found hfound hfound' => ?_) List.nodup_range
  simp only [Option.map_map, Option.mem_def, Option.map_eq_some_iff, Function.comp_apply]
    at hfound hfound'
  obtain ⟨-, -, rfl⟩ := hfound
  obtain ⟨-, -, rfl⟩ := hfound'
  rfl

/-- A module is inlined as a data URI. -/
def Inlined (o : AssetOptions) (template : String) (g : ModuleGraph) (id : ModuleId) : Prop :=
  ∃ uri, (id, .inlined uri) ∈ Delivery.all o template g

/-- A module is emitted as a file. -/
def Emitted (o : AssetOptions) (template : String) (g : ModuleGraph) (id : ModuleId) : Prop :=
  ∃ file, (id, .emitted file) ∈ Delivery.all o template g

/-- A module is an asset, and its size decides how it is delivered. -/
def IsAuto (g : ModuleGraph) (id : ModuleId) : Prop :=
  ∃ threshold kind, (g.get id).type = .asset (.auto threshold) kind

/-- The size of an asset decides and is below the limit: that of its rule, or else that of its kind, or
else the default. -/
def BelowLimit (o : AssetOptions) (g : ModuleGraph) (id : ModuleId) : Prop :=
  ∃ threshold kind, (g.get id).type = .asset (.auto threshold) kind ∧
    (g.get id).size < threshold.getD ((o.inlineThresholds.get? kind).getD o.defaultInlineThreshold)

theorem isCandidate_iff : isCandidate o g id = true ↔ BelowLimit o g id := by
  rw [isCandidate, BelowLimit, limit?]
  split
  · next threshold kind htype =>
      simp only [Option.any_some, decide_eq_true_eq, htype, ModuleType.asset.injEq,
        AssetPolicy.auto.injEq, AssetOptions.thresholdFor]
      constructor
      · exact fun h => ⟨threshold, kind, ⟨rfl, rfl⟩, h⟩
      · rintro ⟨_, _, ⟨rfl, rfl⟩, h⟩
        exact h
  · next hother =>
      simp only [Option.any_none, Bool.false_eq_true, false_iff]
      rintro ⟨threshold, kind, htype, -⟩
      exact hother threshold kind htype

instance : Decidable (BelowLimit o g id) := decidable_of_iff _ isCandidate_iff

theorem IsAuto.lt_size (h : IsAuto g id) : id < g.size := by
  obtain ⟨threshold, kind, htype⟩ := h
  by_contra hge
  rw [get_of_size_le (Nat.not_lt.mp hge)] at htype
  exact ModuleType.noConfusion htype

theorem IsAuto.inlined_iff_not_mem (h : IsAuto g id) :
    (Inlined o template g id ↔ BelowLimit o g id ∧ id ∉ overBudget o g) ∧
      (Emitted o template g id ↔ ¬ Inlined o template g id) := by
  have hlt := h.lt_size
  obtain ⟨threshold, kind, htype⟩ := h
  simp only [Inlined, Emitted, mem_all, of?, htype, hlt, true_and, ← isCandidate_iff]
  by_cases hcandidate : isCandidate o g id = true <;> by_cases hover : id ∈ overBudget o g <;>
    simp [hcandidate, hover]

/-- The place of an asset in the order in which assets use up a budget: the smaller come first, and of equal
size those that were found earlier. -/
def rank (g : ModuleGraph) (id : ModuleId) : Nat ×ₗ Nat := toLex ((g.get id).size, id)

/-- The modules that a module imports in any way, each once. -/
def targetsOf (g : ModuleGraph) (importer : ModuleId) : Finset ModuleId :=
  ((g.get importer).dependencies.map (·.target)).toFinset

/-- The assets below their limit that an importer of an asset needs as well, and that use up its budget
before. -/
def ahead (o : AssetOptions) (g : ModuleGraph) (importer id : ModuleId) : Finset ModuleId :=
  (targetsOf g importer).filter fun other => BelowLimit o g other ∧ rank g other < rank g id

theorem precedes_iff : precedes g id other = true ↔ rank g id ≤ rank g other := by
  simp only [precedes, rank, Prod.Lex.toLex_le_toLex, Bool.or_eq_true, Bool.and_eq_true,
    decide_eq_true_eq, beq_iff_eq]

theorem rank_injective : Function.Injective (rank g) := fun _ _ h =>
  congrArg (fun place => (ofLex place).2) h

theorem mem_ranked_iff : id ∈ ranked o g importer ↔ id ∈ targetsOf g importer ∧ BelowLimit o g id := by
  rw [ranked, List.mem_mergeSort, IdSet.mem_toList, IdSet.mem_filter, IdSet.mem_ofList, targetsOf,
    List.mem_toFinset, isCandidate_iff]

theorem pairwise_ranked (o : AssetOptions) (g : ModuleGraph) (importer : ModuleId) :
    (ranked o g importer).Pairwise fun first second => rank g first < rank g second := by
  have hsorted : (ranked o g importer).Pairwise fun a b => precedes g a b = true := by
    refine List.pairwise_mergeSort (fun a b c => ?_) (fun a b => ?_) _
    · simp only [precedes_iff]
      exact le_trans
    · simp only [Bool.or_eq_true, precedes_iff]
      exact le_total _ _
  have hnodup : (ranked o g importer).Nodup :=
    (List.mergeSort_perm _ _).nodup_iff.mpr ((IdSet.pairwise_toList _).imp Nat.ne_of_lt)
  exact (hsorted.and hnodup).imp fun ⟨hle, hne⟩ =>
    lt_of_le_of_ne (precedes_iff.mp hle) (rank_injective.ne hne)

theorem mem_drop_iff {ranking : List ModuleId}
    (hranking : ranking.Pairwise fun first second => rank g first < rank g second)
    (hid : id ∈ ranking) :
    id ∈ ranking.drop budget ↔ budget ≤ (ranking.filter fun other => rank g other < rank g id).length := by
  induction ranking generalizing budget with
  | nil => exact absurd hid List.not_mem_nil
  | cons first rest ih =>
      obtain ⟨hfirst, hrest⟩ := List.pairwise_cons.mp hranking
      rcases List.mem_cons.mp hid with rfl | hmem
      · -- The asset is first: nothing behind it ranks before it, and it is dropped for any budget at all.
        have hnone : rest.filter (fun other => rank g other < rank g id) = [] := by
          rw [List.filter_eq_nil_iff]
          intro other hother hbefore
          exact lt_asymm (hfirst other hother) (of_decide_eq_true hbefore)
        have hout : id ∉ rest := fun h => lt_irrefl _ (hfirst id h)
        rw [List.filter_cons, if_neg (by simp), hnone]
        cases budget with
        | zero => simp
        | succ budget =>
            simp only [List.drop_succ_cons, List.length_nil, Nat.le_zero, Nat.succ_ne_zero, iff_false]
            exact fun h => hout (List.mem_of_mem_drop h)
      · rw [List.filter_cons, if_pos (decide_eq_true (hfirst id hmem)), List.length_cons]
        cases budget with
        | zero => simpa using hid
        | succ budget => rw [List.drop_succ_cons, ih hrest hmem, Nat.succ_le_succ_iff]

theorem card_ahead : (ahead o g importer id).card =
    ((ranked o g importer).filter fun other => rank g other < rank g id).length := by
  have hnodup : (ranked o g importer).Nodup :=
    (pairwise_ranked o g importer).imp fun h => fun heq => lt_irrefl _ (heq ▸ h)
  have heq : ahead o g importer id =
      ((ranked o g importer).filter fun other => rank g other < rank g id).toFinset := by
    ext other
    rw [ahead, Finset.mem_filter, List.mem_toFinset, List.mem_filter, mem_ranked_iff,
      decide_eq_true_eq, and_assoc]
  rw [heq, List.toFinset_card_of_nodup (hnodup.filter _)]

/-- An importer has no budget left for an asset if it needs too many others before. -/
theorem mem_drop_ranked_iff : id ∈ (ranked o g importer).drop budget ↔
    id ∈ targetsOf g importer ∧ BelowLimit o g id ∧ budget ≤ (ahead o g importer id).card := by
  rw [card_ahead, ← and_assoc, ← mem_ranked_iff]
  constructor
  · intro h
    have hid := List.mem_of_mem_drop h
    exact ⟨hid, (mem_drop_iff (pairwise_ranked o g importer) hid).mp h⟩
  · rintro ⟨hid, hle⟩
    exact (mem_drop_iff (pairwise_ranked o g importer) hid).mpr hle

theorem lt_size_of_mem_targetsOf (h : id ∈ targetsOf g importer) : importer < g.size := by
  by_contra hge
  rw [targetsOf, get_of_size_le (Nat.not_lt.mp hge)] at h
  exact absurd h (Finset.notMem_empty id)

theorem mem_overBudget_iff (hbudget : o.maxInlinePerModule = some budget) :
    id ∈ overBudget o g ↔ ∃ importer, id ∈ (ranked o g importer).drop budget := by
  simp only [overBudget, hbudget, List.mem_flatMap, List.mem_range]
  constructor
  · rintro ⟨importer, -, h⟩
    exact ⟨importer, h⟩
  · rintro ⟨importer, h⟩
    exact ⟨importer, lt_size_of_mem_targetsOf (mem_drop_ranked_iff.mp h).1, h⟩

theorem not_mem_overBudget_iff (hlimit : BelowLimit o g id) : id ∉ overBudget o g ↔
    ∀ budget, o.maxInlinePerModule = some budget → ∀ importer, id ∈ targetsOf g importer →
      (ahead o g importer id).card < budget := by
  constructor
  · intro h budget hbudget importer htarget
    by_contra hge
    refine h ((mem_overBudget_iff hbudget).mpr ⟨importer, mem_drop_ranked_iff.mpr ?_⟩)
    exact ⟨htarget, hlimit, Nat.not_lt.mp hge⟩
  · intro h hover
    cases hbudget : o.maxInlinePerModule with
    | none => simp [overBudget, hbudget] at hover
    | some budget =>
        obtain ⟨importer, hdrop⟩ := (mem_overBudget_iff hbudget).mp hover
        obtain ⟨htarget, -, hle⟩ := mem_drop_ranked_iff.mp hdrop
        exact Nat.not_lt.mpr hle (h budget hbudget importer htarget)

open Classical in
/-- The assets that a module imports and that are inlined because of their size. -/
noncomputable def inlinedTargets (o : AssetOptions) (template : String) (g : ModuleGraph)
    (importer : ModuleId) : Finset ModuleId :=
  (targetsOf g importer).filter fun id => IsAuto g id ∧ Inlined o template g id

theorem card_inlinedTargets_le (hbudget : o.maxInlinePerModule = some budget) :
    (inlinedTargets o template g importer).card ≤ budget := by
  classical
  have hsubset : inlinedTargets o template g importer ⊆
      ((ranked o g importer).take budget).toFinset := by
    intro id hid
    obtain ⟨htarget, hauto, hinlined⟩ := Finset.mem_filter.mp hid
    obtain ⟨hlimit, hover⟩ := hauto.inlined_iff_not_mem.1.mp hinlined
    have hranked : id ∈ (ranked o g importer).take budget ++ (ranked o g importer).drop budget := by
      rw [List.take_append_drop]
      exact mem_ranked_iff.mpr ⟨htarget, hlimit⟩
    refine List.mem_toFinset.mpr ((List.mem_append.mp hranked).resolve_right fun hdrop => ?_)
    exact hover ((mem_overBudget_iff hbudget).mpr ⟨importer, hdrop⟩)
  calc (inlinedTargets o template g importer).card
      ≤ ((ranked o g importer).take budget).toFinset.card := Finset.card_le_card hsubset
    _ ≤ ((ranked o g importer).take budget).length := List.toFinset_card_le _
    _ ≤ budget := List.length_take_le _ _

/-- An asset whose size decides is inlined if and only if it is below its limit and no module that imports
it needs as many other such assets before it as the budget allows; otherwise it is emitted. No module
has more of them inlined among its imports than the budget allows. -/
theorem inlined_iff (o : AssetOptions) (template : String) (g : ModuleGraph) :
    (∀ id, IsAuto g id →
      (Inlined o template g id ↔ BelowLimit o g id ∧
        ∀ budget, o.maxInlinePerModule = some budget → ∀ importer, id ∈ targetsOf g importer →
          (ahead o g importer id).card < budget) ∧
      (Emitted o template g id ↔ ¬ Inlined o template g id)) ∧
    ∀ budget, o.maxInlinePerModule = some budget → ∀ importer,
      (inlinedTargets o template g importer).card ≤ budget := by
  refine ⟨fun id hauto => ?_, fun budget hbudget importer => card_inlinedTargets_le hbudget⟩
  exact ⟨hauto.inlined_iff_not_mem.1.trans (and_congr_right not_mem_overBudget_iff),
    hauto.inlined_iff_not_mem.2⟩

def script (key : String) (imports : List ModuleId) : Module where
  key
  path := ⟨"/p/" ++ key⟩
  origin := .source
  dependencies := imports.map fun id => ⟨toString id, id, .static⟩

def image (key : String) (size : Nat) : Module where
  key
  path := ⟨"/p/" ++ key⟩
  origin := .source
  type := .asset (.auto none) "image"
  artifact := ⟨.binary, ⟨Array.replicate size 0⟩⟩

/-- A page needs three images, and a script needs the largest of them alone. -/
def gallery : ModuleGraph where
  modules := [script "page.js" [4, 3, 2], script "zoom.js" [4], image "tiny.png" 1, image "small.png" 2,
    image "medium.png" 3]

/-- With a budget of two images the largest is emitted, although one of its importers has budget left. -/
theorem inlined_iff_gallery :
    IsAuto gallery 3 ∧ Inlined { maxInlinePerModule := some 2 } "[name][ext]" gallery 3 ∧
      IsAuto gallery 4 ∧ Emitted { maxInlinePerModule := some 2 } "[name][ext]" gallery 4 ∧
      (inlinedTargets { maxInlinePerModule := some 2 } "[name][ext]" gallery 0).card ≤ 2 := by
  obtain ⟨hall, hcard⟩ := inlined_iff { maxInlinePerModule := some 2 } "[name][ext]" gallery
  have hsmall : IsAuto gallery 3 := ⟨none, "image", rfl⟩
  have hmedium : IsAuto gallery 4 := ⟨none, "image", rfl⟩
  have hrivals : ∀ importer < gallery.size, 3 ∈ targetsOf gallery importer →
      (ahead { maxInlinePerModule := some 2 } gallery importer 3).card < 2 := by decide
  refine ⟨hsmall, (hall 3 hsmall).1.mpr ⟨by decide, ?_⟩, hmedium, (hall 4 hmedium).2.mpr ?_,
    hcard 2 rfl 0⟩
  · intro budget hbudget importer htarget
    obtain rfl : 2 = budget := Option.some.inj hbudget
    exact hrivals importer (lt_size_of_mem_targetsOf htarget) htarget
  · intro hinlined
    have hlt := ((hall 4 hmedium).1.mp hinlined).2 2 rfl 0 (by decide)
    revert hlt
    decide

end WebBundle.Proofs.InlinedAssets
