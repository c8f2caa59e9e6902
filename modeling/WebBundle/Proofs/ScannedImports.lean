import WebBundle.Proofs.StatementForms

namespace WebBundle.Proofs.ScannedImports

open Text Script TextSearch CallForms StatementForms

variable {text : List Char}

/-- Somewhere in a text a word begins that has a form. -/
def Somewhere (form : List Char → Prop) (text : List Char) : Prop :=
  ∃ front rear, text = front ++ rear ∧ atWordStart front.getLast? = true ∧ form rear

/-- A dynamic import from a place on. -/
def IsDynamicCall (text : List Char) : Prop := ∃ specifier rest, DynamicCall specifier rest text

/-- One of the four forms of an import. -/
def ImportForm (text : List Char) : Prop :=
  ImportStatement text ∨ ExportStatement text ∨ RequireCall text ∨ IsDynamicCall text

theorem finds_eq_nil_iff_not_somewhere {recognize : Recognizer Request} {look : List Char → Outlook}
    {form : List Char → Prop} (hlook : Forward look) (hnil : ¬ form [])
    (hform : ∀ previous text, (recognize previous (look text) text).isSome ↔
      atWordStart previous = true ∧ form text) :
    finds recognize (look text) text = [] ↔ ¬ Somewhere form text := by
  rw [finds_eq_nil_iff hlook]
  constructor
  · rintro h ⟨front, rear, rfl, hstart, hrear⟩
    obtain ⟨c, rear, rfl⟩ := List.exists_cons_of_ne_nil fun hempty => hnil (hempty ▸ hrear)
    have hsome := (hform front.getLast? (c :: rear)).mpr ⟨hstart, hrear⟩
    simp [h front c rear rfl] at hsome
  · intro h front c rear htext
    rw [← Option.not_isSome_iff_eq_none, hform]
    rintro ⟨hstart, hrear⟩
    exact h ⟨front, c :: rear, htext, hstart, hrear⟩

theorem finds_importStatement :
    finds importStatement (clauseOutlook text) text = [] ↔ ¬ Somewhere ImportStatement text :=
  finds_eq_nil_iff_not_somewhere (forward_outlook _ _ _) (by simp [ImportStatement])
    fun _ _ => isSome_importStatement

theorem finds_exportStatement :
    finds exportStatement (braceOutlook text) text = [] ↔ ¬ Somewhere ExportStatement text :=
  finds_eq_nil_iff_not_somewhere (forward_outlook _ _ _) (by simp [ExportStatement])
    fun _ _ => isSome_exportStatement

theorem finds_requireCall : finds requireCall [] text = [] ↔ ¬ Somewhere RequireCall text :=
  finds_eq_nil_iff_not_somewhere forward_nil (by simp [RequireCall, Call]) fun _ _ =>
    isSome_requireCall

theorem finds_dynamicCall :
    finds dynamicCall (commentOutlook text) text = [] ↔ ¬ Somewhere IsDynamicCall text :=
  finds_eq_nil_iff_not_somewhere (forward_outlook _ _ _)
    (by simp [IsDynamicCall, DynamicCall, Call])
    fun _ _ => isSome_dynamicCall

theorem somewhere_or {form form' : List Char → Prop} :
    Somewhere (fun rear => form rear ∨ form' rear) text ↔ Somewhere form text ∨
      Somewhere form' text := by
  simp only [Somewhere, and_or_left, exists_or]

theorem mem_inOrder {found : List (Nat × Import)} {i : Import} :
    i ∈ Import.inOrder found ↔ ∃ place, (place, i) ∈ found := by
  simp [Import.inOrder, Import.sortByPlace]

theorem inOrder_eq_nil_iff {found : List (Nat × Import)} : Import.inOrder found = [] ↔
    found = [] := by
  simp only [List.eq_nil_iff_forall_not_mem, mem_inOrder, not_exists, Prod.forall]
  exact forall_comm

/-- A script imports nothing, if and only if its code has none of the four forms. -/
theorem imports_eq_nil_iff (source : String) :
    imports source = [] ↔ ¬ Somewhere ImportForm (withoutComments .code {} source.toList) := by
  have hforms : ∀ text, Somewhere ImportForm text ↔ Somewhere ImportStatement text ∨
      Somewhere ExportStatement text ∨ Somewhere RequireCall text ∨
        Somewhere IsDynamicCall text := by
    intro text
    rw [← somewhere_or, ← somewhere_or, ← somewhere_or]
    rfl
  simp only [imports, inOrder_eq_nil_iff, List.append_eq_nil_iff, importsOf, List.map_eq_nil_iff,
    finds_importStatement, finds_exportStatement, finds_requireCall, finds_dynamicCall, hforms,
      not_or, and_assoc]

theorem exists_dynamic_iff (source : String) : (∃ i ∈ imports source, i.kind = .dynamic) ↔
    Somewhere IsDynamicCall (withoutComments .code {} source.toList) := by
  have hkind : ∀ {recognize outlook kind code place i},
      (place, i) ∈ importsOf recognize outlook kind code → i.kind = kind := by
    intro recognize outlook kind code place i h
    obtain ⟨find, -, heq⟩ := List.mem_map.mp h
    exact congrArg (·.2.kind) heq.symm
  rw [← Classical.not_not (a := Somewhere _ _), ← finds_dynamicCall]
  constructor
  · rintro ⟨i, hi, hdynamic⟩ hnone
    obtain ⟨place, hplace⟩ := mem_inOrder.mp hi
    simp only [List.mem_append] at hplace
    rcases hplace with ((h | h) | h) | h
    · exact absurd (hdynamic.symm.trans (hkind h)) (by decide)
    · exact absurd (hdynamic.symm.trans (hkind h)) (by decide)
    · exact absurd (hdynamic.symm.trans (hkind h)) (by decide)
    · rw [importsOf, hnone] at h
      exact absurd h (by simp)
  · intro hsome
    obtain ⟨⟨place, request⟩, hfind⟩ := List.exists_mem_of_ne_nil _ hsome
    exact ⟨_, mem_inOrder.mpr ⟨_, List.mem_append_right _ (List.mem_map_of_mem hfind)⟩, rfl⟩

theorem loadOnDemand_eq_self {source : String} (h : ¬ Somewhere IsDynamicCall source.toList) :
    loadOnDemand source = source := by
  rw [loadOnDemand, replace_eq_self _ (finds_dynamicCall.mpr h), String.ofList_toList]

end WebBundle.Proofs.ScannedImports
