import WebBundle.Path

/-!
Paths whose parts all say something. Such a path is told by its parts, and every normalized path is one.
-/

namespace WebBundle.Proofs.TidyPaths

open WebBundle.Path

/-- A part that stands for a component wherever it is in a path. -/
structure IsName (part : List Char) : Prop where
  speaks : isVoid part = false
  whole : '/' ∉ part

def ofNames (absolute : Bool) (names : List (List Char)) : Path :=
  ⟨String.ofList ((if absolute then ['/'] else []) ++ joinParts names)⟩

def Tidy (p : Path) : Prop :=
  ∃ absolute names, (∀ name ∈ names, IsName name) ∧ p = ofNames absolute names

/-- The parts that say something: the root, which is an empty part, and the names. -/
def spoken (absolute : Bool) (names : List (List Char)) : List (List Char) :=
  (if absolute then [[]] else []) ++ names

def componentOf (part : List Char) : Component :=
  if part = [] then .root else if part = ['.', '.'] then .parent else .name part

variable {absolute : Bool} {names init : List (List Char)} {name part : List Char}

theorem isVoid_iff : isVoid part = true ↔ part = [] ∨ part = ['.'] := by
  simp [isVoid]

theorem IsName.ne_nil (h : IsName name) : name ≠ [] := by
  rintro rfl
  exact absurd h.speaks (by decide)

theorem isName_iff : IsName name ↔ name ≠ [] ∧ name ≠ ['.'] ∧ '/' ∉ name := by
  constructor
  · intro h
    refine ⟨h.ne_nil, ?_, h.whole⟩
    rintro rfl
    exact absurd h.speaks (by decide)
  · rintro ⟨hnil, hdot, hwhole⟩
    refine ⟨?_, hwhole⟩
    rw [← Bool.not_eq_true, isVoid_iff, not_or]
    exact ⟨hnil, hdot⟩

theorem eq_of_toList {p q : Path} (h : p.text.toList = q.text.toList) : p = q :=
  congrArg Path.mk (String.toList_inj.mp h)

theorem split_of_whole (h : '/' ∉ part) : split part = [part] := by
  induction part with
  | nil => rfl
  | cons c rest ih =>
      rw [List.mem_cons, not_or] at h
      simp only [split, if_neg (Ne.symm h.1), ih h.2]

theorem split_ne_nil (text : List Char) : split text ≠ [] := by
  fun_cases split text <;> simp

theorem split_append_cons (front rear : List Char) :
    split (front ++ '/' :: rear) = split front ++ split rear := by
  induction front with
  | nil => simp [split]
  | cons c front ih =>
      by_cases hc : c = '/'
      · simp [split, hc, ih]
      · obtain ⟨part, parts, hparts⟩ := List.exists_cons_of_ne_nil (split_ne_nil front)
        simp [split, hc, ih, hparts]

theorem split_append (rest : List Char) (h : '/' ∉ part) :
    split (part ++ '/' :: rest) = part :: split rest := by
  rw [split_append_cons, split_of_whole h, List.singleton_append]

theorem joinParts_cons (hne : names ≠ []) :
    joinParts (part :: names) = part ++ '/' :: joinParts names := by
  cases names with
  | nil => exact absurd rfl hne
  | cons first rest => rfl

theorem joinParts_split (text : List Char) : joinParts (split text) = text := by
  induction text with
  | nil => rfl
  | cons c rest ih =>
      rw [split]
      split
      · next hc => rw [joinParts_cons (split_ne_nil rest), ih, hc, List.nil_append]
      · obtain ⟨first, parts, hsplit⟩ := List.exists_cons_of_ne_nil (split_ne_nil rest)
        rw [hsplit] at ih ⊢
        cases parts <;> exact congrArg (c :: ·) ih

theorem joinParts_append {others : List (List Char)} (hnames : names ≠ []) (hothers : others ≠ []) :
    joinParts (names ++ others) = joinParts names ++ '/' :: joinParts others := by
  induction names with
  | nil => exact absurd rfl hnames
  | cons first rest ih =>
      cases rest with
      | nil => exact joinParts_cons hothers
      | cons second rest =>
          have hrest : second :: rest ≠ [] := List.cons_ne_nil _ _
          rw [List.cons_append, joinParts_cons (by simp), ih hrest, joinParts_cons hrest,
            List.append_assoc, List.cons_append]

theorem split_joinParts (hne : names ≠ []) (h : ∀ name ∈ names, '/' ∉ name) :
    split (joinParts names) = names := by
  induction names with
  | nil => exact absurd rfl hne
  | cons first rest ih =>
      have hfirst : '/' ∉ first := h first List.mem_cons_self
      cases rest with
      | nil => exact split_of_whole hfirst
      | cons second rest =>
          have hne : second :: rest ≠ [] := List.cons_ne_nil _ _
          rw [joinParts_cons hne, split_append _ hfirst,
            ih hne fun name hname => h name (List.mem_cons_of_mem _ hname)]

theorem whole_of_mem_split {text : List Char} (h : part ∈ split text) : '/' ∉ part := by
  induction text generalizing part with
  | nil =>
      rw [List.mem_singleton.mp h]
      exact List.not_mem_nil
  | cons c rest ih =>
      rw [split] at h
      split at h
      · rcases List.mem_cons.mp h with rfl | h
        · exact List.not_mem_nil
        · exact ih h
      · next hc =>
          -- the character joins the first part of the rest
          cases hrest : split rest with
          | nil =>
              rw [hrest] at h
              rw [List.mem_singleton.mp h]
              simpa using Ne.symm hc
          | cons first others =>
              rw [hrest] at h ih
              rcases List.mem_cons.mp h with rfl | h
              · rw [List.mem_cons, not_or]
                exact ⟨Ne.symm hc, ih List.mem_cons_self⟩
              · exact ih (List.mem_cons_of_mem _ h)

/-- What stands before the last of several names. -/
def lead (absolute : Bool) (init : List (List Char)) : List Char :=
  (if absolute then ['/'] else []) ++ if init = [] then [] else joinParts init ++ ['/']

theorem joinParts_concat (init : List (List Char)) (name : List Char) :
    joinParts (init ++ [name]) = (if init = [] then [] else joinParts init ++ ['/']) ++ name := by
  induction init with
  | nil => rfl
  | cons first rest ih =>
      rw [List.cons_append, joinParts_cons (by simp), ih, if_neg (List.cons_ne_nil _ _)]
      cases rest with
      | nil => simp [joinParts]
      | cons second rest => simp [joinParts_cons]

theorem text_concat (absolute : Bool) (init : List (List Char)) (name : List Char) :
    (ofNames absolute (init ++ [name])).text.toList = lead absolute init ++ name := by
  simp only [ofNames, lead, String.toList_ofList, joinParts_concat, List.append_assoc]

theorem parts_ofNames (h : ∀ name ∈ names, IsName name) (hne : names ≠ []) :
    (ofNames absolute names).parts = spoken absolute names := by
  have hsplit : split (joinParts names) = names :=
    split_joinParts hne fun name hname => (h name hname).whole
  cases absolute with
  | false => simpa [ofNames, parts, spoken] using hsplit
  | true => simpa [ofNames, parts, spoken, split] using hsplit

theorem parts_root : (ofNames true []).parts = [[], []] := by simp [ofNames, parts, joinParts, split]

theorem parts_here : (ofNames false []).parts = [[]] := by simp [ofNames, parts, joinParts, split]

theorem componentOf?_of_isName (h : IsName name) : componentOf? name = some (componentOf name) := by
  rw [componentOf?, h.speaks, componentOf, if_neg h.ne_nil, if_neg Bool.false_ne_true]
  split <;> rfl

theorem firstComponent?_of_isName (h : IsName name) (alone : Bool) :
    firstComponent? name alone = some (componentOf name) := by
  obtain ⟨hnil, hdot, -⟩ := isName_iff.mp h
  rw [firstComponent?, if_neg hnil, if_neg hdot, componentOf, if_neg hnil]
  split <;> rfl

theorem filterMap_componentOf? (h : ∀ name ∈ names, IsName name) :
    names.filterMap componentOf? = names.map componentOf := by
  induction names with
  | nil => rfl
  | cons first rest ih =>
      rw [List.filterMap_cons_some (componentOf?_of_isName (h first List.mem_cons_self)),
        ih fun name hname => h name (List.mem_cons_of_mem _ hname), List.map_cons]

theorem components_ofNames (h : ∀ name ∈ names, IsName name) :
    (ofNames absolute names).components = (spoken absolute names).map componentOf := by
  rw [components]
  cases names with
  | nil =>
      cases absolute with
      | false =>
          rw [parts_here]
          rfl
      | true =>
          rw [parts_root]
          rfl
  | cons first rest =>
      have hfirst : IsName first := h first List.mem_cons_self
      have hrest : ∀ name ∈ rest, IsName name := fun name hname =>
        h name (List.mem_cons_of_mem _ hname)
      rw [parts_ofNames h (List.cons_ne_nil _ _)]
      cases absolute with
      | false =>
          rw [spoken, if_neg Bool.false_ne_true, List.nil_append, componentsOfParts,
            firstComponent?_of_isName hfirst, filterMap_componentOf? hrest]
          rfl
      | true =>
          rw [spoken, if_pos rfl, List.singleton_append, componentsOfParts,
            filterMap_componentOf? h]
          rfl

theorem componentOf_injective : Function.Injective componentOf := by
  intro first second h
  by_cases hroot : first = [] <;> by_cases hroot' : second = [] <;>
    by_cases hup : first = ['.', '.'] <;> by_cases hup' : second = ['.', '.'] <;>
    simp_all [componentOf]

theorem ofNames_eq_of_spoken {absolute' : Bool} {names' : List (List Char)}
    (h : ∀ name ∈ names, IsName name) (h' : ∀ name ∈ names', IsName name)
    (heq : spoken absolute names = spoken absolute' names') :
    ofNames absolute names = ofNames absolute' names' := by
  cases absolute <;> cases absolute'
  · rw [show names = names' from heq]
  · obtain rfl : names = [] :: names' := heq
    exact absurd rfl (h [] List.mem_cons_self).ne_nil
  · obtain rfl : [] :: names = names' := heq
    exact absurd rfl (h' [] List.mem_cons_self).ne_nil
  · obtain rfl : names = names' := List.tail_eq_of_cons_eq heq
    rfl

theorem isAbsolute_ofList (h : IsName name) : (Path.mk (String.ofList name)).isAbsolute = false := by
  rw [isAbsolute, String.toList_ofList]
  cases name with
  | nil => rfl
  | cons c rest =>
      have hc : c ≠ '/' := fun hc => h.whole (hc ▸ List.mem_cons_self)
      simpa using hc

theorem toList_join (base : Path) (h : IsName name) :
    (base.join ⟨String.ofList name⟩).text.toList =
      (if base.text.toList = [] ∨ base.text.toList.getLast? = some '/' then base.text.toList
        else base.text.toList ++ ['/']) ++ name := by
  have hempty : base.text = "" ↔ base.text.toList = [] := by
    rw [← String.toList_inj]
    rfl
  rw [join, isAbsolute_ofList h, if_neg Bool.false_ne_true]
  simp only [Bool.or_eq_true, decide_eq_true_eq, beq_iff_eq, hempty]
  split <;> simp

theorem getLast?_concat (h : IsName name) (absolute : Bool) (init : List (List Char)) :
    (lead absolute init ++ name).getLast? ≠ some '/' := by
  rw [List.getLast?_append, List.getLast?_eq_some_getLast h.ne_nil, Option.some_or]
  intro hlast
  have hmem := List.getLast_mem h.ne_nil
  rw [Option.some.inj hlast] at hmem
  exact h.whole hmem

theorem join_isName (h : ∀ name ∈ names, IsName name) (hname : IsName name) :
    (ofNames absolute names).join ⟨String.ofList name⟩ = ofNames absolute (names ++ [name]) := by
  apply eq_of_toList
  rw [toList_join _ hname, text_concat]
  congr 1
  rcases List.eq_nil_or_concat names with rfl | ⟨init, last, rfl⟩
  · cases absolute <;> simp [ofNames, joinParts, lead]
  · rw [List.concat_eq_append] at h ⊢
    have hlast : IsName last := h last (by simp)
    rw [text_concat, if_neg]
    · simp [lead, joinParts_concat]
    · rw [not_or]
      exact ⟨by simp [hlast.ne_nil], getLast?_concat hlast absolute init⟩

theorem dropVoid_cons (h : IsName part) (rest : List (List Char)) :
    dropVoid (part :: rest) = part :: rest := by
  cases rest with
  | nil => rfl
  | cons second rest =>
      rw [dropVoid]
      · rw [if_neg (by simp [h.speaks])]
      · exact List.cons_ne_nil second rest

theorem dropVoid_spoken (h : ∀ name ∈ names, IsName name) :
    dropVoid (spoken absolute names).reverse = (spoken absolute names).reverse := by
  rcases List.eq_nil_or_concat names with rfl | ⟨init, last, rfl⟩
  · cases absolute <;> rfl
  · rw [List.concat_eq_append] at h ⊢
    rw [spoken, ← List.append_assoc, List.reverse_concat, dropVoid_cons (h last (by simp))]

theorem ofParts_spoken (h : ∀ name ∈ names, IsName name) (hne : spoken absolute names ≠ []) :
    ofParts (spoken absolute names) = ofNames absolute names := by
  cases absolute with
  | false =>
      cases names with
      | nil => exact absurd rfl hne
      | cons first rest =>
          have hfirst : first ≠ [] := (h first List.mem_cons_self).ne_nil
          rw [spoken, if_neg Bool.false_ne_true, List.nil_append, ofParts]
          · rfl
          · simp [hfirst]
  | true =>
      cases names with
      | nil => rfl
      | cons first rest => rfl

theorem parent_concat (h : ∀ part ∈ init ++ [name], IsName part) :
    (ofNames absolute (init ++ [name])).parent = some (ofNames absolute init) := by
  have hname : IsName name := h name (by simp)
  have hinit : ∀ part ∈ init, IsName part := fun part hpart => h part (by simp [hpart])
  rw [parent, parts_ofNames h (by simp), spoken, ← List.append_assoc, List.reverse_concat,
    dropVoid_cons hname]
  by_cases hne : spoken absolute init = []
  · have hnil : absolute = false ∧ init = [] := by simpa [spoken] using hne
    obtain ⟨rfl, rfl⟩ := hnil
    simp [hname.ne_nil, ofNames, joinParts]
  · obtain ⟨before, last, heq⟩ := (List.eq_nil_or_concat _).resolve_left hne
    have hparts : ofParts (dropVoid (spoken absolute init).reverse).reverse =
        ofNames absolute init := by
      rw [dropVoid_spoken hinit, List.reverse_reverse, ofParts_spoken hinit hne]
    rw [← hparts, ← spoken, heq, List.concat_eq_append, List.reverse_concat]

theorem parent_ofNames_nil : (ofNames absolute []).parent = none := by
  cases absolute
  · rw [parent, parts_here]
    rfl
  · rw [parent, parts_root]
    rfl

theorem componentOf?_eq_none_iff : componentOf? part = none ↔ isVoid part = true := by
  rw [componentOf?]
  split
  · next hvoid => simp [hvoid]
  · next hspeaks => split <;> simp [hspeaks]

theorem eq_of_componentOf? (h : componentOf? part = some (.name name)) :
    part = name ∧ isVoid name = false ∧ name ≠ ['.', '.'] := by
  rw [componentOf?] at h
  split at h
  · simp at h
  · next hspeaks =>
      split at h
      · simp at h
      · next hparent =>
          obtain rfl : part = name := by simpa using h
          exact ⟨rfl, Bool.not_eq_true _ ▸ hspeaks, hparent⟩

theorem eq_of_firstComponent? {alone : Bool} (h : firstComponent? part alone = some (.name name)) :
    part = name ∧ isVoid name = false ∧ name ≠ ['.', '.'] := by
  rw [firstComponent?] at h
  split at h
  · split at h <;> simp at h
  · next hnil =>
      split at h
      · simp at h
      · next hdot =>
          split at h
          · simp at h
          · next hparent =>
              obtain rfl : part = name := by simpa using h
              exact ⟨rfl, by simp [isVoid, hnil, hdot], hparent⟩

theorem name_of_mem_components {p : Path} (h : .name name ∈ p.components) :
    IsName name ∧ name ≠ ['.', '.'] := by
  have hwhole : ∀ part ∈ p.parts, '/' ∉ part := fun part hpart => whole_of_mem_split hpart
  rw [components] at h
  generalize p.parts = all at h hwhole
  cases all with
  | nil => exact absurd h List.not_mem_nil
  | cons first rest =>
      rw [componentsOfParts, List.mem_append] at h
      rcases h with h | h
      · obtain ⟨rfl, hspeaks, hdescends⟩ := eq_of_firstComponent? (Option.mem_toList.mp h)
        exact ⟨⟨hspeaks, hwhole first List.mem_cons_self⟩, hdescends⟩
      · obtain ⟨part, hpart, hname⟩ := List.mem_filterMap.mp h
        obtain ⟨rfl, hspeaks, hdescends⟩ := eq_of_componentOf? hname
        exact ⟨⟨hspeaks, hwhole part (List.mem_cons_of_mem _ hpart)⟩, hdescends⟩

theorem push_name (h : ∀ name ∈ names, IsName name) (hname : IsName name) :
    (ofNames absolute names).push (.name name) = ofNames absolute (names ++ [name]) :=
  join_isName h hname

theorem push_parent_nil :
    (ofNames absolute []).push .parent = ofNames absolute [['.', '.']] := by
  rw [push, parent_ofNames_nil]
  have hjoin : (ofNames absolute []).join ⟨String.ofList ['.', '.']⟩ =
      ofNames absolute ([] ++ [['.', '.']]) := join_isName (by simp) ⟨by decide, by decide⟩
  exact hjoin

theorem push_parent_concat (h : ∀ part ∈ init ++ [name], IsName part) :
    (ofNames absolute (init ++ [name])).push .parent = ofNames absolute init := by
  rw [push, parent_concat h]

theorem tidy_push {p : Path} (hp : Tidy p) {c : Component}
    (hc : ∀ text, c = .name text → IsName text) : Tidy (p.push c) := by
  obtain ⟨absolute, names, hnames, rfl⟩ := hp
  cases c with
  | root => exact ⟨true, [], by simp, rfl⟩
  | current => exact ⟨absolute, names, hnames, rfl⟩
  | parent =>
      rcases List.eq_nil_or_concat names with rfl | ⟨init, last, rfl⟩
      · refine ⟨absolute, [['.', '.']], ?_, push_parent_nil⟩
        intro name hname
        rw [List.mem_singleton.mp hname]
        exact ⟨by decide, by decide⟩
      · rw [List.concat_eq_append] at hnames ⊢
        exact ⟨absolute, init, fun name hname => hnames name (by simp [hname]),
          push_parent_concat hnames⟩
  | name text =>
      have htext : IsName text := hc text rfl
      refine ⟨absolute, names ++ [text], ?_, push_name hnames htext⟩
      intro name hname
      rcases List.mem_append.mp hname with hname | hname
      · exact hnames name hname
      · rw [List.mem_singleton.mp hname]
        exact htext

theorem tidy_normalize (p : Path) : Tidy p.normalize := by
  have hnames : ∀ c ∈ p.components, ∀ text, c = .name text → IsName text := by
    rintro c hc text rfl
    exact (name_of_mem_components hc).1
  have hempty : Tidy ⟨""⟩ := ⟨false, [], by simp, rfl⟩
  rw [Path.normalize]
  generalize p.components = cs at hnames
  generalize (⟨""⟩ : Path) = start at hempty
  induction cs generalizing start with
  | nil => exact hempty
  | cons c rest ih =>
      exact ih (fun c hc => hnames c (List.mem_cons_of_mem _ hc)) _
        (tidy_push hempty (hnames c List.mem_cons_self))

theorem exists_concat {p : Path} (hp : Tidy p) (h : p.fileName = some name) :
    ∃ absolute init, (∀ part ∈ init ++ [name], IsName part) ∧
      p = ofNames absolute (init ++ [name]) := by
  obtain ⟨absolute, names, hnames, rfl⟩ := hp
  rw [fileName, components_ofNames hnames] at h
  rcases List.eq_nil_or_concat names with rfl | ⟨init, last, rfl⟩
  · cases absolute <;> exact absurd h nofun
  · rw [List.concat_eq_append] at h hnames ⊢
    have hlast : IsName last := hnames last (by simp)
    have hcomponent : componentOf last = .parent ∨ componentOf last = .name last := by
      rw [componentOf, if_neg hlast.ne_nil]
      split
      · exact .inl rfl
      · exact .inr rfl
    rw [spoken, ← List.append_assoc, List.map_append, List.map_singleton, List.getLast?_concat] at h
    rcases hcomponent with hparent | hname
    · rw [hparent] at h
      exact absurd h nofun
    · rw [hname] at h
      obtain rfl := Option.some.inj h
      exact ⟨absolute, init, hnames, rfl⟩

theorem tidy_concat (h : ∀ name ∈ names, IsName name) (hname : IsName name) :
    Tidy (ofNames absolute (names ++ [name])) := by
  refine ⟨absolute, names ++ [name], ?_, rfl⟩
  intro part hpart
  rcases List.mem_append.mp hpart with hpart | hpart
  · exact h part hpart
  · exact List.mem_singleton.mp hpart ▸ hname

theorem tidy_join {p : Path} (hp : Tidy p) (hname : IsName name) :
    Tidy (p.join ⟨String.ofList name⟩) := by
  obtain ⟨absolute, names, hnames, rfl⟩ := hp
  rw [join_isName hnames hname]
  exact tidy_concat hnames hname

theorem tidy_append {p : Path} (hp : Tidy p) {ending : String} (hwhole : '/' ∉ ending.toList)
    (hdot : ending ≠ ".") : Tidy ⟨p.text ++ ending⟩ := by
  obtain ⟨absolute, names, hnames, rfl⟩ := hp
  rcases List.eq_nil_or_concat names with rfl | ⟨init, last, rfl⟩
  · by_cases hempty : ending.toList = []
    · refine ⟨absolute, [], by simp, eq_of_toList ?_⟩
      simp [hempty]
    · have hending : IsName ending.toList := by
        refine isName_iff.mpr ⟨hempty, fun h => hdot ?_, hwhole⟩
        exact String.toList_inj.mp h
      have heq : (⟨(ofNames absolute []).text ++ ending⟩ : Path) =
          ofNames absolute ([] ++ [ending.toList]) := by
        apply eq_of_toList
        simp [ofNames, joinParts]
      rw [heq]
      exact tidy_concat (by simp) hending
  · rw [List.concat_eq_append] at hnames ⊢
    have hlast : IsName last := hnames last (by simp)
    have hgrown : IsName (last ++ ending.toList) := by
      refine isName_iff.mpr ⟨by simp [hlast.ne_nil], fun h => ?_, by simp [hlast.whole, hwhole]⟩
      rcases List.append_eq_singleton_iff.mp h with ⟨hnil, -⟩ | ⟨hdot, -⟩
      · exact hlast.ne_nil hnil
      · exact (isName_iff.mp hlast).2.1 hdot
    have heq : (⟨(ofNames absolute (init ++ [last])).text ++ ending⟩ : Path) =
        ofNames absolute (init ++ [last ++ ending.toList]) := by
      apply eq_of_toList
      rw [text_concat, String.toList_append, text_concat, List.append_assoc]
    rw [heq]
    exact tidy_concat (fun name hname => hnames name (by simp [hname])) hgrown

end WebBundle.Proofs.TidyPaths
