import Mathlib.Data.List.Infix
import WebBundle.Proofs.TidyPaths

namespace WebBundle.Proofs.ModuleNames

open WebBundle.Path
open WebBundle.Proofs.TidyPaths

/-- The name of a file without a query. -/
def nameOf (context p : Path) : List Char := (p.moduleKey context none).toList

def behind : Option String → List Char
  | none => []
  | some query => '?' :: query.toList

variable {context p p' : Path} {query query' : Option String}
variable {absolute : Bool} {names : List (List Char)}

theorem toList_moduleKey (context p : Path) (query : Option String) :
    (p.moduleKey context query).toList = nameOf context p ++ behind query := by
  cases query with
  | none => rw [nameOf, behind, List.append_nil]
  | some query =>
      rw [nameOf, behind, moduleKey, moduleKey]
      simp

theorem startsWith_ofNames (h : ∀ name ∈ names, IsName name) :
    (ofNames absolute names).startsWith context = true ↔
      context.components <+: (spoken absolute names).map componentOf := by
  rw [startsWith, components_ofNames h, List.isPrefixOf_iff_prefix]

theorem trimmed_ofNames (h : ∀ name ∈ names, IsName name) :
    (ofNames absolute names).trimmed = ofNames absolute names := by
  rw [trimmed]
  split
  · rfl
  · next htext =>
      by_cases hne : names = []
      · subst hne
        cases absolute with
        | false => exact absurd rfl htext
        | true =>
            rw [parts_root]
            rfl
      · rw [parts_ofNames h hne, dropVoid_spoken h, List.reverse_reverse, ofParts_spoken h]
        simp [spoken, hne]

theorem dropComponents_eq (h : ∀ name ∈ names, IsName name) (count : Nat) :
    dropComponents count names = names.drop count := by
  induction count generalizing names with
  | zero => rw [dropComponents, List.drop_zero]
  | succ count ih =>
      cases names with
      | nil => rfl
      | cons first rest =>
          rw [dropComponents, if_neg (by simp [(h first List.mem_cons_self).speaks]),
            ih fun name hname => h name (List.mem_cons_of_mem _ hname), List.drop_succ_cons]

theorem dropWhile_isVoid (h : ∀ name ∈ names, IsName name) : names.dropWhile isVoid = names := by
  cases names with
  | nil => rfl
  | cons first rest =>
      rw [List.dropWhile_cons_of_neg (by simp [(h first List.mem_cons_self).speaks])]

theorem partsBehind_succ {first : List Char} {rest : List (List Char)} (count : Nat)
    (h : p.parts = first :: rest) (hne : first :: rest ≠ [[]]) :
    p.partsBehind (count + 1) = (dropComponents count rest).dropWhile isVoid := by
  rw [partsBehind, h]
  split
  · next heq => exact absurd heq (List.cons_ne_nil _ _)
  · next heq => exact absurd heq hne
  · next heq => rw [(List.cons.inj heq).2]

theorem partsBehind_ofNames (h : ∀ name ∈ names, IsName name) (count : Nat) :
    (ofNames absolute names).partsBehind (count + 1) = (spoken absolute names).drop (count + 1) := by
  have hdrop : ∀ {rest}, (∀ name ∈ rest, IsName name) →
      (dropComponents count rest).dropWhile isVoid = rest.drop count := by
    intro rest hrest
    rw [dropComponents_eq hrest,
      dropWhile_isVoid fun name hname => hrest name (List.mem_of_mem_drop hname)]
  cases names with
  | nil =>
      cases absolute with
      | false =>
          rw [partsBehind, parts_here]
          rfl
      | true =>
          rw [partsBehind_succ count parts_root (by simp)]
          cases count <;> rfl
  | cons first rest =>
      have hparts : (ofNames absolute (first :: rest)).parts = spoken absolute (first :: rest) :=
        parts_ofNames h (List.cons_ne_nil _ _)
      cases absolute with
      | false =>
          have hfirst : first ≠ [] := (h first List.mem_cons_self).ne_nil
          rw [partsBehind_succ count hparts (by simp [hfirst]),
            hdrop fun name hname => h name (List.mem_cons_of_mem _ hname)]
          rfl
      | true =>
          rw [partsBehind_succ count hparts (by simp), List.append_eq, List.nil_append, hdrop h]
          rfl

theorem mem_joinParts {c : Char} (hc : c ∈ joinParts names) : c = '/' ∨ ∃ name ∈ names, c ∈ name := by
  induction names with
  | nil => exact absurd hc List.not_mem_nil
  | cons first rest ih =>
      cases rest with
      | nil => exact .inr ⟨first, List.mem_cons_self, hc⟩
      | cons second rest =>
          rw [joinParts_cons (List.cons_ne_nil _ _)] at hc
          rcases List.mem_append.mp hc with hc | hc
          · exact .inr ⟨first, List.mem_cons_self, hc⟩
          · rcases List.mem_cons.mp hc with rfl | hc
            · exact .inl rfl
            · rcases ih hc with rfl | ⟨name, hname, hc⟩
              · exact .inl rfl
              · exact .inr ⟨name, List.mem_cons_of_mem _ hname, hc⟩

theorem mem_joinParts_of_mem {c : Char} {name : List Char} (hname : name ∈ names) (hc : c ∈ name) :
    c ∈ joinParts names := by
  induction names with
  | nil => exact absurd hname List.not_mem_nil
  | cons first rest ih =>
      cases rest with
      | nil => exact List.mem_singleton.mp hname ▸ hc
      | cons second rest =>
          rw [joinParts_cons (List.cons_ne_nil _ _), List.mem_append, List.mem_cons]
          rcases List.mem_cons.mp hname with rfl | hname
          · exact .inl hc
          · exact .inr (.inr (ih hname))

theorem toList_slashed (h : '\\' ∉ p.text.toList) : p.slashed.toList = p.text.toList := by
  rw [slashed, String.toList_ofList]
  conv_rhs => rw [← List.map_id p.text.toList]
  refine List.map_congr_left fun c hc => if_neg ?_
  rintro rfl
  exact h hc

/-- The parts of a path inside a context, which its name is made of. -/
def inner (context : Path) (absolute : Bool) (names : List (List Char)) : List Char :=
  if context.components = [] then (ofNames absolute names).text.toList
  else joinParts ((spoken absolute names).drop context.components.length)

theorem isName_of_mem_drop (h : ∀ name ∈ names, IsName name) {count : Nat} (hcount : count ≠ 0)
    {part : List Char} (hpart : part ∈ (spoken absolute names).drop count) : IsName part := by
  obtain ⟨count, rfl⟩ := Nat.exists_eq_succ_of_ne_zero hcount
  cases absolute with
  | false => exact h part (List.mem_of_mem_drop hpart)
  | true =>
      rw [spoken, if_pos rfl, List.singleton_append, List.drop_succ_cons] at hpart
      exact h part (List.mem_of_mem_drop hpart)

theorem stripPrefix_inside (h : ∀ name ∈ names, IsName name)
    (hinside : (ofNames absolute names).startsWith context = true) :
    (ofNames absolute names).stripPrefix context =
      some ⟨String.ofList (inner context absolute names)⟩ := by
  rw [stripPrefix, hinside, inner, if_neg (by simp)]
  by_cases hempty : context.components = []
  · rw [if_pos hempty, if_pos hempty, trimmed_ofNames h, String.ofList_toList]
  · have hcount : context.components.length ≠ 0 := by simpa using hempty
    obtain ⟨count, heq⟩ := Nat.exists_eq_succ_of_ne_zero hcount
    have hnames : ∀ name ∈ (spoken absolute names).drop (count + 1), IsName name :=
      fun name hname => isName_of_mem_drop h (Nat.succ_ne_zero count) hname
    have hkept : dropVoid ((spoken absolute names).drop (count + 1)).reverse =
        ((spoken absolute names).drop (count + 1)).reverse := 
      @dropVoid_spoken false _ hnames
    simp only [if_neg hempty, heq, partsBehind_ofNames h, hkept, List.reverse_reverse]

theorem mem_text_of_mem_inner {c : Char}
    (hc : c ∈ inner context absolute names) : c = '/' ∨ c ∈ (ofNames absolute names).text.toList := by
  rw [inner] at hc
  split at hc
  · exact .inr hc
  · rcases mem_joinParts hc with rfl | ⟨name, hname, hc⟩
    · exact .inl rfl
    · refine .inr ?_
      rcases List.mem_append.mp (List.mem_of_mem_drop hname) with hroot | hname
      · split at hroot
        · rw [List.mem_singleton.mp hroot] at hc
          exact absurd hc List.not_mem_nil
        · exact absurd hroot List.not_mem_nil
      · rw [ofNames, String.toList_ofList]
        exact List.mem_append_right _ (mem_joinParts_of_mem hname hc)

theorem nameOf_inside (h : ∀ name ∈ names, IsName name)
    (hslash : '\\' ∉ (ofNames absolute names).text.toList)
    (hinside : (ofNames absolute names).startsWith context = true) :
    nameOf context (ofNames absolute names) = '.' :: '/' :: inner context absolute names := by
  have hinner : '\\' ∉ inner context absolute names := by
    intro hmem
    rcases mem_text_of_mem_inner hmem with heq | hmem
    · exact absurd heq (by decide)
    · exact hslash hmem
  rw [nameOf, moduleKey, stripPrefix_inside h hinside]
  simp only [String.toList_append]
  rw [toList_slashed (by rwa [String.toList_ofList])]
  simp

theorem nameOf_outside (hslash : '\\' ∉ p.text.toList)
    (houtside : p.startsWith context = false) : nameOf context p = p.text.toList := by
  rw [nameOf, moduleKey, stripPrefix, houtside]
  exact toList_slashed hslash

theorem joinParts_injective {names' : List (List Char)} (h : ∀ name ∈ names, IsName name)
    (h' : ∀ name ∈ names', IsName name) (heq : joinParts names = joinParts names') :
    names = names' := by
  have hempty : ∀ {names : List (List Char)}, (∀ name ∈ names, IsName name) →
      joinParts names = [] → names = [] := by
    intro names h hnil
    rcases List.eq_nil_or_concat names with rfl | ⟨init, last, rfl⟩
    · rfl
    · rw [List.concat_eq_append] at h hnil
      rw [joinParts_concat] at hnil
      exact absurd (List.append_eq_nil_iff.mp hnil).2 (h last (by simp)).ne_nil
  by_cases hnil : names = []
  · rw [hnil] at heq ⊢
    exact (hempty h' heq.symm).symm
  · by_cases hnil' : names' = []
    · rw [hnil'] at heq
      exact absurd (hempty h heq) hnil
    · rw [← split_joinParts hnil fun name hname => (h name hname).whole, heq,
        split_joinParts hnil' fun name hname => (h' name hname).whole]

theorem text_ne_dot (h : ∀ name ∈ names, IsName name) (rest : List Char) :
    (ofNames absolute names).text.toList ≠ '.' :: '/' :: rest := by
  intro htext
  have hparts : (ofNames absolute names).parts = ['.'] :: split rest := by
    rw [parts, htext]
    have hsplit : split (['.'] ++ '/' :: rest) = ['.'] :: split rest := split_append rest (by decide)
    exact hsplit
  by_cases hne : names = []
  · subst hne
    cases absolute with
    | false => simp [ofNames, joinParts] at htext
    | true => simp [ofNames, joinParts] at htext
  · rw [parts_ofNames h hne] at hparts
    cases absolute with
    | false =>
        have hmem : ['.'] ∈ names := by
          rw [show names = ['.'] :: split rest from hparts]
          exact List.mem_cons_self
        exact (isName_iff.mp (h _ hmem)).2.1 rfl
    | true => simp [spoken] at hparts

theorem nameOf_injective (hp : Tidy p) (hp' : Tidy p') (hslash : '\\' ∉ p.text.toList)
    (hslash' : '\\' ∉ p'.text.toList) (heq : nameOf context p = nameOf context p') : p = p' := by
  obtain ⟨absolute, names, h, rfl⟩ := hp
  obtain ⟨absolute', names', h', rfl⟩ := hp'
  cases hinside : (ofNames absolute names).startsWith context <;>
    cases hinside' : (ofNames absolute' names').startsWith context
  · rw [nameOf_outside hslash hinside, nameOf_outside hslash' hinside'] at heq
    exact eq_of_toList heq
  · rw [nameOf_outside hslash hinside, nameOf_inside h' hslash' hinside'] at heq
    exact absurd heq (text_ne_dot h _)
  · rw [nameOf_inside h hslash hinside, nameOf_outside hslash' hinside'] at heq
    exact absurd heq.symm (text_ne_dot h' _)
  · rw [nameOf_inside h hslash hinside, nameOf_inside h' hslash' hinside'] at heq
    have hinner := List.tail_eq_of_cons_eq (List.tail_eq_of_cons_eq heq)
    simp only [inner] at hinner
    split at hinner
    · exact eq_of_toList hinner
    · next hcontext =>
        have hcount : context.components.length ≠ 0 := by simpa using hcontext
        have hdrop := joinParts_injective (fun _ => isName_of_mem_drop h hcount)
          (fun _ => isName_of_mem_drop h' hcount) hinner
        rw [startsWith_ofNames h] at hinside
        rw [startsWith_ofNames h'] at hinside'
        have hspoken : (spoken absolute names).map componentOf =
            (spoken absolute' names').map componentOf := by
          rw [List.prefix_append_drop hinside, List.prefix_append_drop hinside',
            ← List.map_drop, ← List.map_drop, hdrop]
        exact ofNames_eq_of_spoken h h' (List.map_injective_iff.mpr componentOf_injective hspoken)

theorem behind_injective (h : behind query = behind query') : query = query' := by
  cases query <;> cases query' <;> simp_all [behind, String.toList_inj]

/-- The name of the second file goes on with what is the query of the first, and with its own
query. -/
def Blurs (context : Path) (p : Path) (query : Option String) (p' : Path)
    (query' : Option String) : Prop :=
  ∃ rest, nameOf context p' = nameOf context p ++ '?' :: rest ∧
    query.map String.toList = some (rest ++ behind query')

theorem moduleKey_of_blurs (h : Blurs context p query p' query') :
    p.moduleKey context query = p'.moduleKey context query' := by
  obtain ⟨rest, hname, hquery⟩ := h
  obtain ⟨text, rfl, htext⟩ := Option.map_eq_some_iff.mp hquery
  apply String.toList_inj.mp
  rw [toList_moduleKey, toList_moduleKey, hname, behind, htext]
  simp

theorem eq_or_blurs (h : nameOf context p ++ behind query = nameOf context p' ++ behind query') :
    (nameOf context p = nameOf context p' ∧ query = query') ∨ Blurs context p query p' query' ∨
      Blurs context p' query' p query := by
  have hblurs : ∀ {p p' : Path} {query query' : Option String} {rest : List Char}, rest ≠ [] →
      nameOf context p' = nameOf context p ++ rest → behind query = rest ++ behind query' →
        Blurs context p query p' query' := by
    intro p p' query query' rest hrest hname hbehind
    obtain ⟨c, rest, rfl⟩ := List.exists_cons_of_ne_nil hrest
    cases query with
    | none => exact absurd hbehind.symm (List.cons_ne_nil _ _)
    | some text =>
        obtain ⟨rfl, htext⟩ := List.cons.inj hbehind
        exact ⟨rest, hname, congrArg some htext⟩
  rcases List.append_eq_append_iff.mp h with ⟨rest, hname, hbehind⟩ | ⟨rest, hname, hbehind⟩
  · by_cases hrest : rest = []
    · subst hrest
      exact .inl ⟨by simpa using hname.symm, behind_injective hbehind⟩
    · exact .inr (.inl (hblurs hrest hname hbehind))
  · by_cases hrest : rest = []
    · subst hrest
      exact .inl ⟨by simpa using hname, (behind_injective hbehind).symm⟩
    · exact .inr (.inr (hblurs hrest hname hbehind))

/-- Two files with queries have one key if they are the same, or if one goes on in its name where
the other has its query, and in no other case. -/
theorem moduleKey_eq_iff (hp : Tidy p) (hp' : Tidy p') (hslash : '\\' ∉ p.text.toList)
    (hslash' : '\\' ∉ p'.text.toList) :
    p.moduleKey context query = p'.moduleKey context query' ↔
      (p = p' ∧ query = query') ∨ Blurs context p query p' query' ∨
        Blurs context p' query' p query := by
  constructor
  · intro h
    have hlist := congrArg String.toList h
    rw [toList_moduleKey, toList_moduleKey] at hlist
    exact (eq_or_blurs hlist).imp_left fun ⟨hname, hquery⟩ =>
      ⟨nameOf_injective hp hp' hslash hslash' hname, hquery⟩
  · rintro (⟨rfl, rfl⟩ | h | h)
    · rfl
    · exact moduleKey_of_blurs h
    · exact (moduleKey_of_blurs h).symm

/-- How many question marks the name of a file has. -/
def marks (context p : Path) : Nat := (nameOf context p).count '?'

theorem Blurs.marks_lt (h : Blurs context p query p' query') : marks context p < marks context p' := by
  obtain ⟨rest, hname, -⟩ := h
  rw [marks, marks, hname, List.count_append, List.count_cons_self]
  omega

theorem eq_iff_marks (hp : Tidy p) (hp' : Tidy p') (hslash : '\\' ∉ p.text.toList)
    (hslash' : '\\' ∉ p'.text.toList)
    (h : p.moduleKey context query = p'.moduleKey context query') :
    (p = p' ∧ query = query') ↔ marks context p = marks context p' := by
  constructor
  · rintro ⟨rfl, -⟩
    rfl
  · intro hmarks
    rcases (moduleKey_eq_iff hp hp' hslash hslash').mp h with heq | hblurs | hblurs
    · exact heq
    · exact absurd hmarks hblurs.marks_lt.ne
    · exact absurd hmarks hblurs.marks_lt.ne'

end WebBundle.Proofs.ModuleNames
