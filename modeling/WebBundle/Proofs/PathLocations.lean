import Mathlib.Data.List.Basic
import Mathlib.Data.List.Induction
import Mathlib.Logic.Function.Iterate
import WebBundle.Proofs.TidyPaths

namespace WebBundle.Proofs.PathLocations

open WebBundle.Path
open WebBundle.Proofs.TidyPaths

/-- How often a path climbs above where it starts, and the names along which it descends from there. -/
structure Course where
  climbs : Nat := 0
  names : List (List Char) := []

def Course.step (course : Course) : Component → Course
  | .root => course
  | .current => course
  | .parent =>
    if course.names = [] then { course with climbs := course.climbs + 1 }
    else { course with names := course.names.dropLast }
  | .name name => { course with names := course.names ++ [name] }

def courseOf (components : List Component) : Course := components.foldl Course.step {}

def course (p : Path) : Course := courseOf p.components

/-- The directory above a path. -/
def up (p : Path) : Path := p.push .parent

/-- The path along some names from another one. -/
def descend (start : Path) (names : List (List Char)) : Path :=
  names.foldl (fun p name => p.push (.name name)) start

/-- A name of a file or a directory. -/
structure IsPlain (name : List Char) : Prop where
  isName : IsName name
  descends : name ≠ ['.', '.']

/-- The normalized path that climbs once or not at all, and then descends along names. -/
def spot (absolute climbed : Bool) (names : List (List Char)) : Path :=
  ofNames absolute ((if climbed then [['.', '.']] else []) ++ names)

variable {absolute climbed climbed' : Bool} {names names' : List (List Char)} {name : List Char}
  {p q start base : Path} {components : List Component}

theorem isName_parent : IsName ['.', '.'] := ⟨by decide, by decide⟩

theorem isName_of_mem_spot (climbed : Bool) (h : ∀ name ∈ names, IsPlain name) :
    ∀ name ∈ (if climbed then [['.', '.']] else []) ++ names, IsName name := by
  intro name hname
  rcases List.mem_append.mp hname with hname | hname
  · cases climbed
    · exact absurd hname List.not_mem_nil
    · exact List.mem_singleton.mp hname ▸ isName_parent
  · exact (h name hname).isName

theorem tidy_spot (h : ∀ name ∈ names, IsPlain name) : Tidy (spot absolute climbed names) :=
  ⟨absolute, _, isName_of_mem_spot climbed h, rfl⟩

theorem tidy_start (absolute : Bool) : Tidy (spot absolute false []) := tidy_spot (by simp)

theorem tidy_up (hp : Tidy p) : Tidy (up p) := tidy_push hp (by simp)

theorem up_push_name (hp : Tidy p) (hname : IsName name) : up (p.push (.name name)) = p := by
  obtain ⟨absolute, names, hnames, rfl⟩ := hp
  rw [push_name hnames hname]
  refine push_parent_concat fun part hpart => ?_
  rcases List.mem_append.mp hpart with hpart | hpart
  · exact hnames part hpart
  · exact List.mem_singleton.mp hpart ▸ hname

theorem descend_concat (start : Path) (names : List (List Char)) (name : List Char) :
    descend start (names ++ [name]) = (descend start names).push (.name name) := by
  rw [descend, List.foldl_append, List.foldl_cons, List.foldl_nil, descend]

theorem tidy_descend (hstart : Tidy start) (h : ∀ name ∈ names, IsPlain name) :
    Tidy (descend start names) := by
  induction names using List.reverseRecOn with
  | nil => exact hstart
  | append_singleton init last ih =>
      rw [descend_concat]
      refine tidy_push (ih fun name hname => h name (by simp [hname])) ?_
      rintro text ⟨⟩
      exact (h last (by simp)).isName

theorem descend_injective (hp : Tidy p) (hq : Tidy q) (h : ∀ name ∈ names, IsPlain name)
    (heq : descend p names = descend q names) : p = q := by
  induction names using List.reverseRecOn with
  | nil => exact heq
  | append_singleton init last ih =>
      have hinit : ∀ name ∈ init, IsPlain name := fun name hname => h name (by simp [hname])
      have hlast : IsName last := (h last (by simp)).isName
      rw [descend_concat, descend_concat] at heq
      refine ih hinit ?_
      rw [← up_push_name (tidy_descend hp hinit) hlast, heq,
        up_push_name (tidy_descend hq hinit) hlast]

theorem foldl_push (hstart : Tidy start) (hroot : .root ∉ components)
    (hnames : ∀ name, .name name ∈ components → IsPlain name) :
    (∀ name ∈ (courseOf components).names, IsPlain name) ∧ components.foldl push start =
      descend (up^[(courseOf components).climbs] start) (courseOf components).names := by
  induction components using List.reverseRecOn with
  | nil => exact ⟨by simp [courseOf], rfl⟩
  | append_singleton init last ih =>
      rw [List.mem_append, not_or] at hroot
      obtain ⟨hplain, hfold⟩ := ih hroot.1 fun name hname => hnames name (by simp [hname])
      have hclimbed : Tidy (up^[(courseOf init).climbs] start) :=
        Function.Iterate.rec Tidy hstart (fun _ => tidy_up) _
      have hcourse : courseOf (init ++ [last]) = (courseOf init).step last := by
        rw [courseOf, List.foldl_append, List.foldl_cons, List.foldl_nil, ← courseOf]
      rw [hcourse, List.foldl_append, List.foldl_cons, List.foldl_nil, hfold]
      generalize courseOf init = c at hplain hclimbed
      cases last with
      | root => exact absurd List.mem_cons_self hroot.2
      | current => exact ⟨hplain, rfl⟩
      | parent =>
          rcases List.eq_nil_or_concat c.names with hnil | ⟨before, last, hlast⟩
          · rw [Course.step, if_pos hnil]
            exact ⟨hplain, by simp only [hnil, Function.iterate_succ_apply']; rfl⟩
          · rw [List.concat_eq_append] at hlast
            rw [hlast] at hplain
            have hbefore : ∀ name ∈ before, IsPlain name := fun name hname =>
              hplain name (by simp [hname])
            have hup : up (descend (up^[c.climbs] start) (before ++ [last])) =
                descend (up^[c.climbs] start) before := by
              rw [descend_concat]
              exact up_push_name (tidy_descend hclimbed hbefore) (hplain last (by simp)).isName
            rw [Course.step, if_neg (by simp [hlast])]
            simp only [hlast, List.dropLast_concat]
            exact ⟨hbefore, hup⟩
      | name text =>
          have htext : IsPlain text := hnames text (by simp)
          refine ⟨?_, (descend_concat _ _ _).symm⟩
          intro name hname
          rcases List.mem_append.mp hname with hname | hname
          · exact hplain name hname
          · exact List.mem_singleton.mp hname ▸ htext

theorem up_spot_nil : up (spot absolute climbed []) = spot absolute (!climbed) [] := by
  cases climbed with
  | false => exact push_parent_nil
  | true =>
      have hclimb : ∀ part ∈ [] ++ [['.', '.']], IsName part :=
        fun part hpart => List.mem_singleton.mp hpart ▸ isName_parent
      have hpop : (ofNames absolute ([] ++ [['.', '.']])).push .parent = ofNames absolute [] :=
        push_parent_concat hclimb
      exact hpop

theorem up_spot_concat (h : ∀ part ∈ names ++ [name], IsPlain part) :
    up (spot absolute climbed (names ++ [name])) = spot absolute climbed names := by
  have hnames := isName_of_mem_spot climbed h
  rw [spot, ← List.append_assoc] at *
  exact push_parent_concat hnames

theorem iterate_up_spot (absolute climbed : Bool) (h : ∀ name ∈ names, IsPlain name) (n : Nat) :
    ∃ climbed', up^[n] (spot absolute climbed names) =
      spot absolute climbed' (names.take (names.length - n)) := by
  induction n with
  | zero => exact ⟨climbed, by simp⟩
  | succ n ih =>
      obtain ⟨climbed', hn⟩ := ih
      rw [Function.iterate_succ_apply', hn]
      rcases Nat.lt_or_ge n names.length with hlt | hge
      · have htake : names.take (names.length - n) =
            names.take (names.length - (n + 1)) ++ [names[names.length - (n + 1)]] := by
          rw [← List.take_succ_eq_append_getElem (by omega)]
          congr 1
          omega
        rw [htake]
        refine ⟨climbed', up_spot_concat fun part hpart => h part ?_⟩
        exact List.mem_of_mem_take (htake ▸ hpart)
      · rw [Nat.sub_eq_zero_of_le hge, Nat.sub_eq_zero_of_le (by omega), List.take_zero]
        exact ⟨!climbed', up_spot_nil⟩

theorem iterate_up_root (n : Nat) : up^[n] (spot absolute false []) =
    spot absolute (decide (n % 2 = 1)) [] := by
  induction n with
  | zero => rfl
  | succ n ih =>
      rw [Function.iterate_succ_apply', ih, up_spot_nil]
      congr 1
      rcases Nat.mod_two_eq_zero_or_one n with h | h <;> simp [Nat.add_mod, h]

theorem iterate_up_twice (k : Nat) : up^[2 * k] (spot absolute climbed []) =
    spot absolute climbed [] := by
  induction k with
  | zero => rfl
  | succ k ih =>
      have htwice : up^[2] (spot absolute climbed []) = spot absolute climbed [] := by
        rw [Function.iterate_succ_apply, Function.iterate_one, up_spot_nil, up_spot_nil,
          Bool.not_not]
      rw [Nat.mul_succ, Function.iterate_add_apply, htwice, ih]

theorem spot_injective (h : ∀ name ∈ names, IsPlain name) (h' : ∀ name ∈ names', IsPlain name)
    (heq : spot absolute climbed names = spot absolute climbed' names') : names = names' := by
  have hcomponents := congrArg Path.components heq
  rw [spot, spot, components_ofNames (isName_of_mem_spot _ h),
    components_ofNames (isName_of_mem_spot _ h')] at hcomponents
  have hparts := List.map_injective_iff.mpr componentOf_injective hcomponents
  rw [spoken, spoken, List.append_cancel_left_eq] at hparts
  -- a climb is no name
  have hout : ['.', '.'] ∉ names := fun hmem => (h _ hmem).descends rfl
  have hout' : ['.', '.'] ∉ names' := fun hmem => (h' _ hmem).descends rfl
  cases climbed <;> cases climbed'
  · exact hparts
  · obtain rfl : names = ['.', '.'] :: names' := hparts
    exact absurd List.mem_cons_self hout
  · obtain rfl : ['.', '.'] :: names = names' := hparts
    exact absurd List.mem_cons_self hout'
  · exact List.tail_eq_of_cons_eq hparts

theorem iterate_up_eq_iff (h : ∀ name ∈ names, IsPlain name) (n : Nat) :
    up^[n] (spot absolute climbed names) = up^[n % 2] (spot absolute climbed names) ↔
      n ≤ 1 ∨ names.length ≤ n % 2 := by
  obtain ⟨few, hfew⟩ := iterate_up_spot absolute climbed h (n % 2)
  constructor
  · intro heq
    obtain ⟨many, hmany⟩ := iterate_up_spot absolute climbed h n
    rw [hmany, hfew] at heq
    have htake := spot_injective (fun name hname => h name (List.mem_of_mem_take hname))
      (fun name hname => h name (List.mem_of_mem_take hname)) heq
    have hlength := congrArg List.length htake
    rw [List.length_take, List.length_take] at hlength
    omega
  · rintro (hle | hle)
    · rw [Nat.mod_eq_of_lt (by omega)]
    · rw [Nat.sub_eq_zero_of_le hle, List.take_zero] at hfew
      have hn : up^[n] (spot absolute climbed names) =
          up^[2 * (n / 2)] (up^[n % 2] (spot absolute climbed names)) := by
        rw [← Function.iterate_add_apply, Nat.div_add_mod]
      rw [hn, hfew, iterate_up_twice]

theorem descend_spot (h : ∀ name ∈ names, IsPlain name) :
    descend (spot absolute climbed []) names = spot absolute climbed names := by
  induction names using List.reverseRecOn with
  | nil => rfl
  | append_singleton init last ih =>
      have hinit : ∀ name ∈ init, IsPlain name := fun name hname => h name (by simp [hname])
      rw [descend_concat, ih hinit, spot,
        push_name (isName_of_mem_spot _ hinit) (h last (by simp)).isName, List.append_assoc, spot]

theorem componentOf_of_isPlain (h : IsPlain name) : componentOf name = .name name := by
  rw [componentOf, if_neg h.isName.ne_nil, if_neg h.descends]

theorem components_spot (h : ∀ name ∈ names, IsPlain name) :
    (spot absolute climbed names).components =
      (if absolute then [.root] else []) ++ (if climbed then [.parent] else []) ++
        names.map .name := by
  have hmap : names.map componentOf = names.map .name :=
    List.map_congr_left fun name hname => componentOf_of_isPlain (h name hname)
  rw [spot, components_ofNames (isName_of_mem_spot _ h), spoken, List.map_append, List.map_append,
    hmap, List.append_assoc]
  cases absolute <;> cases climbed <;> rfl

theorem foldl_step_names (names : List (List Char)) (c : Course) :
    (names.map Component.name).foldl Course.step c = { c with names := c.names ++ names } := by
  induction names generalizing c with
  | nil => simp
  | cons first rest ih => simp [ih, Course.step]

theorem course_spot (h : ∀ name ∈ names, IsPlain name) :
    course (spot absolute climbed names) = ⟨if climbed then 1 else 0, names⟩ := by
  rw [course, courseOf, components_spot h, List.foldl_append, foldl_step_names]
  cases absolute <;> cases climbed <;> rfl

theorem isAbsolute_spot (h : ∀ name ∈ names, IsPlain name) :
    (spot absolute climbed names).isAbsolute = absolute := by
  cases absolute with
  | true => simp [spot, ofNames, isAbsolute]
  | false =>
      have hnames := isName_of_mem_spot climbed h
      rw [spot]
      generalize (if climbed then [['.', '.']] else []) ++ names = all at hnames
      cases all with
      | nil => simp [ofNames, isAbsolute, joinParts]
      | cons first rest =>
          obtain ⟨c, text, rfl⟩ := List.exists_cons_of_ne_nil (hnames first (by simp)).ne_nil
          have hc : c ≠ '/' := by
            rintro rfl
            exact (hnames _ List.mem_cons_self).whole List.mem_cons_self
          cases rest <;> simp [ofNames, isAbsolute, joinParts, hc]

/-- The components of a path behind its root, or behind a `.` at its start. -/
def inner (p : Path) : List Component := p.parts.filterMap componentOf?

theorem root_notMem_inner (p : Path) : .root ∉ inner p := by
  intro h
  obtain ⟨part, -, hpart⟩ := List.mem_filterMap.mp h
  rw [componentOf?] at hpart
  split at hpart
  · simp at hpart
  · split at hpart <;> simp at hpart

theorem isPlain_of_mem_inner (h : .name name ∈ inner p) : IsPlain name := by
  obtain ⟨part, hpart, hname⟩ := List.mem_filterMap.mp h
  obtain ⟨rfl, hspeaks, hdescends⟩ := eq_of_componentOf? hname
  exact ⟨⟨hspeaks, whole_of_mem_split hpart⟩, hdescends⟩

theorem components_of_absolute (h : p.isAbsolute = true) : p.components = .root :: inner p := by
  rw [isAbsolute, beq_iff_eq] at h
  obtain ⟨rest, hrest⟩ := List.head?_eq_some_iff.mp h
  have hparts : p.parts = [] :: split rest := by rw [parts, hrest, split, if_pos rfl]
  have halone : (split rest).isEmpty = false := List.isEmpty_eq_false_iff.mpr (split_ne_nil rest)
  rw [Path.components, inner, hparts, componentsOfParts, halone]
  rfl

theorem components_of_relative (h : p.isAbsolute = false) :
    p.components = inner p ∨ p.components = .current :: inner p := by
  rw [Path.components, inner]
  cases hparts : p.parts with
  | nil => exact absurd hparts (split_ne_nil _)
  | cons first rest =>
      rw [componentsOfParts, List.filterMap_cons]
      by_cases hnil : first = []
      · subst hnil
        cases rest with
        | nil => exact .inl rfl
        | cons second rest =>
            -- a path that begins with an empty part is absolute
            have htext := joinParts_split p.text.toList
            rw [← parts, hparts, joinParts_cons (List.cons_ne_nil _ _), List.nil_append] at htext
            rw [isAbsolute, ← htext] at h
            exact absurd h (by simp)
      · by_cases hdot : first = ['.']
        · subst hdot
          exact .inr rfl
        · have hfirst : componentOf? first = firstComponent? first rest.isEmpty := by
            simp [componentOf?, firstComponent?, isVoid, hnil, hdot]
          rw [hfirst]
          cases firstComponent? first rest.isEmpty <;> exact .inl rfl

theorem course_eq (p : Path) : course p = courseOf (inner p) := by
  rw [course]
  cases h : p.isAbsolute with
  | true =>
      rw [components_of_absolute h, courseOf, List.foldl_cons]
      rfl
  | false =>
      rcases components_of_relative h with heq | heq
      · rw [heq]
      · rw [heq, courseOf, List.foldl_cons]
        rfl

theorem normalize_eq_foldl (p : Path) :
    p.normalize = (inner p).foldl push (spot p.isAbsolute false []) := by
  rw [Path.normalize]
  cases h : p.isAbsolute with
  | true =>
      rw [components_of_absolute h, List.foldl_cons]
      rfl
  | false => rcases components_of_relative h with heq | heq <;> rw [heq] <;> rfl

theorem foldl_inner (hstart : Tidy start) (p : Path) :
    (∀ name ∈ (course p).names, IsPlain name) ∧
      (inner p).foldl push start = descend (up^[(course p).climbs] start) (course p).names := by
  rw [course_eq]
  exact foldl_push hstart (root_notMem_inner p) fun _ => isPlain_of_mem_inner

theorem isPlain_of_mem_course (p : Path) : ∀ name ∈ (course p).names, IsPlain name :=
  (foldl_inner (tidy_start true) p).1

/-- A normalized path climbs if the path climbs an odd number of times. -/
theorem normalize_eq_spot (p : Path) : p.normalize =
    spot p.isAbsolute (decide ((course p).climbs % 2 = 1)) (course p).names := by
  rw [normalize_eq_foldl, (foldl_inner (tidy_start p.isAbsolute) p).2, iterate_up_root,
    descend_spot (isPlain_of_mem_course p)]

theorem normalize_normalize (p : Path) : p.normalize.normalize = p.normalize := by
  have hplain := isPlain_of_mem_course p
  rw [normalize_eq_spot p, normalize_eq_spot (spot ..), isAbsolute_spot hplain, course_spot hplain]
  congr 1
  by_cases hodd : (course p).climbs % 2 = 1 <;> simp [hodd]

theorem toList_join_relative (habsolute : base.isAbsolute = true) (h : p.isAbsolute = false) :
    ∃ front, (front = base.text.toList ∨ front ++ ['/'] = base.text.toList) ∧
      (base.join p).text.toList = front ++ '/' :: p.text.toList := by
  have hne : base.text ≠ "" := by
    rintro hempty
    rw [isAbsolute, hempty] at habsolute
    exact absurd habsolute (by decide)
  rw [join, if_neg (by simp [h])]
  by_cases hlast : base.text.toList.getLast? = some '/'
  · obtain ⟨front, hfront⟩ := List.getLast?_eq_some_iff.mp hlast
    refine ⟨front, .inr hfront.symm, ?_⟩
    simp [hfront]
  · refine ⟨base.text.toList, .inl rfl, ?_⟩
    simp [hlast, hne]

theorem inner_join (habsolute : base.isAbsolute = true) (h : p.isAbsolute = false) :
    inner (base.join p) = inner base ++ inner p := by
  obtain ⟨front, hfront, hjoin⟩ := toList_join_relative habsolute h
  rw [inner, parts, hjoin, split_append_cons, List.filterMap_append, inner, inner, parts, parts]
  rcases hfront with rfl | hfront
  · rfl
  · rw [← hfront, split_append_cons, List.filterMap_append]
    simp [split, componentOf?, isVoid]

theorem isAbsolute_join (habsolute : base.isAbsolute = true) (p : Path) :
    (base.join p).isAbsolute = true := by
  rw [isAbsolute, beq_iff_eq] at habsolute
  obtain ⟨rest, hrest⟩ := List.head?_eq_some_iff.mp habsolute
  rw [join]
  split
  · assumption
  · split <;> simp [isAbsolute, hrest]

theorem normalize_join (habsolute : base.isAbsolute = true) (h : p.isAbsolute = false) :
    (base.join p).normalize = (inner p).foldl push base.normalize := by
  rw [normalize_eq_foldl, isAbsolute_join habsolute, inner_join habsolute h, List.foldl_append,
    normalize_eq_foldl base, habsolute]

/-- To normalize a path before it is joined with a directory leads to the same place, if and only if the
path is absolute, climbs at most once, or finds no more names to climb in the directory than its normal form
does. A `..` is left of an absolute path, if and only if it climbs an odd number of times above the root. -/
theorem normalize_join_iff (habsolute : base.isAbsolute = true) (p : Path) :
    ((base.join p.normalize).normalize = (base.join p).normalize ↔
      p.isAbsolute = true ∨ (course p).climbs ≤ 1 ∨
        (course base).names.length ≤ (course p).climbs % 2) ∧
    (.parent ∈ base.normalize.components ↔ (course base).climbs % 2 = 1) := by
  have hplain := isPlain_of_mem_course p
  have hbase := isPlain_of_mem_course base
  constructor
  · cases h : p.isAbsolute with
    | true =>
        have hnormal : p.normalize.isAbsolute = true := by
          rw [normalize_eq_spot, isAbsolute_spot hplain, h]
        refine iff_of_true ?_ (.inl rfl)
        rw [join, if_pos hnormal, join, if_pos h, normalize_normalize]
    | false =>
        have hnormal : p.normalize.isAbsolute = false := by
          rw [normalize_eq_spot, isAbsolute_spot hplain, h]
        have hcourse : course p.normalize = ⟨(course p).climbs % 2, (course p).names⟩ := by
          rw [normalize_eq_spot, course_spot hplain]
          rcases Nat.mod_two_eq_zero_or_one (course p).climbs with hodd | hodd <;> simp [hodd]
        have htidy : Tidy base.normalize := tidy_normalize base
        have hup : ∀ n, Tidy (up^[n] base.normalize) :=
          Function.Iterate.rec Tidy htidy fun _ => tidy_up
        rw [normalize_join habsolute hnormal, normalize_join habsolute h,
          (foldl_inner htidy p).2, (foldl_inner htidy p.normalize).2, hcourse]
        have hsame : descend (up^[(course p).climbs % 2] base.normalize) (course p).names =
            descend (up^[(course p).climbs] base.normalize) (course p).names ↔
            up^[(course p).climbs] base.normalize = up^[(course p).climbs % 2] base.normalize := by
          constructor
          · exact fun heq => (descend_injective (hup _) (hup _) hplain heq).symm
          · exact fun heq => by rw [heq]
        rw [hsame, normalize_eq_spot base, iterate_up_eq_iff hbase]
        simp
  · rw [normalize_eq_spot, components_spot hbase, habsolute]
    by_cases hodd : (course base).climbs % 2 = 1 <;> simp [hodd]

theorem normalize_join_iff_sibling :
    (Path.mk "/p/q").isAbsolute = true ∧
      ((Path.mk "/p/q").join (Path.mk "../x/./../y").normalize).normalize =
        ((Path.mk "/p/q").join ⟨"../x/./../y"⟩).normalize ∧
      .parent ∉ (Path.mk "/p/q").normalize.components := by
  have habsolute : (Path.mk "/p/q").isAbsolute = true := by decide
  obtain ⟨hplace, hparent⟩ := normalize_join_iff habsolute ⟨"../x/./../y"⟩
  exact ⟨habsolute, hplace.mpr (.inr (.inl (by decide))), fun h => absurd (hparent.mp h) (by decide)⟩

/-- Two climbs on each other cancel, and a climb above the root stays. -/
theorem climbs_cancel :
    (¬ ∀ base p : Path, base.isAbsolute = true →
      (base.join p.normalize).normalize = (base.join p).normalize) ∧
    ¬ ∀ p : Path, p.isAbsolute = true → .parent ∉ p.normalize.components := by
  constructor
  · intro hplace
    exact absurd (hplace ⟨"/p/q"⟩ ⟨"../../x"⟩ (by decide)) (by decide)
  · intro hparent
    exact hparent ⟨"/.."⟩ (by decide) (by decide)

end WebBundle.Proofs.PathLocations
