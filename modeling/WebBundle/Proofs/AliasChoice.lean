import Mathlib.Data.List.Basic
import WebBundle.Resolution.Basic

namespace WebBundle.Proofs.AliasChoice

/-- The request that a target writes. -/
def targetOf (context target : Path) : String := (Alias.ofOption context "" target).target

/-- A key that is not marked as standing for its one request only. -/
def Plain (key : String) : Prop := key.toList.getLast? ≠ some '$'

/-- A plain key begins a request, and a whole number of its parts. -/
structure Begins (aliases : SortedMap Path) (request key : String) (rest : List Char) (target : Path) :
    Prop where
  configured : aliases.get? key = some target
  plain : Plain key
  text : request.toList = key.toList ++ rest
  ends : rest = [] ∨ rest.head? = some '/'

/-- What is declared for a request: the target of the marked key that is the request, or else that of the
longest plain key that begins it, with what is behind, or else the request as it is. -/
inductive Declared (context : Path) (aliases : SortedMap Path) (request : String) : String → Prop
  | exact {target : Path} : aliases.get? (request ++ "$") = some target →
      Declared context aliases request (targetOf context target)
  | longest {key : String} {rest : List Char} {target : Path} :
      aliases.get? (request ++ "$") = none → Begins aliases request key rest target →
      (∀ other rest' target', Begins aliases request other rest' target' → other.length ≤ key.length) →
      Declared context aliases request (targetOf context target ++ String.ofList rest)
  | same : aliases.get? (request ++ "$") = none →
      (∀ key rest target, ¬ Begins aliases request key rest target) →
      Declared context aliases request request

variable {context target : Path} {aliases : SortedMap Path} {request key result : String}
  {rest : List Char} {a b : Alias}

theorem target_ofOption (context target : Path) (key : String) :
    (Alias.ofOption context key target).target = targetOf context target := by
  simp only [targetOf, Alias.ofOption]
  split <;> split <;> rfl

theorem ofOption_marked (context target : Path) (key : String) :
    Alias.ofOption context (key ++ "$") target = ⟨key, true, targetOf context target⟩ := by
  have hlast : (key ++ "$").toList.getLast? = some '$' := by simp
  rw [← target_ofOption context target (key ++ "$")]
  simp only [Alias.ofOption, hlast]
  simp

theorem ofOption_plain (h : Plain key) :
    Alias.ofOption context key target = ⟨key, false, targetOf context target⟩ := by
  rw [← target_ofOption context target key]
  simp only [Alias.ofOption]
  split
  · next hlast => exact absurd hlast h
  · rfl

theorem plain_or_marked (key : String) : Plain key ∨ ∃ start : String, key = start ++ "$" := by
  by_cases h : Plain key
  · exact .inl h
  · have hlast : key.toList.getLast? = some '$' := Decidable.not_not.mp h
    refine .inr ⟨String.ofList key.toList.dropLast, String.toList_inj.mp ?_⟩
    rw [String.toList_append, String.toList_ofList]
    exact (List.dropLast_append_getLast? '$' hlast).symm

/-- The aliases of a project before they are put in order. -/
def made (context : Path) (aliases : SortedMap Path) : List Alias :=
  aliases.entries.map fun (key, target) => Alias.ofOption context key target

theorem mem_made : a ∈ made context aliases ↔
    (∃ target, aliases.get? (a.key ++ "$") = some target ∧ a = ⟨a.key, true, targetOf context target⟩) ∨
      ∃ target, aliases.get? a.key = some target ∧ Plain a.key ∧
        a = ⟨a.key, false, targetOf context target⟩ := by
  constructor
  · intro h
    obtain ⟨⟨key, target⟩, hentry, rfl⟩ := List.mem_map.mp h
    have hget := aliases.mem_entries.mp hentry
    rcases plain_or_marked key with hplain | ⟨start, rfl⟩
    · simp only [ofOption_plain hplain]
      exact .inr ⟨target, hget, hplain, rfl⟩
    · simp only [ofOption_marked]
      exact .inl ⟨target, hget, rfl⟩
  · rintro (⟨target, hget, ha⟩ | ⟨target, hget, hplain, ha⟩)
    · refine List.mem_map.mpr ⟨_, aliases.mem_entries.mpr hget, ?_⟩
      exact (ofOption_marked ..).trans ha.symm
    · refine List.mem_map.mpr ⟨_, aliases.mem_entries.mpr hget, ?_⟩
      exact (ofOption_plain hplain).trans ha.symm

theorem precedes_trans (a b c : Alias) (h : a.precedes b = true) (h' : b.precedes c = true) :
    a.precedes c = true := by
  simp only [Alias.precedes, Bool.or_eq_true, Bool.and_eq_true, decide_eq_true_eq, beq_iff_eq] at *
  rcases h with h | ⟨h, hle⟩ <;> rcases h' with h' | ⟨h', hle'⟩
  · exact .inl (Nat.lt_trans h' h)
  · exact .inl (h' ▸ h)
  · exact .inl (h ▸ h')
  · exact .inr ⟨h.trans h', String.le_trans hle hle'⟩

theorem precedes_total (a b : Alias) : (a.precedes b || b.precedes a) = true := by
  simp only [Alias.precedes, Bool.or_eq_true, Bool.and_eq_true, decide_eq_true_eq, beq_iff_eq]
  rcases Nat.lt_trichotomy a.key.utf8ByteSize b.key.utf8ByteSize with h | h | h
  · exact .inr (.inl h)
  · rcases String.le_total a.key b.key with hle | hle
    · exact .inl (.inr ⟨h, hle⟩)
    · exact .inr (.inr ⟨h.symm, hle⟩)
  · exact .inl (.inl h)

theorem size_le_of_precedes (h : a.precedes b = true) : b.key.utf8ByteSize ≤ a.key.utf8ByteSize := by
  simp only [Alias.precedes, Bool.or_eq_true, Bool.and_eq_true, decide_eq_true_eq, beq_iff_eq] at h
  rcases h with h | ⟨h, -⟩
  · exact Nat.le_of_lt h
  · exact Nat.le_of_eq h.symm

/-- The aliases of a project in the order in which they are tried. -/
def ordered (context : Path) (aliases : SortedMap Path) : List Alias :=
  (made context aliases).mergeSort Alias.precedes

theorem mem_ordered : a ∈ ordered context aliases ↔ a ∈ made context aliases := List.mem_mergeSort

theorem pairwise_ordered (context : Path) (aliases : SortedMap Path) :
    (ordered context aliases).Pairwise fun a b => a.precedes b = true :=
  List.pairwise_mergeSort precedes_trans precedes_total _

theorem ofOption_injective {key' : String} {target' : Path}
    (h : Alias.ofOption context key target = Alias.ofOption context key' target') : key = key' := by
  rcases plain_or_marked key with hplain | ⟨start, rfl⟩ <;>
    rcases plain_or_marked key' with hplain' | ⟨start', rfl⟩
  · rw [ofOption_plain hplain, ofOption_plain hplain'] at h
    exact congrArg Alias.key h
  · rw [ofOption_plain hplain, ofOption_marked] at h
    exact absurd (congrArg Alias.exact h) nofun
  · rw [ofOption_marked, ofOption_plain hplain'] at h
    exact absurd (congrArg Alias.exact h) nofun
  · rw [ofOption_marked, ofOption_marked] at h
    exact congrArg (· ++ "$") (congrArg Alias.key h)

theorem nodup_ordered (context : Path) (aliases : SortedMap Path) : (ordered context aliases).Nodup := by
  refine (List.mergeSort_perm _ _).nodup_iff.mpr ?_
  refine List.Pairwise.map _ ?_ aliases.ascending
  rintro first second hlt heq
  exact String.lt_irrefl _ (ofOption_injective heq ▸ hlt)

theorem pair_sublist {α : Type} {first second : String × α} : {entries : List (String × α)} →
    entries.Pairwise (fun a b => a.1 < b.1) → first ∈ entries → second ∈ entries →
    first.1 < second.1 → [first, second].Sublist entries
  | [], _, h, _, _ => absurd h List.not_mem_nil
  | entry :: rest, hentries, hfirst, hsecond, hlt => by
      obtain ⟨hbefore, hrest⟩ := List.pairwise_cons.mp hentries
      rcases List.mem_cons.mp hfirst with rfl | hin
      · rcases List.mem_cons.mp hsecond with rfl | hin'
        · exact absurd hlt (String.lt_irrefl _)
        · exact (List.singleton_sublist.mpr hin').cons_cons _
      · rcases List.mem_cons.mp hsecond with rfl | hin'
        · exact absurd (String.lt_trans hlt (hbefore _ hin)) (String.lt_irrefl _)
        · exact (pair_sublist hrest hin hin' hlt).cons _

theorem plain_before_marked {plain marked : Path} (hkey : Plain key) (hplain : aliases.get? key = some plain)
    (hmarked : aliases.get? (key ++ "$") = some marked) :
    [(⟨key, false, targetOf context plain⟩ : Alias), ⟨key, true, targetOf context marked⟩].Sublist
      (ordered context aliases) := by
  have hlt : key < key ++ "$" := by
    change key.toList < (key ++ "$").toList
    calc key.toList = key.toList ++ [] := (List.append_nil _).symm
      _ < key.toList ++ "$".toList := List.append_left_lt (by decide)
      _ = (key ++ "$").toList := String.toList_append.symm
  refine List.pair_sublist_mergeSort precedes_trans precedes_total ?_ ?_
  · simp [Alias.precedes]
  · have hpair := (pair_sublist aliases.ascending (aliases.mem_entries.mpr hplain)
      (aliases.mem_entries.mpr hmarked) hlt).map fun (key, target) => Alias.ofOption context key target
    simp only [List.map_cons, List.map_nil, ofOption_plain hkey, ofOption_marked] at hpair
    exact hpair

theorem requestFor?_eq_some : a.requestFor? request.toList = some result ↔
    (request = a.key ∧ a.target = result) ∨ (request ≠ a.key ∧ a.exact = false ∧ ∃ rest,
      request.toList = a.key.toList ++ rest ∧ rest.head? = some '/' ∧
        a.target ++ String.ofList rest = result) := by
  by_cases hkey : request = a.key
  · simp [Alias.requestFor?, hkey]
  · have htext : request.toList ≠ a.key.toList := fun h => hkey (String.toList_inj.mp h)
    simp only [Alias.requestFor?, if_neg htext]
    cases hexact : a.exact with
    | true => simp [hkey]
    | false =>
        simp only [hkey, if_false, false_and, false_or, Bool.false_eq_true, ne_eq, not_false_eq_true,
          true_and]
        constructor
        · intro h
          split at h
          · next hfits =>
              simp only [Bool.and_eq_true, List.isPrefixOf_iff_prefix, beq_iff_eq] at hfits
              obtain ⟨⟨rest, htext⟩, hhead⟩ := hfits
              rw [← htext, List.drop_left] at h hhead
              exact ⟨rest, htext.symm, hhead, Option.some.inj h⟩
          · exact absurd h nofun
        · rintro ⟨rest, htext, hhead, rfl⟩
          simp [htext, hhead]

theorem prefix_of_requestFor? (h : a.requestFor? request.toList = some result) :
    a.key.toList <+: request.toList := by
  rcases requestFor?_eq_some.mp h with ⟨rfl, -⟩ | ⟨-, -, rest, htext, -⟩
  · exact List.prefix_rfl
  · exact htext ▸ List.prefix_append ..

theorem prefix_of_size_le {first second : String} {text : List Char} (h : first.toList <+: text)
    (h' : second.toList <+: text) (hle : first.utf8ByteSize ≤ second.utf8ByteSize) :
    first.toList <+: second.toList := by
  rcases List.prefix_or_prefix_of_prefix h h' with hprefix | ⟨rest, hrest⟩
  · exact hprefix
  · obtain rfl : first = second ++ String.ofList rest := by
      rw [← String.toList_inj, String.toList_append, String.toList_ofList, hrest]
    rw [String.utf8ByteSize_append] at hle
    have hempty : String.ofList rest = "" := String.utf8ByteSize_eq_zero_iff.mp (by omega)
    refine ⟨[], ?_⟩
    rw [hempty, String.append_empty, List.append_nil]

/-- The first alias that fits has the largest key. -/
structure First (context : Path) (aliases : SortedMap Path) (request : String) (before : List Alias)
    (a : Alias) (after : List Alias) (result : String) : Prop where
  split : ordered context aliases = before ++ a :: after
  fits : a.requestFor? request.toList = some result
  misfit : ∀ b ∈ before, b.requestFor? request.toList = none

variable {before after : List Alias}

theorem exists_first
    (h : (ordered context aliases).findSome? (fun a => a.requestFor? request.toList) = some result) :
    ∃ before a after, First context aliases request before a after result := by
  obtain ⟨before, a, after, hsplit, hfits, hmisfit⟩ := List.findSome?_eq_some_iff.mp h
  exact ⟨before, a, after, hsplit, hfits, hmisfit⟩

theorem First.mem (h : First context aliases request before a after result) :
    a ∈ made context aliases := by
  rw [← mem_ordered, h.split]
  exact List.mem_append_right _ List.mem_cons_self

theorem First.prefix_key {other : String} (h : First context aliases request before a after result)
    (hb : b ∈ made context aliases) (hfits : b.requestFor? request.toList = some other) :
    b.key.toList <+: a.key.toList := by
  refine prefix_of_size_le (prefix_of_requestFor? hfits) (prefix_of_requestFor? h.fits) ?_
  have hpairwise := pairwise_ordered context aliases
  rw [← mem_ordered, h.split] at hb
  rw [h.split, List.pairwise_append] at hpairwise
  rcases List.mem_append.mp hb with hbefore | hb
  · rw [h.misfit b hbefore] at hfits
    exact absurd hfits nofun
  · rcases List.mem_cons.mp hb with rfl | hafter
    · exact Nat.le_refl _
    · exact size_le_of_precedes ((List.pairwise_cons.mp hpairwise.2.1).1 b hafter)

theorem First.of_key (h : First context aliases request before a after result)
    (hb : b ∈ made context aliases) (hkey : b.key = request) : a.key = request ∧ a.target = result := by
  have hfits : b.requestFor? request.toList = some b.target :=
    requestFor?_eq_some.mpr (.inl ⟨hkey.symm, rfl⟩)
  have hle := (h.prefix_key hb hfits).length_le
  have heq : a.key = request := by
    refine String.toList_inj.mp ((prefix_of_requestFor? h.fits).eq_of_length_le ?_)
    rwa [hkey] at hle
  rcases requestFor?_eq_some.mp h.fits with ⟨-, htarget⟩ | ⟨hne, -⟩
  · exact ⟨heq, htarget⟩
  · exact absurd heq.symm hne

theorem exists_first_of_key (hb : b ∈ made context aliases) (hkey : b.key = request) :
    ∃ result before a after, First context aliases request before a after result := by
  have hfits : b.requestFor? request.toList = some b.target :=
    requestFor?_eq_some.mpr (.inl ⟨hkey.symm, rfl⟩)
  cases hfind : (ordered context aliases).findSome? fun a => a.requestFor? request.toList with
  | none =>
      rw [List.findSome?_eq_none_iff] at hfind
      exact absurd ((hfind b (mem_ordered.mpr hb)).symm.trans hfits) nofun
  | some result => exact ⟨result, exists_first hfind⟩

/-- The request that the first alias which fits makes, if there is one. -/
def chosen (context : Path) (aliases : SortedMap Path) (request : String) : String :=
  ((ordered context aliases).findSome? fun a => a.requestFor? request.toList).getD request

theorem applyAlias_eq {c : Config} {r : Resolver} (h : Resolver.ofConfig c = .ok r) (request : String) :
    r.applyAlias request = chosen c.context.normalize c.resolve.aliases request := by
  have haliases : r.aliases = ordered c.context.normalize c.resolve.aliases := by
    rw [Resolver.ofConfig] at h
    cases hignore : Ignore.ofOptions 0 c.resolve.ignore with
    | error e =>
        rw [hignore] at h
        exact absurd h nofun
    | ok ignore =>
        rw [hignore] at h
        obtain rfl := Except.ok.inj h
        rfl
  rw [Resolver.applyAlias, haliases, chosen]

theorem First.chosen (h : First context aliases request before a after result) :
    chosen context aliases request = result := by
  have hfind := List.findSome?_eq_some_iff.mpr ⟨before, a, after, h.split, h.fits, h.misfit⟩
  rw [AliasChoice.chosen, hfind, Option.getD_some]

theorem chosen_of_plain (hkey : Plain request) (hget : aliases.get? request = some target) :
    chosen context aliases request = targetOf context target := by
  have hplain : (⟨request, false, targetOf context target⟩ : Alias) ∈ made context aliases :=
    mem_made.mpr (.inr ⟨target, hget, hkey, rfl⟩)
  obtain ⟨result, before, a, after, hfirst⟩ := exists_first_of_key hplain rfl
  obtain ⟨hrequest, htarget⟩ := hfirst.of_key hplain rfl
  rw [hfirst.chosen, ← htarget]
  rcases mem_made.mp hfirst.mem with ⟨marked, hmarked, ha⟩ | ⟨plain, hplain', -, ha⟩
  · -- the plain key is tried before the marked one, so that one is not the first
    rw [hrequest] at hmarked ha
    have hpair : [_, _].Sublist (ordered context aliases) := plain_before_marked hkey hget hmarked
    rw [← ha, hfirst.split, List.sublist_append_iff] at hpair
    obtain ⟨init, tail, hinit, hbefore, hafter⟩ := hpair
    cases init with
    | cons first init =>
        obtain ⟨rfl, -⟩ := List.cons.inj hinit
        have hmisfit := hfirst.misfit _ (hbefore.subset List.mem_cons_self)
        rw [requestFor?_eq_some.mpr (.inl ⟨rfl, rfl⟩)] at hmisfit
        exact absurd hmisfit nofun
    | nil =>
        obtain rfl := hinit
        have hnodup := nodup_ordered context aliases
        rw [hfirst.split, List.nodup_append] at hnodup
        have hne : (⟨request, false, targetOf context target⟩ : Alias) ≠ a := by
          rw [ha]
          exact nofun
        have hbehind : a ∈ after := by
          cases hafter with
          | cons _ hafter => exact hafter.subset (List.mem_cons_of_mem _ List.mem_cons_self)
          | cons_cons => exact absurd rfl hne
        exact absurd hbehind (List.nodup_cons.mp hnodup.2.1).1
  · rw [hrequest, hget] at hplain'
    rw [ha, Option.some.inj hplain']

theorem chosen_of_marked (hget : aliases.get? (request ++ "$") = some target)
    (hplain : ∀ plain, aliases.get? request = some plain → ¬ Plain request) :
    chosen context aliases request = targetOf context target := by
  have hmarked : (⟨request, true, targetOf context target⟩ : Alias) ∈ made context aliases :=
    mem_made.mpr (.inl ⟨target, hget, rfl⟩)
  obtain ⟨result, before, a, after, hfirst⟩ := exists_first_of_key hmarked rfl
  obtain ⟨hrequest, htarget⟩ := hfirst.of_key hmarked rfl
  rw [hfirst.chosen, ← htarget]
  rcases mem_made.mp hfirst.mem with ⟨marked, hmarked', ha⟩ | ⟨plain, hplain', hkey, -⟩
  · rw [hrequest, hget] at hmarked'
    rw [ha, Option.some.inj hmarked']
  · rw [hrequest] at hplain' hkey
    exact absurd hkey (hplain plain hplain')

theorem Begins.fits (h : Begins aliases request key rest target) (context : Path) :
    ∃ result, (⟨key, false, targetOf context target⟩ : Alias).requestFor? request.toList = some result := by
  rcases h.ends with hnil | hhead
  · refine ⟨_, requestFor?_eq_some.mpr (.inl ⟨String.toList_inj.mp ?_, rfl⟩)⟩
    rw [h.text, hnil, List.append_nil]
  · refine ⟨_, requestFor?_eq_some.mpr (.inr ⟨?_, rfl, rest, h.text, hhead, rfl⟩)⟩
    rintro rfl
    have hnil : rest = [] := by simpa using h.text
    rw [hnil] at hhead
    exact absurd hhead nofun

theorem Begins.mem (h : Begins aliases request key rest target) :
    (⟨key, false, targetOf context target⟩ : Alias) ∈ made context aliases :=
  mem_made.mpr (.inr ⟨target, h.configured, h.plain, rfl⟩)

theorem declared_of_unmarked (hget : aliases.get? (request ++ "$") = none) :
    Declared context aliases request (chosen context aliases request) := by
  cases hfind : (ordered context aliases).findSome? fun a => a.requestFor? request.toList with
  | none =>
      rw [chosen, hfind]
      refine .same hget fun key rest target hbegins => ?_
      obtain ⟨result, hfits⟩ := hbegins.fits context
      rw [List.findSome?_eq_none_iff] at hfind
      exact absurd ((hfind _ (mem_ordered.mpr hbegins.mem)).symm.trans hfits) nofun
  | some result =>
      obtain ⟨before, a, after, hfirst⟩ := exists_first hfind
      rw [hfirst.chosen]
      have hlongest : ∀ other rest' target', Begins aliases request other rest' target' →
          other.length ≤ a.key.length := by
        intro other rest' target' hbegins
        obtain ⟨result', hfits⟩ := hbegins.fits context
        exact (hfirst.prefix_key hbegins.mem hfits).length_le
      rcases mem_made.mp hfirst.mem with ⟨marked, hmarked, ha⟩ | ⟨plain, hplain, hkey, ha⟩
      · -- a marked key fits its own request only
        rcases requestFor?_eq_some.mp hfirst.fits with ⟨hrequest, -⟩ | ⟨-, hexact, -⟩
        · rw [← hrequest, hget] at hmarked
          exact absurd hmarked nofun
        · rw [ha] at hexact
          exact absurd hexact nofun
      · have htarget : a.target = targetOf context plain := by rw [ha]
        rcases requestFor?_eq_some.mp hfirst.fits with ⟨hrequest, rfl⟩ | ⟨-, -, rest, htext, hhead, rfl⟩
        · have hbegins : Begins aliases request a.key [] plain :=
            ⟨hplain, hkey, by rw [← hrequest, List.append_nil], .inl rfl⟩
          have hwhole : a.target ++ String.ofList [] = a.target := by
            rw [String.ofList_nil, String.append_empty]
          rw [← hwhole, htarget]
          exact .longest hget hbegins hlongest
        · have hbegins : Begins aliases request a.key rest plain := ⟨hplain, hkey, htext, .inr hhead⟩
          rw [htarget]
          exact .longest hget hbegins hlongest

/-- A request becomes what is declared for it, unless it is a plain and a marked key with two targets; then
the plain key is followed. -/
theorem applyAlias_declared_iff {c : Config} {r : Resolver} (h : Resolver.ofConfig c = .ok r)
    (request : String) :
    (Declared c.context.normalize c.resolve.aliases request (r.applyAlias request) ↔
      ∀ plain marked, Plain request → c.resolve.aliases.get? request = some plain →
        c.resolve.aliases.get? (request ++ "$") = some marked →
          targetOf c.context.normalize plain = targetOf c.context.normalize marked) ∧
      ∀ plain, Plain request → c.resolve.aliases.get? request = some plain →
        r.applyAlias request = targetOf c.context.normalize plain := by
  rw [applyAlias_eq h]
  refine ⟨⟨fun hdeclared plain marked hkey hplain hmarked => ?_, fun hsame => ?_⟩,
    fun plain hkey hplain => chosen_of_plain hkey hplain⟩
  · rw [chosen_of_plain hkey hplain] at hdeclared
    generalize hresult : targetOf c.context.normalize plain = result at hdeclared ⊢
    cases hdeclared with
    | exact hget => rw [Option.some.inj (hget.symm.trans hmarked)]
    | longest hget => exact absurd (hget.symm.trans hmarked) nofun
    | same hget => exact absurd (hget.symm.trans hmarked) nofun
  · cases hmarked : c.resolve.aliases.get? (request ++ "$") with
    | none => exact declared_of_unmarked hmarked
    | some marked =>
        by_cases hboth : ∃ plain, c.resolve.aliases.get? request = some plain ∧ Plain request
        · obtain ⟨plain, hplain, hkey⟩ := hboth
          rw [chosen_of_plain hkey hplain, hsame plain marked hkey hplain hmarked]
          exact .exact hmarked
        · rw [chosen_of_marked hmarked fun plain hplain hkey => hboth ⟨plain, hplain, hkey⟩]
          exact .exact hmarked

/-- A project with aliases for a directory, for a directory in it, and for a package in two ways. -/
def aliasConfig : Config where
  context := ⟨"/p"⟩
  resolve := {
    aliases := .ofList [("@", ⟨"./src"⟩), ("@/ui", ⟨"/q"⟩), ("vue", ⟨"/p/a.js"⟩), ("vue$", ⟨"/p/b.js"⟩)] }

theorem applyAlias_declared_iff_nested : ∃ r, Resolver.ofConfig aliasConfig = .ok r ∧
    Declared ⟨"/p"⟩ aliasConfig.resolve.aliases "@/ui/x" (r.applyAlias "@/ui/x") ∧
    r.applyAlias "@/ui" = "/q" := by
  obtain ⟨r, hr⟩ : ∃ r, Resolver.ofConfig aliasConfig = .ok r := ⟨_, rfl⟩
  refine ⟨r, hr, (applyAlias_declared_iff hr "@/ui/x").1.mpr ?_, ?_⟩
  · intro plain marked _ hplain
    exact absurd hplain nofun
  · exact (applyAlias_declared_iff hr "@/ui").2 ⟨"/q"⟩ (by simp [Plain]) rfl

/-- A marked key that is a plain key as well does not count, not even for its own request. -/
theorem marked_key_shadowed : ∃ r, Resolver.ofConfig aliasConfig = .ok r ∧
    aliasConfig.resolve.aliases.get? "vue$" = some ⟨"/p/b.js"⟩ ∧ r.applyAlias "vue" = "/p/a.js" ∧
    ¬ Declared ⟨"/p"⟩ aliasConfig.resolve.aliases "vue" (r.applyAlias "vue") := by
  obtain ⟨r, hr⟩ : ∃ r, Resolver.ofConfig aliasConfig = .ok r := ⟨_, rfl⟩
  have hmarked : aliasConfig.resolve.aliases.get? "vue$" = some ⟨"/p/b.js"⟩ := rfl
  have hplain : aliasConfig.resolve.aliases.get? "vue" = some ⟨"/p/a.js"⟩ := rfl
  have hvue : r.applyAlias "vue" = "/p/a.js" :=
    (applyAlias_eq hr "vue").trans (chosen_of_plain (by simp [Plain]) hplain)
  refine ⟨r, hr, hmarked, hvue, fun hdeclared => ?_⟩
  rw [hvue] at hdeclared
  generalize hresult : "/p/a.js" = result at hdeclared
  cases hdeclared with
  | exact hget =>
      obtain rfl := Option.some.inj (hget.symm.trans hmarked)
      exact absurd hresult (by decide)
  | longest hget => exact absurd (hget.symm.trans hmarked) nofun
  | same hget => exact absurd (hget.symm.trans hmarked) nofun

end WebBundle.Proofs.AliasChoice
