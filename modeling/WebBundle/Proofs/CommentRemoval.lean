import WebBundle.Proofs.ScriptReading
import WebBundle.Style.Comments

namespace WebBundle.Proofs.CommentRemoval

open Text
open WebBundle.Proofs.ScriptReading

variable {s : Script.Context} {text out body : List Char}

/-- The characters of a text that are not blank. -/
def visible (text : List Char) : List Char := text.filter fun c => !isSpace c

theorem visible_append (text rest : List Char) :
    visible (text ++ rest) = visible text ++ visible rest :=
  List.filter_append ..

theorem visible_cons (c : Char) (text : List Char) :
    visible (c :: text) = visible [c] ++ visible text :=
  visible_append [c] text

theorem visible_breaks (body : List Char) : visible (breaks body) = [] := by
  rw [visible, breaks, List.filter_filter, List.filter_eq_nil_iff]
  intro c _
  by_cases hc : c = '\n'
  · subst hc
    decide
  · simp [hc]

theorem count_breaks (body : List Char) : (breaks body).count '\n' = body.count '\n' := by
  rw [breaks, List.count_filter (by decide)]

theorem code_breaks (s : Script.Context) (body rest : List Char) :
    Script.withoutComments .code s.afterBlank (breaks body ++ rest) =
      breaks body ++ Script.withoutComments .code s.afterBlank rest := by
  induction body with
  | nil => rfl
  | cons c body ih =>
      by_cases hc : c = '\n'
      · have hcons : breaks (c :: body) = c :: breaks body := List.filter_cons_of_pos (by simpa)
        rw [hcons, List.cons_append, code_blank (.inr hc), List.cons_append]
        exact congrArg _ ih
      · have hcons : breaks (c :: body) = breaks body := List.filter_cons_of_neg (by simpa)
        rwa [hcons]

theorem head?_of_reads {c : Char} (h : Reads s text out) (hc : c = '/' ∨ c = '*')
    (hhead : out.head? = some c) : text.head? = some c := by
  cases h with
  | nil | code | literal | lastLiteral => exact hhead
  | lastLine => exact absurd hhead (by simp)
  | line | block | lastBlock =>
      obtain rfl := Option.some.inj hhead
      exact absurd hc (by decide)

theorem not_opens_of_reads {c : Char} (h : Reads s text out) (hopens : ¬ Opens c text) :
    ¬ Opens c out := by
  rintro ⟨hslash, hline | hblock⟩
  · exact hopens ⟨hslash, .inl (head?_of_reads h (.inl rfl) hline)⟩
  · exact hopens ⟨hslash, .inr (head?_of_reads h (.inr rfl) hblock)⟩

theorem not_opens_append {c : Char} {rest other : List Char} (hbody : body ≠ [])
    (hopens : ¬ Opens c (body ++ rest)) : ¬ Opens c (body ++ other) := by
  obtain ⟨d, body, rfl⟩ := List.exists_cons_of_ne_nil hbody
  exact hopens

/-- What is left of a script is read piece by piece as the script was. -/
theorem withoutComments_of_reads (h : Reads s text out) :
    Script.withoutComments .code s out = out := by
  induction h with
  | nil | lastLine => rw [Script.withoutComments]
  | line _ _ ih => rw [code_blank (.inr rfl), ih]
  | block _ _ ih => rw [code_blank (.inl rfl), code_breaks, ih]
  | @lastBlock s body _ =>
      rw [code_blank (.inl rfl), ← List.append_nil (breaks body), code_breaks,
        Script.withoutComments]
  | code hopens hbehind hrest ih =>
      rw [code_cons (not_opens_of_reads hrest hopens), hbehind, ih]
  | literal hopens hbehind hbody hclose _ ih =>
      rw [code_cons (not_opens_append hbody hopens), hbehind, hclose, ih]
  | lastLiteral hopens hbehind hall => rw [code_cons hopens, hbehind, hall]

theorem count_of_reads (h : Reads s text out) : out.count '\n' = text.count '\n' := by
  induction h with
  | nil | lastLiteral => rfl
  | line hbody _ ih => simp [ih, List.count_eq_zero.mpr hbody]
  | lastLine hbody => simp [List.count_eq_zero.mpr hbody]
  | block _ _ ih => simp [ih, count_breaks]
  | lastBlock => simp [count_breaks]
  | code _ _ _ ih => rw [List.count_cons, List.count_cons, ih]
  | literal _ _ _ _ _ ih => simp only [List.count_cons, List.count_append, ih]

theorem visible_sublist (front rest : List Char) : (visible rest).Sublist (visible (front ++ rest)) := by
  rw [visible_append]
  exact List.sublist_append_right _ _

theorem visible_of_reads (h : Reads s text out) : (visible out).Sublist (visible text) := by
  have hblank : visible [' '] = [] ∧ visible ['\n'] = [] := by decide
  induction h with
  | nil | lastLiteral => exact .refl _
  | @line _ body rest out _ _ ih =>
      have htext := visible_sublist ('/' :: '/' :: (body ++ ['\n'])) rest
      rw [visible_cons, hblank.2]
      exact ih.trans (by simpa using htext)
  | lastLine => exact List.nil_sublist _
  | @block _ body rest out _ _ ih =>
      have htext := visible_sublist ('/' :: '*' :: (body ++ ['*', '/'])) rest
      rw [visible_cons, hblank.1, visible_append, visible_breaks]
      exact ih.trans (by simpa using htext)
  | @lastBlock _ body _ =>
      rw [visible_cons, hblank.1, visible_breaks]
      exact List.nil_sublist _
  | @code _ _ c rest out _ _ _ ih =>
      rw [visible_cons c out, visible_cons c rest]
      exact ih.append_left _
  | @literal _ _ _ _ c body rest out _ _ _ _ _ ih =>
      rw [visible_cons c, visible_append, visible_cons c (body ++ rest), visible_append]
      exact (ih.append_left _).append_left _

theorem rules_cons {c : Char} {rest : List Char} (h : c = '/' → rest.head? ≠ some '*') :
    Style.withoutComments .rules (c :: rest) =
      c :: Style.withoutComments (if c = '"' ∨ c = '\'' then .quoted c else .rules) rest := by
  rw [Style.withoutComments]
  rintro other rfl rfl
  exact h rfl rfl

theorem rules_blank {c : Char} (hc : c = ' ' ∨ c = '\n') (rest : List Char) :
    Style.withoutComments .rules (c :: rest) = c :: Style.withoutComments .rules rest := by
  rcases hc with rfl | rfl <;> simp [Style.withoutComments]

theorem head?_of_rules (text : List Char)
    (hhead : (Style.withoutComments .rules text).head? = some '*') : text.head? = some '*' := by
  rcases text with _ | ⟨c, text⟩
  · rwa [Style.withoutComments] at hhead
  · by_cases h : c = '/' → text.head? ≠ some '*'
    · rwa [rules_cons h] at hhead
    · push Not at h
      obtain ⟨rfl, htext⟩ := h
      obtain ⟨rest, rfl⟩ := List.head?_eq_some_iff.mp htext
      rw [Style.withoutComments] at hhead
      exact absurd hhead (by simp)

/-- The region in which what is left of a stylesheet begins. -/
def left : Style.Region → Style.Region
  | .comment => .rules
  | region => region

theorem withoutComments_left (region : Style.Region) (text : List Char) :
    Style.withoutComments (left region) (Style.withoutComments region text) =
      Style.withoutComments region text := by
  fun_induction Style.withoutComments region text with
  | case1 => rw [Style.withoutComments]
  | case2 rest ih => exact (rules_blank (.inl rfl) _).trans (congrArg _ ih)
  | case3 c rest hopens ih =>
      refine (rules_cons fun hc hhead => ?_).trans (congrArg _ ?_)
      · subst hc
        obtain ⟨other, rfl⟩ := List.head?_eq_some_iff.mp (head?_of_rules rest hhead)
        exact hopens other rfl rfl
      · split_ifs at ih ⊢ <;> exact ih
  | case4 rest ih => exact ih
  | case5 rest hends ih => exact (rules_blank (.inr rfl) _).trans (congrArg _ ih)
  | case6 c rest hends hc ih => exact ih
  | case7 quote c rest ih =>
      change Style.withoutComments (.quoted quote) _ = _
      rw [Style.withoutComments]
      exact congrArg (fun text => '\\' :: c :: text) ih
  | case8 quote c rest hescape ih =>
      change Style.withoutComments (.quoted quote) _ = _
      rw [Style.withoutComments]
      · split_ifs at ih ⊢ <;> exact congrArg _ ih
      · intro d other hc hrest
        cases rest with
        | nil => simp [Style.withoutComments] at hrest
        | cons e rest => exact hescape e rest hc rfl

theorem count_withoutComments (region : Style.Region) (text : List Char) :
    (Style.withoutComments region text).count '\n' = text.count '\n' := by
  fun_induction Style.withoutComments region text with
  | case1 => rfl
  | case2 _ ih | case4 _ ih => simpa using ih
  | case3 _ _ _ ih | case8 _ _ _ _ ih => rw [List.count_cons, List.count_cons, ih]
  | case5 _ _ ih => simpa using ih
  | case6 c _ _ hc ih => rw [ih, List.count_cons_of_ne hc]
  | case7 _ _ _ ih => simp only [List.count_cons, ih]

theorem visible_withoutComments (region : Style.Region) (text : List Char) :
    (visible (Style.withoutComments region text)).Sublist (visible text) := by
  have hblank : visible [' '] = [] ∧ visible ['\n'] = [] := by decide
  fun_induction Style.withoutComments region text with
  | case1 => exact .refl _
  | case2 rest ih =>
      rw [visible_cons, hblank.1]
      exact ih.trans ((List.suffix_append ['/', '*'] rest).sublist.filter _)
  | case3 c rest _ ih | case8 _ c rest _ ih =>
      rw [visible_cons, visible_cons c rest]
      exact ih.append_left _
  | case4 rest ih => exact ih.trans (visible_sublist ['*', '/'] rest)
  | case5 rest _ ih => rwa [visible_cons, visible_cons _ rest, hblank.2]
  | case6 c rest _ _ ih => exact ih.trans (visible_sublist [c] rest)
  | case7 _ c rest ih =>
      rw [visible_cons, visible_cons c, visible_cons _ (c :: rest), visible_cons c rest]
      exact (ih.append_left _).append_left _

/-- A text without its comments stays as it is when they are removed again, keeps its line breaks, and
shows a part of what it showed, in the same order. -/
structure RemovesComments (strip : String → String) : Prop where
  again (source : String) : strip (strip source) = strip source
  breaks (source : String) : (strip source).toList.count '\n' = source.toList.count '\n'
  visible (source : String) :
    (visible (strip source).toList).Sublist (visible source.toList)

theorem script_eq_of_reads {source : String} (h : Reads {} source.toList out) :
    Script.stripComments source = String.ofList out := by
  rw [Script.stripComments, h.eq]

/-- What comment removal does to any script and any stylesheet. -/
theorem removesComments_script_style :
    RemovesComments Script.stripComments ∧ RemovesComments Style.stripComments := by
  constructor
  · refine ⟨fun source => ?_, fun source => ?_, fun source => ?_⟩
    all_goals
      obtain ⟨out, hreads⟩ := exists_reads {} source.toList
      rw [script_eq_of_reads hreads]
    · rw [Script.stripComments, String.toList_ofList, withoutComments_of_reads hreads]
    · rw [String.toList_ofList, count_of_reads hreads]
    · rw [String.toList_ofList]
      exact visible_of_reads hreads
  · refine ⟨fun source => ?_, fun source => ?_, fun source => ?_⟩
    all_goals simp only [Style.stripComments, String.toList_ofList]
    · exact congrArg _ (withoutComments_left .rules _)
    · exact count_withoutComments .rules _
    · exact visible_withoutComments .rules _

end WebBundle.Proofs.CommentRemoval
