import WebBundle.Proofs.QuotedData
import WebBundle.Proofs.ScannedImports
import WebBundle.Transform.Basic

namespace WebBundle.Proofs.DataModules

open Text Script TextSearch CallForms StatementForms ScannedImports QuotedData Json

variable {text word front rear : List Char} {c : Char}

/-- A text ends where a specifier may open: in a blank, an opening parenthesis or the end of a
comment. -/
def Opens (text : List Char) : Prop :=
  (∃ init c, text = init ++ [c] ∧ (isSpace c = true ∨ c = '(')) ∨ ∃ init, text = init ++ ['*', '/']

theorem Opens.append (h : Opens text) (front : List Char) : Opens (front ++ text) := by
  rcases h with ⟨init, c, rfl, hc⟩ | ⟨init, rfl⟩
  · exact .inl ⟨front ++ init, c, by rw [List.append_assoc], hc⟩
  · exact .inr ⟨front ++ init, by rw [List.append_assoc]⟩

theorem opens_concat : Opens (text ++ [c]) ↔
    isSpace c = true ∨ c = '(' ∨ (c = '/' ∧ text.getLast? = some '*') := by
  constructor
  · rintro (⟨init, d, heq, hd⟩ | ⟨init, heq⟩)
    · obtain rfl : c = d := by simpa using (List.append_inj' heq rfl).2
      exact hd.imp_right .inl
    · have hlast : init ++ ['*', '/'] = (init ++ ['*']) ++ ['/'] := by simp
      obtain ⟨rfl, hc⟩ := List.append_inj' (heq.trans hlast) rfl
      exact .inr (.inr ⟨by simpa using hc, by simp⟩)
  · rintro (hc | rfl | ⟨rfl, hlast⟩)
    · exact .inl ⟨text, c, rfl, .inl hc⟩
    · exact .inl ⟨text, '(', rfl, .inr rfl⟩
    · obtain ⟨init, rfl⟩ := List.getLast?_eq_some_iff.mp hlast
      exact .inr ⟨init, by simp⟩

theorem not_opens_nil : ¬ Opens [] := by simp [Opens]

theorem opens_of_blank {blanks : List Char} (hblank : Blank blanks) (hne : blanks ≠ []) :
    Opens blanks := by
  obtain ⟨init, last, rfl⟩ := exists_append_singleton hne
  exact opens_concat.mpr (.inl (hblank last (by simp)))

theorem Opens.append_blank (h : Opens text) {blanks : List Char} (hblank : Blank blanks) :
    Opens (text ++ blanks) := by
  by_cases hne : blanks = []
  · rwa [hne, List.append_nil]
  · exact (opens_of_blank hblank hne).append text

/-- A quote where a specifier may open, and a later quote. -/
def HasOpening (text : List Char) : Prop :=
  ∃ front quote rear, text = front ++ quote :: rear ∧ isQuote quote = true ∧ Opens front ∧
    ∃ x ∈ rear, isQuote x = true

theorem HasOpening.append (h : HasOpening text) (front : List Char) :
    HasOpening (front ++ text) := by
  obtain ⟨init, quote, rear, rfl, hquote, hopens, hrear⟩ := h
  exact ⟨front ++ init, quote, rear, by rw [List.append_assoc], hquote, hopens.append front, hrear⟩

variable {specifier rest : List Char}

theorem hasOpening_quoted (hfront : Opens front) (h : Quoted specifier rest text) :
    HasOpening (front ++ text) := by
  obtain ⟨opening, closing, hopening, hclosing, -, -, rfl⟩ := h
  exact ⟨front, opening, specifier ++ closing :: rest, rfl, hopening, hfront,
    closing, by simp, hclosing⟩

theorem hasOpening_argument (hfront : Opens front) (h : Argument specifier rest text) :
    HasOpening (front ++ text) := by
  obtain ⟨blanks, -, hquoted⟩ := h
  exact hasOpening_quoted hfront hquoted

theorem hasOpening_spacedSource (h : SpacedSource text) : HasOpening text := by
  obtain ⟨blanks, source, specifier, rest, hne, hblank, rfl, hquoted⟩ := h
  exact hasOpening_quoted (opens_of_blank hblank hne) hquoted

theorem hasOpening_fromSource (h : FromSource text) : HasOpening text := by
  obtain ⟨blanks, behind, -, rfl, hbehind⟩ := h
  exact ((hasOpening_spacedSource hbehind).append _).append _

theorem hasOpening_namedSource (h : NamedSource text) : HasOpening text := by
  obtain ⟨name, behind, -, -, -, rfl, hfrom | ⟨-, -, -, hspaced⟩⟩ := h
  · exact (hasOpening_fromSource hfrom).append _
  · exact (hasOpening_spacedSource hspaced).append _

theorem hasOpening_export (h : ExportStatement text) : HasOpening text := by
  obtain ⟨blanks, clause, -, -, rfl, hclause⟩ := h
  refine (HasOpening.append ?_ _).append _
  rcases hclause with ⟨behind, rfl, ⟨first, second, named, -, -, -, -, -, rfl, hnamed⟩ | hfrom⟩ |
    ⟨behind, rfl, inner, source, -, rfl, hfrom⟩
  · exact ((((hasOpening_namedSource hnamed).append _).append _).append _).append ['*']
  · exact (hasOpening_fromSource hfrom).append ['*']
  · exact (((hasOpening_fromSource hfrom).append ['}']).append inner).append ['{']

theorem hasOpening_import (h : ImportStatement text) : HasOpening text := by
  obtain ⟨between, source, specifier, rest, rfl, hclause, hquoted⟩ := h
  have hopens : Opens between := by
    rcases hclause with ⟨hne, hblank⟩ | ⟨first, names, second, third, -, -, -, -, -, -, hne,
      hblank, rfl⟩
    · exact opens_of_blank hblank hne
    · exact (opens_of_blank hblank hne).append _
  exact (hasOpening_quoted hopens hquoted).append _

theorem opens_call {function first second : List Char} (hsecond : Blank second) :
    Opens (function ++ (first ++ ['(']) ++ second) := by
  have hopen : Opens ['('] := .inl ⟨[], '(', rfl, .inr rfl⟩
  exact ((hopen.append first).append function).append_blank hsecond

theorem hasOpening_require (h : RequireCall text) : HasOpening text := by
  obtain ⟨first, second, argument, -, hsecond, rfl, specifier, rest, hargument⟩ := h
  rw [← List.append_assoc]
  exact hasOpening_argument (opens_call hsecond) hargument

theorem hasOpening_dynamic (h : IsDynamicCall text) : HasOpening text := by
  obtain ⟨specifier, rest, first, second, argument, -, hsecond, rfl, hargument⟩ := h
  rw [← List.append_assoc]
  rcases hargument with hargument | ⟨comment, rfl, inner, blanks, argument, -, hblanks, rfl,
    hargument⟩
  · exact hasOpening_argument (opens_call hsecond) hargument
  · have hend : Opens (['*', '/'] ++ blanks) := Opens.append_blank (.inr ⟨[], rfl⟩) hblanks
    have hopening := ((hasOpening_argument hend hargument).append inner).append ['/', '*']
    simpa using hopening.append ("import".toList ++ (first ++ ['(']) ++ second)

theorem hasOpening_of_importForm (h : ImportForm text) : HasOpening text := by
  rcases h with h | h | h | h
  · exact hasOpening_import h
  · exact hasOpening_export h
  · exact hasOpening_require h
  · exact hasOpening_dynamic h

/-- No quote of a text stands where a specifier may open. -/
def Silent (text : List Char) : Prop :=
  ∀ front quote rear, text = front ++ quote :: rear → isQuote quote = true → ¬ Opens front

theorem silent_concat : Silent (text ++ [c]) ↔ Silent text ∧ (isQuote c = true → ¬ Opens text) := by
  constructor
  · intro h
    refine ⟨fun front quote rear htext => h front quote (rear ++ [c]) (by simp [htext]),
      h text c [] rfl⟩
  · rintro ⟨htext, hc⟩ front quote rear heq hquote
    rcases List.eq_nil_or_concat rear with rfl | ⟨rear, d, rfl⟩
    · obtain ⟨rfl, hlast⟩ := List.append_inj' heq rfl
      obtain rfl : c = quote := by simpa using hlast
      exact hc hquote
    · have hsplit : text ++ [c] = (front ++ quote :: rear) ++ [d] := by simpa using heq
      exact htext front quote rear (List.append_inj' hsplit rfl).1 hquote

theorem silent_append_of_forall (h : Silent text) (hword : ∀ c ∈ word, isQuote c = false) :
    Silent (text ++ word) := by
  induction word generalizing text with
  | nil => rwa [List.append_nil]
  | cons c word ih =>
      obtain ⟨hc, hword⟩ := List.forall_mem_cons.mp hword
      rw [List.append_cons]
      exact ih (silent_concat.mpr ⟨h, by simp [hc]⟩) hword

/-- A character that ends no text where a specifier may open, nor part of such an end. -/
def isFirm (c : Char) : Bool := !(isSpace c || c == '(' || c == '/' || c == '*')

theorem not_opens_of_firm (h : ∀ c ∈ text.getLast?, isFirm c = true) : ¬ Opens text := by
  rcases List.eq_nil_or_concat text with rfl | ⟨init, c, rfl⟩
  · exact not_opens_nil
  · have hc : isFirm c = true := h c (by simp)
    simp only [isFirm, Bool.not_eq_true', Bool.or_eq_false_iff, beq_eq_false_iff_ne] at hc
    obtain ⟨⟨⟨hspace, hopen⟩, hslash⟩, -⟩ := hc
    rw [List.concat_eq_append, opens_concat]
    simp [hspace, hopen, hslash]

/-- In a text no specifier opens, and neither does one behind it. -/
structure Sealed (text : List Char) : Prop where
  silent : Silent text
  firm : ∀ c ∈ text.getLast?, isFirm c = true

theorem Opens.of_append (h : Opens (text ++ word)) (hfirm : ∀ c ∈ text.getLast?, isFirm c = true) :
    Opens word := by
  rcases List.eq_nil_or_concat word with rfl | ⟨init, d, rfl⟩
  · rw [List.append_nil] at h
    exact absurd h (not_opens_of_firm hfirm)
  · rw [List.concat_eq_append] at h ⊢
    rw [← List.append_assoc, opens_concat, List.getLast?_append] at h
    rw [opens_concat]
    refine h.imp_right (Or.imp_right fun ⟨hd, hlast⟩ => ⟨hd, ?_⟩)
    cases hinit : init.getLast? with
    | none =>
        rw [hinit, Option.none_or] at hlast
        exact absurd (hfirm '*' hlast) (by decide)
    | some x => rwa [hinit, Option.some_or] at hlast

theorem Sealed.append (h : Sealed text) (h' : Sealed word) : Sealed (text ++ word) := by
  constructor
  · intro front quote rear heq hquote
    rcases List.append_eq_append_iff.mp heq with ⟨inner, rfl, hword⟩ | ⟨others, htext, hrear⟩
    · exact fun hopens => h'.silent inner quote rear hword hquote (hopens.of_append h.firm)
    · cases others with
      | nil =>
          rw [List.append_nil] at htext
          exact htext ▸ not_opens_of_firm h.firm
      | cons x others =>
          obtain ⟨rfl, -⟩ := List.cons.inj hrear
          exact h.silent front quote others htext hquote
  · intro c hc
    rw [List.getLast?_append, Option.mem_def, Option.or_eq_some_iff] at hc
    rcases hc with hc | ⟨-, hc⟩
    · exact h'.firm c hc
    · exact h.firm c hc

theorem sealed_of_marks (h : ∀ c ∈ text, isMark c = true) : Sealed text := by
  have hmark : ∀ c, isMark c = true → isQuote c = false ∧ isFirm c = true := by
    intro c hc
    simp only [isMark, isPlain, Bool.and_eq_true, Bool.not_eq_true', Bool.or_eq_false_iff] at hc
    simp [isQuote, isFirm, hc]
  constructor
  · rintro front quote rear rfl hquote
    have hplain := (hmark quote (h quote (by simp))).1
    exact absurd hquote (by simp [hplain])
  · exact fun c hc => (hmark c (h c (List.mem_of_getLast? hc))).2

/-- No apostrophe of a text stands where a specifier may open. -/
def Calm (text : List Char) : Prop := ∀ front rear, text = front ++ '\'' :: rear → ¬ Opens front

theorem Calm.of_append (h : Calm (text ++ word)) : Calm text :=
  fun front rear htext => h front (rear ++ word) (by simp [htext])

theorem firm_of_escape {letter : Char} {digits : List Char} (hletter : letter ∈ escapeLetters)
    (hdigits : ∀ x ∈ digits, x ∈ hexLetters) (front : List Char) :
    ∀ x ∈ (front ++ '\\' :: letter :: digits).getLast?, isFirm x = true := by
  have hfirm : ∀ x ∈ escapeLetters ++ hexLetters, isFirm x = true := forall_mem_of_all (by decide)
  intro x hx
  rw [List.append_cons, List.getLast?_append, List.getLast?_cons, Option.some_or,
    ← List.getLast?_cons] at hx
  refine hfirm x (List.mem_append.mpr ?_)
  rcases List.mem_cons.mp (List.mem_of_getLast? hx) with rfl | hx
  · exact .inl hletter
  · exact .inr (hdigits x hx)

theorem flatMap_escapeChar_concat (text : List Char) (c : Char) :
    '"' :: (text ++ [c]).flatMap escapeChar = ('"' :: text.flatMap escapeChar) ++ escapeChar c := by
  simp

theorem getLast?_escaped (h : ('"' :: text.flatMap escapeChar).getLast? = some '*') :
    text.getLast? = some '*' := by
  rcases List.eq_nil_or_concat text with rfl | ⟨init, c, rfl⟩
  · exact absurd h (by decide)
  · rw [List.concat_eq_append] at h ⊢
    rw [flatMap_escapeChar_concat] at h
    rcases escapeChar_cases c with ⟨hc, -⟩ | ⟨letter, hletter, digits, hc, hdigits⟩
    · rw [hc, List.getLast?_concat] at h
      rw [List.getLast?_concat, h]
    · rw [hc] at h
      exact absurd (firm_of_escape hletter hdigits _ _ h) (by decide)

theorem opens_escaped (h : Opens ('"' :: text.flatMap escapeChar)) : Opens text := by
  rcases List.eq_nil_or_concat text with rfl | ⟨init, c, rfl⟩
  · exact absurd h (not_opens_of_firm (forall_getLast?_of_all (by decide)))
  · rw [List.concat_eq_append] at h ⊢
    rw [flatMap_escapeChar_concat] at h
    rcases escapeChar_cases c with ⟨hc, -⟩ | ⟨letter, hletter, digits, hc, hdigits⟩
    · rw [hc, opens_concat] at h
      exact opens_concat.mpr (h.imp_right (Or.imp_right (And.imp_right getLast?_escaped)))
    · rw [hc] at h
      exact absurd h (not_opens_of_firm (firm_of_escape hletter hdigits _))

theorem silent_escaped (h : Calm text) : Silent ('"' :: text.flatMap escapeChar) := by
  induction text using List.reverseRecOn with
  | nil =>
      have hnil : Silent [] := by simp [Silent]
      exact silent_concat.mpr ⟨hnil, fun _ => not_opens_nil⟩
  | append_singleton text c ih =>
      have htext := ih h.of_append
      rw [flatMap_escapeChar_concat]
      rcases escapeChar_cases c with ⟨hc, hne, -⟩ | ⟨letter, hletter, digits, hc, hdigits⟩
      · rw [hc, silent_concat]
        refine ⟨htext, fun hquote hopens => ?_⟩
        obtain rfl : c = '\'' := by simpa [isQuote, hne] using hquote
        exact h text [] rfl (opens_escaped hopens)
      · have hplain : ∀ x ∈ digits, isQuote x = false := by
          have hall : ∀ x ∈ hexLetters, isQuote x = false := forall_mem_of_all (by decide)
          exact fun x hx => hall x (hdigits x hx)
        have hslash : Silent (('"' :: text.flatMap escapeChar) ++ ['\\']) :=
          silent_concat.mpr ⟨htext, fun hquote => absurd hquote (by decide)⟩
        have hopens : ¬ Opens (('"' :: text.flatMap escapeChar) ++ ['\\']) :=
          not_opens_of_firm (forall_getLast?_of_all (by rw [List.getLast?_concat]; decide))
        rw [hc, List.append_cons, List.append_cons]
        exact silent_append_of_forall (silent_concat.mpr ⟨hslash, fun _ => hopens⟩) hplain

theorem sealed_quoteChars (hcalm : Calm text) (hopens : ¬ Opens text) :
    Sealed (quoteChars text) := by
  have htext : quoteChars text = ('"' :: text.flatMap escapeChar) ++ ['"'] := rfl
  rw [htext]
  refine ⟨silent_concat.mpr ⟨silent_escaped hcalm, fun _ h => hopens (opens_escaped h)⟩, ?_⟩
  exact forall_getLast?_of_all (by rw [List.getLast?_concat]; decide)

theorem sealed_compactChars {value : Json}
    (h : ∀ text ∈ strings value, Calm text.toList ∧ ¬ Opens text.toList) :
      Sealed (compactChars value) :=
  compactChars_induction (P := Sealed) Sealed.append sealed_of_marks value
    fun text htext => sealed_quoteChars (h text htext).1 (h text htext).2

def exportPrefix : List Char := "module.exports = ".toList

theorem importForm_start (h : ImportForm text) : "import".toList <+: text ∨
    "require".toList <+: text ∨
    ∃ c, isSpace c = true ∧ "export".toList ++ [c] <+: text := by
  rcases h with ⟨between, source, -, -, rfl, -⟩ | ⟨blanks, clause, hne, hblank, rfl, -⟩ |
    ⟨first, second, behind, -, -, rfl, -⟩ | ⟨specifier, rest, first, second, behind, -, -, rfl, -⟩
  · exact .inl (List.prefix_append _ _)
  · obtain ⟨c, blanks, rfl⟩ := List.exists_cons_of_ne_nil hne
    exact .inr (.inr ⟨c, hblank c List.mem_cons_self, blanks ++ clause, by simp⟩)
  · exact .inr (.inl ((List.prefix_append _ _).trans (List.prefix_append _ _)))
  · exact .inl ((List.prefix_append _ _).trans (List.prefix_append _ _))

theorem not_prefix_append {suffix : List Char} (h : ¬ word <+: suffix) (h' : ¬ suffix <+: word)
    (rest : List Char) :
    ¬ word <+: suffix ++ rest := fun hword =>
  (List.prefix_or_prefix_of_prefix hword (List.prefix_append suffix rest)).elim h h'

theorem not_importForm_of_suffix {suffix : List Char} (h : exportPrefix = front ++ suffix)
    (hne : suffix ≠ [])
    (rest : List Char) : ¬ ImportForm (suffix ++ rest) := by
  have hwords : ∀ n < 17, ∀ word ∈ ["import".toList, "require".toList],
      ¬ word <+: exportPrefix.drop n ∧ ¬ exportPrefix.drop n <+: word := by decide
  have hexport : ∀ n < 17, n ≠ 7 →
      ¬ "export".toList <+: exportPrefix.drop n ∧
        ¬ exportPrefix.drop n <+: "export".toList := by decide
  have hsuffix : suffix = exportPrefix.drop front.length := by rw [h, List.drop_left]
  have hlength : front.length < 17 := by
    have htotal : 17 = front.length + suffix.length := by rw [← List.length_append, ← h]; rfl
    have hpos := List.length_pos_iff.mpr hne
    omega
  intro hform
  rcases importForm_start hform with hword | hword | ⟨c, hc, hword⟩
  · have hfails := hwords _ hlength _ List.mem_cons_self
    rw [hsuffix] at hword
    exact not_prefix_append hfails.1 hfails.2 rest hword
  · have hfails := hwords _ hlength "require".toList (by simp)
    rw [hsuffix] at hword
    exact not_prefix_append hfails.1 hfails.2 rest hword
  · rw [hsuffix] at hword
    by_cases hseven : front.length = 7
    · -- the word is longer here: `exports`
      rw [hseven] at hword
      obtain ⟨behind, heq⟩ := hword
      have hletter : some c = some 's' := congrArg (fun text : List Char => text[6]?) heq
      obtain rfl := Option.some.inj hletter
      exact absurd hc (by decide)
    · have hfails := hexport _ hlength hseven
      exact not_prefix_append hfails.1 hfails.2 rest ((List.prefix_append _ _).trans hword)

/-- A script that exports an expression imports nothing if no specifier opens in the expression.
What follows may hold one more quote. -/
theorem not_somewhere_of_silent {rest : List Char} (h : Silent word)
    (hrest : ∀ front quote rear, rest = front ++ quote :: rear → isQuote quote = true →
      ∀ x ∈ rear, isQuote x = false) :
    ¬ Somewhere ImportForm (exportPrefix ++ (word ++ rest)) := by
  have hinside : ∀ inner rear, word ++ rest = inner ++ rear → ¬ ImportForm rear := by
    intro inner rear htext hform
    obtain ⟨init, quote, last, heq, hquote, hopens, x, hx, hx'⟩ :=
      (hasOpening_of_importForm hform).append inner
    rw [← htext] at heq
    rcases List.append_eq_append_iff.mp heq with ⟨others, -, hlast⟩ | ⟨others, hword, hlast⟩
    · exact absurd hx' (by simp [hrest others quote last hlast hquote x hx])
    · cases others with
      | nil => exact absurd hx' (by simp [hrest [] quote last hlast.symm hquote x hx])
      | cons y others =>
          obtain ⟨rfl, -⟩ := List.cons.inj hlast
          exact h init quote others hword hquote hopens
  rintro ⟨front, rear, htext, -, hform⟩
  rcases List.append_eq_append_iff.mp htext with ⟨inner, -, hrear⟩ | ⟨suffix, hprefix, hrear⟩
  · exact hinside inner rear hrear hform
  · by_cases hne : suffix = []
    · rw [hne, List.nil_append] at hrear
      exact hinside [] rear hrear.symm hform
    · rw [hrear] at hform
      exact not_importForm_of_suffix hprefix hne _ hform

theorem text?_toUTF8 (text : String) : text? text.toUTF8 = some text := by
  simp only [text?, String.fromUTF8?]
  split
  · rfl
  · rename_i hinvalid
    exact absurd text.isValidUTF8 hinvalid

theorem text?_ofText (kind : ArtifactKind) (text : String) :
    (Artifact.ofText kind text).text? = some text :=
  text?_toUTF8 text

theorem lossyText_toUTF8 (text : String) : lossyText text.toUTF8 = text :=
    lossyText_of_text? (text?_toUTF8 text)

/-- The module imports nothing, and its text is emitted as it is. -/
def Inert (module : Artifact) : Prop :=
  module.imports = [] ∧ loadOnDemand (lossyText module.content) = lossyText module.content

theorem copied_exported {expression : List Char} (h : Copied expression) :
    withoutComments .code {} (exportPrefix ++ (expression ++ [';'])) = exportPrefix ++
      (expression ++ [';']) := by
  have hmarks : ∀ word, (∀ c ∈ word, isPlain c = true) → Copied word := fun _ => copied_of_forall
  have hscript : Copied (exportPrefix ++ (expression ++ [';'])) :=
    (hmarks exportPrefix (forall_mem_of_all (by decide))).append
      (h.append (hmarks [';'] (forall_mem_of_all (by decide))))
  obtain ⟨s, -, hcode⟩ := hscript {} rfl
  simpa [withoutComments] using hcode []

theorem toList_exporting (expression : String) :
    (lossyText (Transform.exporting expression).content).toList = exportPrefix ++
      (expression.toList ++ [';']) := by
  rw [Transform.exporting, Artifact.ofText, lossyText_toUTF8, String.toList_append,
    String.toList_append,
    List.append_assoc]
  rfl

theorem inert_exporting_iff {expression : String} (h : Copied expression.toList) :
    Inert (Transform.exporting expression) ↔
      ¬ Somewhere ImportForm (exportPrefix ++ (expression.toList ++ [';'])) := by
  have himports : (Transform.exporting expression).imports = [] ↔
      ¬ Somewhere ImportForm (exportPrefix ++ (expression.toList ++ [';'])) := by
    change imports (lossyText (Transform.exporting expression).content) = [] ↔ _
    rw [imports_eq_nil_iff, toList_exporting, copied_exported h]
  rw [Inert, himports, and_iff_left_iff_imp]
  intro hnone
  refine loadOnDemand_eq_self ?_
  rw [toList_exporting]
  rintro ⟨front, rear, htext, hstart, hcall⟩
  exact hnone ⟨front, rear, htext, hstart, .inr (.inr (.inr hcall))⟩

theorem inert_quoted {text : String} (h : Calm text.toList) :
    Inert (Transform.exporting (quote text)) := by
  have hquote : (quote text).toList = quoteChars text.toList := String.toList_ofList
  rw [inert_exporting_iff (hquote ▸ copied_quoteChars _), hquote]
  have htext : quoteChars text.toList ++ [';'] = ('"' :: text.toList.flatMap escapeChar) ++
      ['"', ';'] := by
    simp [quoteChars]
  rw [htext]
  refine not_somewhere_of_silent (silent_escaped h) ?_
  intro front quote rear heq hquote
  rcases List.cons_eq_append_iff.mp heq with ⟨-, hrear⟩ | ⟨front, -, hrear⟩
  · obtain ⟨-, rfl⟩ := List.cons.inj hrear
    exact forall_mem_of_all (by decide)
  · have hmem : quote ∈ [';'] := hrear ▸ List.mem_append_right _ List.mem_cons_self
    obtain rfl := List.mem_singleton.mp hmem
    exact absurd hquote (by decide)

theorem inert_document {value : Json}
    (h : ∀ text ∈ strings value, Calm text.toList ∧ ¬ Opens text.toList) :
    Inert (Transform.exporting value.compact) := by
  have hcompact : value.compact.toList = compactChars value := String.toList_ofList
  rw [inert_exporting_iff (hcompact ▸ copied_compactChars value), hcompact]
  have hmark : Sealed [';'] := sealed_of_marks (forall_mem_of_all (by decide))
  have hsilent := ((sealed_compactChars h).append hmark).silent
  have hnone : ¬ Somewhere ImportForm (exportPrefix ++ (compactChars value ++ [';'] ++ [])) :=
    not_somewhere_of_silent hsilent (by simp)
  rwa [List.append_nil] at hnone

/-- Modules that the transforms make of texts and of JSON documents are inert, if and only if
nowhere in them something seems to be imported: so they are if no apostrophe stands where a
specifier may open, and if in a document no string ends there. -/
theorem data_inert_iff (input : Artifact) (path : Path) :
    (∀ text, input.text? = some text →
      ∃ module, @Transform.apply .raw path input = .ok { primary := module } ∧
        lossyText module.content = "module.exports = " ++ quote text ++ ";" ∧
        (Inert module ↔ ¬ Somewhere ImportForm (lossyText module.content).toList) ∧
        (Calm text.toList → Inert module)) ∧
    ∀ value, Transform.documentOf input = .ok value →
      ∃ module, @Transform.apply .json path input = .ok { primary := module } ∧
        lossyText module.content = "module.exports = " ++ value.compact ++ ";" ∧
        (Inert module ↔ ¬ Somewhere ImportForm (lossyText module.content).toList) ∧
        ((∀ text ∈ strings value, Calm text.toList ∧ ¬ Opens text.toList) → Inert module) := by
  have hexact : ∀ {expression : String}, Copied expression.toList →
      (Inert (Transform.exporting expression) ↔
        ¬ Somewhere ImportForm (lossyText (Transform.exporting expression).content).toList) := by
    intro expression h
    rw [toList_exporting, inert_exporting_iff h]
  constructor
  · intro text htext
    have hquote : (quote text).toList = quoteChars text.toList := String.toList_ofList
    refine ⟨Transform.exporting (quote text), ?_, lossyText_toUTF8 _,
      hexact (hquote ▸ copied_quoteChars _),
      inert_quoted⟩
    simp [Transform.raw, Transform.textOf, htext, Except.map]
  · intro value hvalue
    have hcompact : value.compact.toList = compactChars value := String.toList_ofList
    refine ⟨Transform.exporting value.compact, ?_, lossyText_toUTF8 _,
      hexact (hcompact ▸ copied_compactChars value), inert_document⟩
    simp [Transform.json, hvalue, Except.map]

theorem data_inert_iff_apostrophe :
    (Artifact.ofText .binary "it's").text? = some "it's" ∧
      Transform.documentOf (.ofText .binary "[\"it's\"]") = .ok (.array [.string "it's"]) ∧
      Calm "it's".toList ∧ ¬ Opens "it's".toList ∧
      (∃ module, @Transform.apply .raw ⟨"/p/a.txt"⟩ (.ofText .binary "it's") =
        .ok { primary := module } ∧ Inert module) ∧
      ∃ module, @Transform.apply .json ⟨"/p/a.json"⟩ (.ofText .binary "[\"it's\"]") =
        .ok { primary := module } ∧ Inert module := by
  have htext : (Artifact.ofText .binary "it's").text? = some "it's" := text?_ofText _ _
  have hdocument : Transform.documentOf (.ofText .binary "[\"it's\"]") =
      .ok (.array [.string "it's"]) := by
    have hparse : parse? "[\"it's\"]" = some (.array [.string "it's"]) := rfl
    rw [Transform.documentOf, text?_ofText, Option.bind_some, hparse]
    rfl
  have hcalm : Calm "it's".toList := by
    rintro (_ | ⟨a, _ | ⟨b, _ | ⟨c, _ | ⟨d, front⟩⟩⟩⟩) rear h
    · exact not_opens_nil
    · simp at h
    · obtain ⟨rfl, rfl, -⟩ : 'i' = a ∧ 't' = b ∧ _ := by simpa using h
      exact not_opens_of_firm (forall_getLast?_of_all (by decide))
    · simp at h
    · simp at h
  have hend : ¬ Opens "it's".toList := not_opens_of_firm (forall_getLast?_of_all (by decide))
  obtain ⟨module, hraw, -, -, hinert⟩ := (data_inert_iff _ _).1 _ htext
  obtain ⟨module', hjson, -, -, hinert'⟩ := (data_inert_iff _ _).2 _ hdocument
  refine ⟨htext, hdocument, hcalm, hend, ⟨module, hraw, hinert hcalm⟩, module', hjson,
    hinert' fun text hmem => ?_⟩
  obtain rfl : text = "it's" := by simpa [strings, itemStrings] using hmem
  exact ⟨hcalm, hend⟩

/-- A text that looks like a dynamic import becomes one, and its module is emitted as another text. -/
theorem call_in_text_imported :
    (Artifact.ofText .binary "import('./x')").text? = some "import('./x')" ∧
      ∃ module, @Transform.apply .raw ⟨"/p/a.txt"⟩ (.ofText .binary "import('./x')") =
          .ok { primary := module } ∧
        (∃ i ∈ module.imports, i.kind = .dynamic) ∧
        loadOnDemand (lossyText module.content) =
          "module.exports = \"require.dynamic(\"./x\")\";" := by
  have htext : (Artifact.ofText .binary "import('./x')").text? = some "import('./x')" :=
    text?_ofText _ _
  have hquote : (quote "import('./x')").toList = quoteChars "import('./x')".toList :=
    String.toList_ofList
  refine ⟨htext, Transform.exporting (quote "import('./x')"), ?_, ?_, ?_⟩
  · simp [Transform.raw, Transform.textOf, htext, Except.map]
  · refine (exists_dynamic_iff _).mpr ?_
    rw [toList_exporting, copied_exported (hquote ▸ copied_quoteChars _), hquote]
    refine ⟨exportPrefix ++ ['"'],
      "import('./x')\";".toList, by decide, by decide, "./x".toList, "\";".toList,
      [], [], "'./x')\";".toList, by
        simp [Blank], by simp [Blank], by decide, .inl ⟨[], by simp [Blank], ?_⟩⟩
    exact ⟨'\'', '\'', by decide, by decide, by decide, forall_mem_of_all (by decide), by decide⟩
  · rw [Transform.exporting, Artifact.ofText, lossyText_toUTF8]
    decide +kernel

end WebBundle.Proofs.DataModules
