import Mathlib.Data.List.Chain
import WebBundle.Proofs.RewrittenCalls

namespace WebBundle.Proofs.CommentedCalls

open Text Script TextSearch CallForms ScannedImports RewrittenCalls

variable {region : Region} {context : Context} {text : List Char} {specifier : List Char}

/-- A character of a script, and what stands in its place once the comments are gone. -/
structure Mark where
  source : Char
  code : Option Char

def copied (c : Char) : Mark := ⟨c, some c⟩

def dropped (c : Char) : Mark := ⟨c, none⟩

def sourceOf (marks : List Mark) : List Char := marks.map Mark.source

def codeOf (marks : List Mark) : List Char := marks.filterMap Mark.code

/-- Comment removal that remembers what it removes. -/
def reading : Region → Context → List Char → List Mark
  | _, _, [] => []
  | .lineComment, s, c :: rest =>
    if c = '\n' then copied c :: reading .code s rest else dropped c :: reading .lineComment s rest
  | .blockComment, s, '*' :: '/' :: rest => dropped '*' :: dropped '/' :: reading .code s rest
  | .blockComment, s, c :: rest =>
    if c = '\n' then copied c :: reading .blockComment s rest
    else dropped c :: reading .blockComment s rest
  | .quoted quote, s, '\\' :: c :: rest => copied '\\' :: copied c :: reading (.quoted quote) s rest
  | .quoted quote, s, c :: rest =>
    if c = '\n' ∨ c = quote then copied c :: reading .code s rest
    else copied c :: reading (.quoted quote) s rest
  | .pattern inClass, s, '\\' :: c :: rest =>
    copied '\\' :: copied c :: reading (.pattern inClass) s rest
  | .pattern inClass, s, c :: rest =>
    if c = '\n' ∨ (c = '/' ∧ inClass = false) then copied c :: reading .code s rest
    else
      copied c :: reading (.pattern (if c = '[' then true else if c = ']' then false else inClass))
        s rest
  | .template, s, '\\' :: c :: rest => copied '\\' :: copied c :: reading .template s rest
  | .template, s, '$' :: '{' :: rest =>
    copied '$' :: copied '{' :: reading .code s.openSubstitution rest
  | .template, s, c :: rest =>
    if c = '\x60' then copied c :: reading .code s.afterOperand rest
    else copied c :: reading .template s rest
  | .code, s, '/' :: '/' :: rest =>
    dropped '/' :: dropped '/' :: reading .lineComment s.afterBlank rest
  | .code, s, '/' :: '*' :: rest =>
    ⟨'/', some ' '⟩ :: dropped '*' :: reading .blockComment s.afterBlank rest
  | .code, s, c :: rest =>
    if c = '/' ∧ s.operandExpected = true then
      copied c :: reading (.pattern false) s.afterOperand rest
    else if c = '"' ∨ c = '\'' then copied c :: reading (.quoted c) s.afterOperand rest
    else if c = '\x60' then copied c :: reading .template s.afterBlank rest
    else if c = '}' ∧ s.closesSubstitution = true then
      copied c :: reading .template s.closeSubstitution rest
    else if isIdentifierChar c then copied c :: reading .code (s.afterLetter c) rest
    else if isSpace c then copied c :: reading .code s.afterBlank rest
    else copied c :: reading .code (s.afterPunctuator c) rest

@[simp] theorem sourceOf_nil : sourceOf [] = [] := rfl

@[simp] theorem sourceOf_cons (mark : Mark) (marks : List Mark) :
    sourceOf (mark :: marks) = mark.source :: sourceOf marks := rfl

@[simp] theorem sourceOf_append (marks others : List Mark) :
    sourceOf (marks ++ others) = sourceOf marks ++ sourceOf others := List.map_append

@[simp] theorem codeOf_nil : codeOf [] = [] := rfl

@[simp] theorem codeOf_copied (c : Char) (marks : List Mark) :
    codeOf (copied c :: marks) = c :: codeOf marks := rfl

@[simp] theorem codeOf_dropped (c : Char) (marks : List Mark) :
    codeOf (dropped c :: marks) = codeOf marks := rfl

@[simp] theorem codeOf_blank (c : Char) (marks : List Mark) :
    codeOf (⟨c, some ' '⟩ :: marks) = ' ' :: codeOf marks := rfl

@[simp] theorem codeOf_append (marks others : List Mark) :
    codeOf (marks ++ others) = codeOf marks ++ codeOf others := List.filterMap_append

theorem sourceOf_reading : sourceOf (reading region context text) = text := by
  fun_induction reading region context text <;>
    simp only [sourceOf_nil, sourceOf_cons, copied, dropped, *]

theorem codeOf_reading :
    codeOf (reading region context text) = withoutComments region context text := by
  fun_induction reading region context text
  case case1 => simp [withoutComments]
  all_goals grind [withoutComments, codeOf_copied, codeOf_dropped, codeOf_blank]

theorem code_of_mem_reading {mark : Mark} (h : mark ∈ reading region context text) :
    mark.code = some mark.source ∨ mark.code = none ∨ mark.code = some ' ' := by
  fun_induction reading region context text <;> simp only [List.mem_cons, List.not_mem_nil] at h
  all_goals grind [copied, dropped]

/-- No word goes on from a comment into code: a comment ends in a slash or before a line break. -/
def Parts (mark next : Mark) : Prop :=
  next.code = none ∨ next.code = some '\n' ∨ mark.code = some mark.source ∨
    isWord mark.source = false

/-- What may stand before a place that is read in a region. -/
def Before (region : Region) (mark : Mark) : Prop :=
  region = .lineComment ∨ region = .blockComment ∨ mark.code = some mark.source ∨
    isWord mark.source = false

section Boundaries

variable {mark next : Mark} {c : Char}

@[simp] theorem before_lineComment : Before .lineComment mark := .inl rfl

@[simp] theorem before_blockComment : Before .blockComment mark := .inr (.inl rfl)

@[simp] theorem before_copied : Before region (copied c) := .inr (.inr (.inl rfl))

@[simp] theorem before_slash : Before region (dropped '/') := .inr (.inr (.inr (by decide)))

@[simp] theorem parts_copied : Parts (copied c) next := .inr (.inr (.inl rfl))

@[simp] theorem parts_dropped : Parts mark (dropped c) := .inl rfl

@[simp] theorem parts_line : Parts mark (copied '\n') := .inr (.inl rfl)

theorem Before.parts (h : Before region mark) (hline : region ≠ .lineComment)
    (hblock : region ≠ .blockComment) :
    Parts mark next := .inr (.inr ((h.resolve_left hline).resolve_left hblock))

theorem isChain_reading (h : Before region mark) :
    List.IsChain Parts (mark :: reading region context text) := by
  fun_induction reading region context text generalizing mark
  case case1 => exact .singleton mark
  case case12 ih => exact List.isChain_cons_cons.mpr ⟨h.parts (by simp) (by simp), ih before_copied⟩
  all_goals simp [h.parts, *]

end Boundaries

/-- A dynamic call of the code with a comment inside it. -/
def CommentedCall (text : List Char) : Prop :=
  ∃ front first inner last behind specifier,
    reading .code {} text = front ++ first :: (inner ++ last :: behind) ∧
    first.code.isSome = true ∧ last.code.isSome = true ∧
      (∃ mark ∈ inner, mark.code ≠ some mark.source) ∧
    atWordStart (codeOf front).getLast? = true ∧
    DynamicCall specifier (codeOf behind) (codeOf (first :: (inner ++ last :: behind)))

theorem atWordStart_some {c : Char} : atWordStart (some c) = true ↔
    isWord c = false := by simp [atWordStart]

theorem atWordStart_sourceOf {front behind : List Mark} {next : Mark} {x : Char}
    (h : reading .code {} text = front ++ next :: behind) (hnext : next.code = some x)
    (hx : x ≠ '\n')
    (hstart : atWordStart (codeOf front).getLast? = true) :
    atWordStart (sourceOf front).getLast? = true := by
  cases hlast : front.getLast? with
  | none =>
      rw [List.getLast?_eq_none_iff.mp hlast]
      rfl
  | some mark =>
      obtain ⟨init, rfl⟩ := List.getLast?_eq_some_iff.mp hlast
      have hchain : List.IsChain Parts (dropped '/' :: reading .code {} text) :=
        isChain_reading before_slash
      rw [h, List.append_assoc, ← List.cons_append] at hchain
      have hparts : Parts mark next := (List.isChain_append_cons_cons.mp hchain).2.1
      have hsource : (sourceOf (init ++ [mark])).getLast? = some mark.source := by simp
      rw [hsource, atWordStart_some]
      rcases hparts with hnone | hline | hcopied | hword
      · exact absurd (hnext.symm.trans hnone) (by simp)
      · exact absurd (Option.some.inj (hnext.symm.trans hline)) hx
      · have hcode : codeOf (init ++ [mark]) = codeOf init ++ [mark.source] := by
          simp [codeOf, hcopied]
        rwa [hcode, List.getLast?_concat, atWordStart_some] at hstart
      · exact hword

theorem sourceOf_eq_codeOf {marks : List Mark} (h : ∀ mark ∈ marks, mark.code = some mark.source) :
    sourceOf marks = codeOf marks := by
  induction marks with
  | nil => rfl
  | cons mark marks ih =>
      obtain ⟨hmark, hmarks⟩ := List.forall_mem_cons.mp h
      rw [sourceOf_cons, ih hmarks]
      exact (List.filterMap_cons_some hmark).symm

theorem exists_mark_of_codeOf {marks : List Mark} {before rest : List Char} {x : Char}
    (h : codeOf marks = before ++ x :: rest) :
    ∃ front mark behind, marks = front ++ mark :: behind ∧
      codeOf front = before ∧ mark.code = some x ∧ codeOf behind = rest := by
  obtain ⟨front, rear, rfl, hfront, hrear⟩ := List.filterMap_eq_append_iff.mp h
  obtain ⟨passed, mark, behind, rfl, hpassed, hmark, hbehind⟩ := List.filterMap_eq_cons_iff.mp hrear
  refine ⟨front ++ passed, mark, behind, by simp, ?_, hmark, hbehind⟩
  rw [codeOf_append, codeOf, hfront, codeOf, List.filterMap_eq_nil_iff.mpr hpassed, List.append_nil]

/-- A dynamic call that stands in the code alone has a comment in it. -/
theorem commentedCall_of_somewhere (hcode : Somewhere IsDynamicCall (withoutComments .code {} text))
    (htext : ¬ Somewhere IsDynamicCall text) : CommentedCall text := by
  obtain ⟨before, rear, hsplit, hstart, specifier, rest, hcall⟩ := hcode
  obtain ⟨word, rfl, hword⟩ := exists_word_of_dynamicCall hcall
  rw [← codeOf_reading] at hsplit
  obtain ⟨front, first, called, hreading, rfl, hfirst, hcalled⟩ := exists_mark_of_codeOf hsplit
  obtain ⟨inner, last, behind, rfl, rfl, hlast, rfl⟩ := exists_mark_of_codeOf hcalled
  refine ⟨front, first, inner, last, behind, specifier, hreading, by rw [hfirst]; rfl,
    by rw [hlast]; rfl, ?_, hstart, ?_⟩
  · -- a call without a comment in it stands in the text as well
    by_contra hnone
    have hcopied : ∀ mark ∈ inner, mark.code = some mark.source := fun mark hmark =>
      Classical.not_not.mp fun hne => hnone ⟨mark, hmark, hne⟩
    have hsource : ∀ mark ∈ reading .code {} text, ∀ x, mark.code = some x → x ≠ ' ' →
        mark.source = x := by
      intro mark hmark x hx hblank
      rcases code_of_mem_reading hmark with h | h | h
      · exact Option.some.inj (h.symm.trans hx)
      · exact absurd (h.symm.trans hx) (by simp)
      · exact absurd (Option.some.inj (hx.symm.trans h)) hblank
    have hi : first.source = 'i' := hsource first (by simp [hreading]) 'i' hfirst (by decide)
    have hclosing : last.source = ')' := hsource last (by simp [hreading]) ')' hlast (by decide)
    have hplace : text = sourceOf front ++ 'i' :: (codeOf inner ++ ')' :: sourceOf behind) := by
      have hread : sourceOf (reading .code {} text) = text := sourceOf_reading
      rw [hreading] at hread
      simpa [hi, hclosing, sourceOf_eq_codeOf hcopied] using hread.symm
    exact htext ⟨sourceOf front, _, hplace, atWordStart_sourceOf hreading hfirst (by decide) hstart,
      specifier, sourceOf behind, hword _⟩
  · have hcode : codeOf (first :: (inner ++ last :: behind)) = 'i' ::
        (codeOf inner ++ ')' :: codeOf behind) := by
      simp [codeOf, hfirst, hlast]
    rwa [hcode]

theorem somewhere_of_commentedCall (h : CommentedCall text) :
    Somewhere IsDynamicCall (withoutComments .code {} text) := by
  obtain ⟨front, first, inner, last, behind, specifier, hreading, -, -, -, hstart, hcall⟩ := h
  refine ⟨codeOf front, _, ?_, hstart, specifier, codeOf behind, hcall⟩
  rw [← codeOf_reading, hreading, codeOf_append]

/-- Of a script that is rewritten without harm, the scanner tells a dynamic import, if and only if a
comment stands in one of its calls. -/
theorem exists_dynamic_loadOnDemand_iff {script : String}
    (h : HarmlessParts (pieces dynamicCall (commentOutlook script.toList) script.toList)) :
    (∃ i ∈ imports (loadOnDemand script), i.kind = .dynamic) ↔
      CommentedCall (loadOnDemand script).toList := by
  rw [exists_dynamic_iff]
  exact ⟨fun hcode => commentedCall_of_somewhere hcode (not_somewhere_loadOnDemand h),
    somewhere_of_commentedCall⟩

theorem exists_dynamic_loadOnDemand_iff_page :
    HarmlessParts (pieces dynamicCall (commentOutlook "import(\n'./a');import('./b'// page\n)".toList)
      "import(\n'./a');import('./b'// page\n)".toList) ∧
    CommentedCall (loadOnDemand "import(\n'./a');import('./b'// page\n)").toList := by
  have hparts : HarmlessParts
    (pieces dynamicCall (commentOutlook "import(\n'./a');import('./b'// page\n)".toList)
      "import(\n'./a');import('./b'// page\n)".toList) := by decide +kernel
  have hleft : ∃ i ∈ imports (loadOnDemand "import(\n'./a');import('./b'// page\n)"), i.kind =
      .dynamic := by
    decide +kernel
  exact ⟨hparts, (exists_dynamic_loadOnDemand_iff hparts).mp hleft⟩

/-- A comment over two lines keeps a call from being rewritten. -/
theorem broken_comment_left :
    ¬ ∀ script, ∀ i ∈ imports (loadOnDemand script), i.kind ≠ .dynamic := by
  have hleft : ∃ i ∈ imports (loadOnDemand "import(/* a\n*/ \"./x\")"), i.kind = .dynamic := by
    decide +kernel
  obtain ⟨i, hi, hdynamic⟩ := hleft
  exact fun h => h _ i hi hdynamic

end WebBundle.Proofs.CommentedCalls
