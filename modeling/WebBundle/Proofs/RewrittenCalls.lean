import WebBundle.Proofs.QuotedData
import WebBundle.Proofs.ScannedImports

namespace WebBundle.Proofs.RewrittenCalls

open Text Script TextSearch CallForms ScannedImports QuotedData Json

variable {text word front rear rest : List Char} {specifier : List Char} {c x y : Char}

theorem exists_word_of_dynamicCall (h : DynamicCall specifier rest text) :
    ∃ inner, text = 'i' :: (inner ++ ')' :: rest) ∧
      ∀ rest', DynamicCall specifier rest' ('i' :: (inner ++ ')' :: rest')) := by
  have hargument : ∀ {argument}, Argument specifier rest argument →
      ∃ init, argument = init ++ (')' :: rest) ∧
        ∀ rest', Argument specifier rest' (init ++ (')' :: rest')) := by
    rintro argument ⟨blanks, hblanks, opening, closing, hopening, hclosing, hne, hall, rfl⟩
    refine ⟨opening :: (specifier ++ closing :: blanks), by simp, fun rest' => ?_⟩
    exact ⟨blanks, hblanks, opening, closing, hopening, hclosing, hne, hall, by simp⟩
  obtain ⟨first, second, behind, hfirst, hsecond, rfl, hbehind⟩ := h
  obtain ⟨init, rfl, hinit⟩ : ∃ init, behind = init ++ (')' :: rest) ∧
      ∀ rest', CommentedArgument specifier rest' (init ++ (')' :: rest')) := by
    rcases hbehind with h | ⟨comment, rfl, inner, blanks, argument, hline, hblanks, rfl, h⟩
    · obtain ⟨init, rfl, hinit⟩ := hargument h
      exact ⟨init, rfl, fun rest' => .inl (hinit rest')⟩
    · obtain ⟨init, rfl, hinit⟩ := hargument h
      refine ⟨'/' :: '*' ::
        (inner ++ '*' :: '/' :: (blanks ++ init)), by simp, fun rest' => .inr ?_⟩
      exact ⟨_, rfl, inner, blanks, _, hline, hblanks, by simp, hinit rest'⟩
  have hword : "import".toList = 'i' :: "mport".toList := by decide
  refine ⟨"mport".toList ++ (first ++ ['(']) ++ (second ++ init), by simp [hword], fun rest' => ?_⟩
  exact ⟨first, second, _, hfirst, hsecond, by simp [hword], hinit rest'⟩

/-- What stands before the specifier in a call of the loader. -/
def loaderWord : List Char := "require.dynamic(".toList

/-- The call of the loader with a specifier. -/
def loaderCall (specifier : List Char) : List Char := loaderWord ++ quoteChars specifier ++ [')']

/-- The text behind the pieces of a search, with each find replaced. -/
def rewritten (parts : List (Piece Request)) : List Char :=
  parts.flatMap fun
    | .plain c => [c]
    | .found request _ => loaderCall request.specifier

/-- The text that was cut into pieces. -/
def original (parts : List (Piece Request)) : List Char :=
  parts.flatMap fun
    | .plain c => [c]
    | .found _ word => word

@[simp] theorem rewritten_plain (c : Char) (parts : List (Piece Request)) :
    rewritten (.plain c :: parts) = c :: rewritten parts := rfl

@[simp] theorem rewritten_found (request : Request) (word : List Char)
    (parts : List (Piece Request)) :
    rewritten (.found request word :: parts) = loaderCall request.specifier ++ rewritten parts := rfl

@[simp] theorem rewritten_append (parts others : List (Piece Request)) :
    rewritten (parts ++ others) = rewritten parts ++ rewritten others := List.flatMap_append

@[simp] theorem original_append (parts others : List (Piece Request)) :
    original (parts ++ others) = original parts ++ original others := List.flatMap_append

@[simp] theorem rewritten_map_plain (word : List Char) : rewritten (word.map .plain) = word := by
  induction word with
  | nil => rfl
  | cons c word ih => exact congrArg (c :: ·) ih

@[simp] theorem original_map_plain (word : List Char) : original (word.map .plain) = word := by
  induction word with
  | nil => rfl
  | cons c word ih => exact congrArg (c :: ·) ih

theorem toList_loadOnDemand (script : String) : (loadOnDemand script).toList =
    rewritten (pieces dynamicCall (commentOutlook script.toList) script.toList) := by
  rw [loadOnDemand, String.toList_ofList, replace]
  refine congrArg (List.flatMap · _) (funext fun part => ?_)
  cases part <;> rfl

/-- A rewritten call whose specifier brings no other call about: it has neither parenthesis nor star. -/
structure Harmless (request : Request) : Prop where
  opening : '(' ∉ request.specifier
  closing : ')' ∉ request.specifier
  star : '*' ∉ request.specifier

instance (request : Request) : Decidable (Harmless request) :=
  decidable_of_iff ('(' ∉ request.specifier ∧ ')' ∉ request.specifier ∧ '*' ∉ request.specifier)
    ⟨fun ⟨opening, closing, star⟩ => ⟨opening, closing, star⟩,
      fun ⟨opening, closing, star⟩ => ⟨opening, closing, star⟩⟩

/-- A piece that is left as it is or replaced without harm. -/
def HarmlessPart : Piece Request → Prop
  | .plain _ => True
  | .found request _ => Harmless request

instance : DecidablePred HarmlessPart
  | .plain _ => .isTrue trivial
  | .found request _ => inferInstanceAs (Decidable (Harmless request))

/-- The place behind `import(/*`, with the blanks that may stand between. -/
def commentStart (text : List Char) : Option Cursor :=
  ((Cursor.start text).literal "import".toList).bind fun c =>
    ((c.skip isSpace).one (· == '(')).bind fun d => (d.skip isSpace).literal "/*".toList

/-- Whether a call that was written over two lines stands before the first line break. -/
def joinsLines : List (Piece Request) → Bool
  | [] => false
  | .plain c :: parts => c != '\n' && joinsLines parts
  | .found _ word :: parts => word.contains '\n' || joinsLines parts

/-- No two lines are joined in the comment of a call, which has to end on its first line. -/
def Unbroken (parts : List (Piece Request)) : Prop :=
  ∀ rear, rear <:+ parts → ∀ c, commentStart (rewritten rear) = some c →
    joinsLines (rear.drop c.taken) = false

instance (parts : List (Piece Request)) : Decidable (Unbroken parts) :=
  decidable_of_iff (∀ rear ∈ parts.tails, ∀ c ∈ commentStart (rewritten rear),
    joinsLines (rear.drop c.taken) = false) (by simp only [Unbroken, List.mem_tails, Option.mem_def])

/-- The calls are rewritten without harm. -/
structure HarmlessParts (parts : List (Piece Request)) : Prop where
  each : ∀ part ∈ parts, HarmlessPart part
  unbroken : Unbroken parts

instance (parts : List (Piece Request)) : Decidable (HarmlessParts parts) :=
  decidable_of_iff ((∀ part ∈ parts, HarmlessPart part) ∧ Unbroken parts)
    ⟨fun ⟨each, unbroken⟩ => ⟨each, unbroken⟩, fun ⟨each, unbroken⟩ => ⟨each, unbroken⟩⟩

theorem append_cons_ne_append_cons {others others' : List Char} (hxy : x ≠ y) (hy : y ∉ front)
    (hx : x ∉ rear) :
    front ++ x :: others ≠ rear ++ y :: others' := by
  intro heq
  rcases List.append_eq_append_iff.mp heq with ⟨middle, hrear, hmiddle⟩ | ⟨middle, hfront, hmiddle⟩
  · cases middle with
    | nil => exact hxy (List.cons.inj hmiddle).1
    | cons z middle =>
        obtain ⟨rfl, -⟩ := List.cons.inj hmiddle
        exact hx (by simp [hrear])
  · cases middle with
    | nil => exact hxy (List.cons.inj hmiddle).1.symm
    | cons z middle =>
        obtain ⟨rfl, -⟩ := List.cons.inj hmiddle
        exact hy (by simp [hfront])

theorem not_mem_escaped (hx : x ∉ '\\' :: (escapeLetters ++ hexLetters)) (htext : x ∉ text) :
    x ∉ text.flatMap escapeChar := by
  simp only [List.mem_cons, List.mem_append, not_or] at hx
  rw [List.mem_flatMap]
  rintro ⟨c, hc, hmem⟩
  rcases escapeChar_cases c with ⟨hescape, -⟩ | ⟨letter, hletter, digits, hescape, hdigits⟩
  · rw [hescape, List.mem_singleton] at hmem
    exact htext (hmem ▸ hc)
  · rw [hescape, List.mem_cons, List.mem_cons] at hmem
    rcases hmem with rfl | rfl | hmem
    · exact hx.1 rfl
    · exact hx.2.1 hletter
    · exact hx.2.2 (hdigits x hmem)

theorem star_not_mem_loaderCall (h : '*' ∉ specifier) : '*' ∉ loaderCall specifier := by
  have hword : '*' ∉ loaderWord := by decide
  have hescaped : '*' ∉ specifier.flatMap escapeChar := not_mem_escaped (by decide) h
  simp [loaderCall, quoteChars, hword, hescaped]

variable {parts : List (Piece Request)}

theorem HarmlessParts.of_append {others : List (Piece Request)}
    (h : HarmlessParts (parts ++ others)) : HarmlessParts others where
  each part hmem := h.each part (List.mem_append_right _ hmem)
  unbroken rear hrear := h.unbroken rear (hrear.trans (List.suffix_append parts others))

theorem HarmlessParts.tail {part : Piece Request} (h : HarmlessParts (part :: parts)) :
    HarmlessParts parts := by
  have happend : HarmlessParts ([part] ++ parts) := h
  exact happend.of_append

/-- A text in which no loader call begins stood in the script as it does now. -/
theorem exists_plain_of_forall (hword : ∀ x ∈ word, x ≠ 'r') (h : rewritten parts = word ++ rest) :
    ∃ others, parts = word.map .plain ++ others ∧ rewritten others = rest := by
  induction word generalizing parts with
  | nil => exact ⟨parts, rfl, h⟩
  | cons x word ih =>
      obtain ⟨hx, hword'⟩ := List.forall_mem_cons.mp hword
      cases parts with
      | nil => simp [rewritten] at h
      | cons part parts =>
          cases part with
          | plain c =>
              rw [rewritten_plain, List.cons_append] at h
              obtain ⟨rfl, hparts⟩ := List.cons.inj h
              obtain ⟨others, hparts, hothers⟩ := ih hword' hparts
              exact ⟨others, by rw [hparts, List.map_cons, List.cons_append], hothers⟩
          | found request found => exact absurd (List.cons.inj h).1.symm hx

theorem exists_plain_import (h : rewritten parts = "import".toList ++ rest) :
    ∃ others, parts = "import".toList.map .plain ++ others ∧ rewritten others = rest := by
  have hstart : rewritten parts = "impo".toList ++ ('r' :: 't' :: rest) := h
  obtain ⟨others, rfl, hothers⟩ := exists_plain_of_forall (forall_mem_of_all (by decide)) hstart
  cases others with
  | nil => simp [rewritten] at hothers
  | cons part others =>
      cases part with
      | plain c =>
          obtain ⟨rfl, hrest⟩ := List.cons.inj hothers
          have hend : rewritten others = ['t'] ++ rest := hrest
          obtain ⟨behind, rfl, hbehind⟩ :=
            exists_plain_of_forall (forall_mem_of_all (by decide)) hend
          exact ⟨behind, rfl, hbehind⟩
      | found request found =>
          -- the second letters of the words differ
          exact absurd (List.cons.inj (List.cons.inj hothers).2).1 (by decide)

theorem exists_plain_specifier {blanks : List Char} {closing : Char} (hparts : HarmlessParts parts)
    (hclosing : isQuote closing = true) (hspecifier : ∀ x ∈ specifier, isSpecifierChar x = true)
    (hblanks : Blank blanks)
    (h : rewritten parts = specifier ++ closing :: (blanks ++ ')' :: rest)) :
    ∃ others, parts = specifier.map .plain ++ others ∧
      rewritten others = closing :: (blanks ++ ')' :: rest) := by
  have hquotes : ∀ x, isSpecifierChar x = true → (!isQuote x) = true := by
    intro x hx
    simp only [isSpecifierChar, Bool.not_eq_true', Bool.or_eq_false_iff] at hx
    simp [hx.1]
  have hdrop : ∀ {word others quote}, (∀ x ∈ word, (!isQuote x) = true) → isQuote quote = true →
      (word ++ quote :: others).dropWhile (!isQuote ·) = quote :: others := fun hword hquote =>
    dropWhile_append_of_stops hword (stops_cons.mpr (by simp [hquote]))
  induction specifier generalizing parts with
  | nil => exact ⟨parts, rfl, h⟩
  | cons x specifier ih =>
      cases parts with
      | nil => simp [rewritten] at h
      | cons part parts =>
          cases part with
          | plain c =>
              rw [rewritten_plain, List.cons_append] at h
              obtain ⟨rfl, hbehind⟩ := List.cons.inj h
              obtain ⟨others, hothers, hrest⟩ := ih hparts.tail
                (fun y hy => hspecifier y (List.mem_cons_of_mem _ hy)) hbehind
              exact ⟨others, by rw [hothers, List.map_cons, List.cons_append], hrest⟩
          | found request found =>
              -- the loader call opens a quote that closes the specifier, and no parenthesis follows
              have hharmless : Harmless request := hparts.each _ List.mem_cons_self
              have hescaped : ')' ∉ request.specifier.flatMap escapeChar :=
                not_mem_escaped (by decide) hharmless.closing
              have hblank : '"' ∉ blanks := fun hmem => absurd (hblanks '"' hmem) (by decide)
              have hcall : rewritten (.found request found :: parts) = loaderWord ++ '"' ::
                  (request.specifier.flatMap escapeChar ++ '"' :: (')' :: rewritten parts)) := by
                simp [loaderCall, quoteChars]
              have hword : ∀ y ∈ loaderWord, (!isQuote y) = true := forall_mem_of_all (by decide)
              have heq := congrArg (List.dropWhile (!isQuote ·)) (hcall.symm.trans h)
              rw [hdrop hword (by decide),
                hdrop (fun y hy => hquotes y (hspecifier y hy)) hclosing] at heq
              exact absurd (List.cons.inj heq).2
                (append_cons_ne_append_cons (by decide) hescaped hblank)

theorem exists_parts_of_comment {inner : List Char} (hparts : HarmlessParts parts)
    (h : rewritten parts = inner ++ '*' :: rest) :
    ∃ before others, parts = before ++ others ∧ rewritten before = inner ∧
      rewritten others = '*' :: rest := by
  induction parts generalizing inner with
  | nil => simp [rewritten] at h
  | cons part parts ih =>
      cases part with
      | plain c =>
          cases inner with
          | nil => exact ⟨[], .plain c :: parts, rfl, rfl, h⟩
          | cons x inner =>
              rw [rewritten_plain, List.cons_append] at h
              obtain ⟨rfl, hbehind⟩ := List.cons.inj h
              obtain ⟨before, others, rfl, rfl, hothers⟩ := ih hparts.tail hbehind
              exact ⟨.plain c :: before, others, rfl, rfl, hothers⟩
      | found request found =>
          have hstar := star_not_mem_loaderCall
            (show Harmless request from hparts.each _ List.mem_cons_self).star
          rw [rewritten_found] at h
          rcases List.append_eq_append_iff.mp h with ⟨middle, rfl, hmiddle⟩ |
            ⟨middle, hcall, hmiddle⟩
          · obtain ⟨before, others, rfl, rfl, hothers⟩ := ih hparts.tail hmiddle
            exact ⟨.found request found :: before, others, rfl, rfl, hothers⟩
          · cases middle with
            | nil =>
                rw [List.append_nil] at hcall
                exact ⟨[.found request found], parts, rfl, by simp [rewritten, hcall], hmiddle.symm⟩
            | cons x middle =>
                obtain ⟨rfl, -⟩ := List.cons.inj hmiddle
                exact absurd (by simp [hcall]) hstar

theorem ne_r_of_isSpace (hx : isSpace x = true) : x ≠ 'r' := by
  rintro rfl
  exact absurd hx (by decide)

theorem ne_r_of_isQuote (hx : isQuote x = true) : x ≠ 'r' := by
  rintro rfl
  exact absurd hx (by decide)

theorem argument_original (hparts : HarmlessParts parts)
    (h : Argument specifier rest (rewritten parts)) :
    ∃ rest', Argument specifier rest' (original parts) := by
  obtain ⟨blanks, hblanks, opening, closing, hopening, hclosing, hne, hall, htext⟩ := h
  have hfirst : ∀ x ∈ [opening], x ≠ 'r' := by simpa using ne_r_of_isQuote hopening
  have hlast : ∀ x ∈ closing :: (blanks ++ [')']), x ≠ 'r' := by
    simp only [List.forall_mem_cons, List.forall_mem_append]
    exact ⟨ne_r_of_isQuote hclosing, fun x hx => ne_r_of_isSpace (hblanks x hx), by decide, by simp⟩
  obtain ⟨quoted, rfl, hquoted⟩ := exists_plain_of_forall hfirst htext
  obtain ⟨closed, rfl, hclosed⟩ :=
    exists_plain_specifier hparts.of_append hclosing hall hblanks hquoted
  have hend : rewritten closed = closing :: (blanks ++ [')']) ++ rest := by simp [hclosed]
  obtain ⟨behind, rfl, -⟩ := exists_plain_of_forall hlast hend
  refine ⟨original behind, blanks, hblanks, opening, closing, hopening, hclosing, hne, hall, ?_⟩
  simp only [original_append, original_map_plain, List.cons_append, List.nil_append,
    List.append_assoc]

theorem not_mem_original {others : List (Piece Request)} (hjoins : joinsLines (parts ++ others) = false)
    (h : '\n' ∉ rewritten parts) : '\n' ∉ original parts := by
  induction parts with
  | nil => exact List.not_mem_nil
  | cons part parts ih =>
      cases part with
      | plain c =>
          rw [rewritten_plain, List.mem_cons, not_or] at h
          have hc : c ≠ '\n' := Ne.symm h.1
          rw [List.cons_append, joinsLines, bne_iff_ne.mpr hc, Bool.true_and] at hjoins
          exact List.not_mem_cons_of_ne_of_not_mem h.1 (ih hjoins h.2)
      | found request word =>
          rw [rewritten_found, List.mem_append, not_or] at h
          rw [List.cons_append, joinsLines, Bool.or_eq_false_iff] at hjoins
          have hword : '\n' ∉ word := by simpa using hjoins.1
          exact List.mem_append.not.mpr (not_or.mpr ⟨hword, ih hjoins.2 h.2⟩)

theorem commentStart_append {first second : List Char} (hfirst : Blank first) (hsecond : Blank second)
    (rest : List Char) :
    commentStart ("import".toList ++ (first ++ ['(']) ++ (second ++ "/*".toList) ++ rest) =
      some ⟨("import".toList ++ (first ++ ['(']) ++ (second ++ "/*".toList)).length, rest⟩ := by
  let d : Cursor := ⟨("import".toList ++ (first ++ ['('])).length, second ++ ("/*".toList ++ rest)⟩
  let e : Cursor := ⟨d.taken + second.length, "/*".toList ++ rest⟩
  have hskip : d.skip isSpace = e := skip_eq hsecond ⟨rfl, rfl⟩ (stops_cons.mpr (by decide))
  refine call_eq_some.mpr ⟨first, d, hfirst, passes_start.mpr ⟨?_, rfl⟩, ?_⟩
  · simp only [d, List.append_assoc]
  · rw [hskip, literal_eq_some]
    refine ⟨rfl, ?_⟩
    simp only [e, d, List.length_append, Nat.add_assoc]

theorem joinsLines_of_unbroken {first second : List Char} (hfirst : Blank first) (hsecond : Blank second)
    (h : Unbroken (("import".toList ++ (first ++ ['(']) ++ (second ++ "/*".toList)).map .plain ++
      parts)) :
    joinsLines parts = false := by
  have hstart := commentStart_append hfirst hsecond (rewritten parts)
  have hjoins := h _ List.suffix_rfl _ (by rw [rewritten_append, rewritten_map_plain, hstart])
  rwa [List.drop_left' (List.length_map _)] at hjoins

theorem commentedArgument_original {first second : List Char} (hfirst : Blank first)
    (hsecond : Blank second)
    (hparts : HarmlessParts (("import".toList ++ (first ++ ['(']) ++ second).map .plain ++ parts))
    (h : CommentedArgument specifier rest (rewritten parts)) :
    ∃ rest', CommentedArgument specifier rest' (original parts) := by
  have hharmless : HarmlessParts parts := hparts.of_append
  rcases h with hargument | ⟨comment, hcomment, inner, blanks, argument, hline, hblanks, rfl, hargument⟩
  · obtain ⟨rest', hargument⟩ := argument_original hharmless hargument
    exact ⟨rest', .inl hargument⟩
  · have hmarks : rewritten parts = ['/', '*'] ++ (inner ++ '*' :: '/' :: (blanks ++ argument)) :=
      hcomment
    obtain ⟨commented, rfl, hcommented⟩ :=
      exists_plain_of_forall (forall_mem_of_all (by decide)) hmarks
    obtain ⟨before, ended, rfl, rfl, hended⟩ :=
      exists_parts_of_comment hharmless.of_append hcommented
    have hend : ∀ x ∈ ['*', '/'] ++ blanks, x ≠ 'r' := by
      simp only [List.forall_mem_append]
      exact ⟨forall_mem_of_all (by decide), fun x hx => ne_r_of_isSpace (hblanks x hx)⟩
    have hclose : rewritten ended = ['*', '/'] ++ blanks ++ argument := by simp [hended]
    obtain ⟨behind, rfl, rfl⟩ := exists_plain_of_forall hend hclose
    obtain ⟨rest', hargument⟩ := argument_original hharmless.of_append.of_append.of_append hargument
    have hjoins : joinsLines (before ++ ((['*', '/'] ++ blanks).map .plain ++ behind)) = false := by
      refine joinsLines_of_unbroken hfirst hsecond ?_
      have hmark : "/*".toList = ['/', '*'] := by decide
      have hunbroken := hparts.unbroken
      simpa only [hmark, List.map_append, List.append_assoc] using hunbroken
    refine ⟨rest', .inr ⟨_, ?_, original before, blanks, original behind,
      not_mem_original hjoins hline, hblanks, rfl, hargument⟩⟩
    simp only [original_append, original_map_plain, List.cons_append, List.nil_append]

/-- A dynamic call of the rewritten script stood in the script as it does now, but for its comment. -/
theorem isDynamicCall_original (hparts : HarmlessParts parts) (h : IsDynamicCall (rewritten parts)) :
    IsDynamicCall (original parts) := by
  obtain ⟨specifier, rest, first, second, behind, hfirst, hsecond, htext, hbehind⟩ := h
  rw [List.append_assoc] at htext
  obtain ⟨called, rfl, hcalled⟩ := exists_plain_import htext
  have hopening : ∀ x ∈ first ++ ['('] ++ second, x ≠ 'r' := by
    simp only [List.forall_mem_append]
    exact ⟨⟨fun x hx => ne_r_of_isSpace (hfirst x hx), forall_mem_of_all (by decide)⟩, fun x hx =>
      ne_r_of_isSpace (hsecond x hx)⟩
  rw [← List.append_assoc] at hcalled
  obtain ⟨opened, rfl, rfl⟩ := exists_plain_of_forall hopening hcalled
  obtain ⟨rest', hargument⟩ := commentedArgument_original hfirst hsecond
    (by simpa only [List.map_append, List.append_assoc] using hparts) hbehind
  refine ⟨specifier, rest', first, second, original opened, hfirst, hsecond, ?_, hargument⟩
  simp only [original_append, original_map_plain, List.append_assoc]

theorem exists_opening_of_isDynamicCall (h : IsDynamicCall text) :
    ∃ first others, Blank first ∧
      text = 'i' :: 'm' :: ("port".toList ++ first ++ '(' :: others) := by
  obtain ⟨specifier, rest, first, second, behind, hfirst, -, rfl, -⟩ := h
  have hword : "import".toList = 'i' :: 'm' :: "port".toList := by decide
  exact ⟨first, second ++ behind, hfirst, by simp [hword]⟩

theorem not_isDynamicCall_of_word (hword : loaderWord = front ++ rear) (rest : List Char) :
    ¬ IsDynamicCall (rear ++ '"' :: rest) := by
  intro h
  obtain ⟨first, others, -, htext⟩ := exists_opening_of_isDynamicCall h
  have hletters : ∀ n < 16, (loaderWord.drop n).take 2 ≠ ['i', 'm'] := by decide
  rcases rear with _ | ⟨x, _ | ⟨y, rear⟩⟩
  · exact absurd (List.cons.inj htext).1 (by decide)
  · exact absurd (List.cons.inj (List.cons.inj htext).2).1 (by decide)
  · obtain ⟨rfl, hrest⟩ := List.cons.inj htext
    obtain ⟨rfl, -⟩ := List.cons.inj hrest
    have hlength : front.length < 16 := by
      have hlengths := congrArg List.length hword
      have hsixteen : loaderWord.length = 16 := by decide
      rw [hsixteen, List.length_append, List.length_cons] at hlengths
      omega
    exact hletters front.length hlength (by rw [hword]; simp)

theorem not_isDynamicCall_of_quotes {body : List Char} (hbody : '(' ∉ body)
    (hquotes : '"' :: (body ++ ['"']) ++ [')'] = front ++ rear) (hne : rear ≠ []) :
    ¬ IsDynamicCall (rear ++ rest) := by
  intro h
  obtain ⟨first, others, hfirst, htext⟩ := exists_opening_of_isDynamicCall h
  have hblank : '"' ∉ 'i' :: 'm' :: "port".toList ++ first := by
    rw [List.mem_append, not_or]
    exact ⟨by decide, fun hmem => absurd (hfirst '"' hmem) (by decide)⟩
  obtain ⟨init, last, rfl⟩ := exists_append_singleton hne
  rw [← List.append_assoc] at hquotes
  obtain ⟨hinit, hlast⟩ := List.append_inj' hquotes rfl
  obtain rfl := (List.cons.inj hlast).1
  cases hquote : init.getLast? with
  | none =>
      rw [List.getLast?_eq_none_iff.mp hquote] at htext
      exact absurd (List.cons.inj htext).1 (by decide)
  | some quote =>
      obtain ⟨init, rfl⟩ := List.getLast?_eq_some_iff.mp hquote
      rw [← List.append_assoc, ← List.cons_append] at hinit
      obtain ⟨hopened, hlast⟩ := List.append_inj' hinit rfl
      obtain rfl := (List.cons.inj hlast).1
      have hopening : '(' ∉ init := fun hmem => by
        have hmem' : '(' ∈ '"' :: body := hopened ▸ List.mem_append_right _ hmem
        simp [hbody] at hmem'
      have heq : 'i' :: 'm' :: "port".toList ++ first ++ '(' :: others = init ++ '"' ::
          (')' :: rest) := by
        simpa using htext.symm
      exact append_cons_ne_append_cons (by decide) hblank hopening heq

theorem not_isDynamicCall_inside (hspecifier : '(' ∉ specifier)
    (hcall : loaderCall specifier = front ++ rear) (hne : rear ≠ []) :
    ¬ IsDynamicCall (rear ++ rest) := by
  have hescaped : '(' ∉ specifier.flatMap escapeChar := not_mem_escaped (by decide) hspecifier
  have hparts : loaderWord ++ ('"' :: (specifier.flatMap escapeChar ++ ['"']) ++ [')']) =
      front ++ rear := by
    rw [← hcall, loaderCall, quoteChars, List.append_assoc]
  rcases List.append_eq_append_iff.mp hparts with ⟨inside, rfl, hinside⟩ | ⟨middle, hword, rfl⟩
  · exact not_isDynamicCall_of_quotes hescaped hinside hne
  · simpa only [List.append_assoc, List.cons_append] using not_isDynamicCall_of_word hword _

theorem original_of_cuts {previous : Option Char}
    (h : Cuts dynamicCall commentOutlook previous text parts) : original parts = text := by
  induction h with
  | done => rfl
  | plain hnone hrest ih => exact congrArg (_ :: ·) ih
  | found hfind hlength hrest ih => exact congrArg (_ ++ ·) ih

/-- The pieces before and behind a loader call go on alike: both it and the call it replaces end in
a parenthesis. -/
theorem not_isDynamicCall_of_cuts {previous : Option Char}
    (h : Cuts dynamicCall commentOutlook previous text parts) (hparts : HarmlessParts parts)
    (hsplit : rewritten parts = front ++ rear)
    (hstart : atWordStart (front.getLast?.or previous) = true) : ¬ IsDynamicCall rear := by
  induction h generalizing front with
  | done =>
      obtain ⟨-, rfl⟩ := List.append_eq_nil_iff.mp hsplit.symm
      simp [IsDynamicCall, DynamicCall, Call]
  | @plain previous c rest parts hnone hrest ih =>
      rcases List.cons_eq_append_iff.mp hsplit with ⟨rfl, rfl⟩ | ⟨front, rfl, hbehind⟩
      · intro hcall
        have horiginal := isDynamicCall_original hparts hcall
        rw [original_of_cuts (.plain hnone hrest)] at horiginal
        have hsome := isSome_dynamicCall.mpr ⟨hstart, horiginal⟩
        exact absurd hsome (by rw [List.getLast?_nil, Option.none_or, hnone]; simp)
      · rw [getLast?_cons_or] at hstart
        exact ih hparts.tail hbehind hstart
  | @found previous find word rest parts hfind hlength hrest ih =>
      have hharmless : Harmless find.value := hparts.each _ List.mem_cons_self
      obtain ⟨-, behind, hcall, hbehind⟩ := exists_dynamicCall hfind
      obtain ⟨inner, htext, -⟩ := exists_word_of_dynamicCall hcall
      have htext' : word ++ rest = 'i' :: inner ++ [')'] ++ behind := by simpa using htext
      obtain ⟨rfl, rfl⟩ : word = 'i' :: inner ++ [')'] ∧ rest = behind := List.append_inj htext' (by
        have hlengths := congrArg List.length htext'
        simp only [List.length_append] at hlengths hbehind ⊢
        omega)
      have hbeyond : ∀ {beyond}, rewritten parts = beyond ++ rear →
          atWordStart ((loaderCall find.value.specifier ++ beyond).getLast?.or previous) = true →
            ¬ IsDynamicCall rear := by
        intro beyond hsplit hstart
        rw [List.getLast?_append, loaderCall, List.getLast?_concat, Option.or_assoc,
          Option.some_or] at hstart
        exact ih hparts.tail hsplit (by rwa [List.getLast?_concat])
      rw [rewritten_found] at hsplit
      rcases List.append_eq_append_iff.mp hsplit with ⟨beyond, rfl, hrear⟩ | ⟨inside, hinside, rfl⟩
      · exact hbeyond hrear hstart
      · cases inside with
        | nil => exact hbeyond rfl (by rwa [List.append_nil, hinside, List.append_nil])
        | cons x inside => exact not_isDynamicCall_inside hharmless.opening hinside (by simp)

/-- A script rewritten without harm has no dynamic call left, be it in code or not. -/
theorem not_somewhere_loadOnDemand {script : String}
    (h : HarmlessParts (pieces dynamicCall (commentOutlook script.toList) script.toList)) :
    ¬ Somewhere IsDynamicCall (loadOnDemand script).toList := by
  have hfinds : ∀ {previous text find},
      dynamicCall previous (commentOutlook text) text = some find →
        0 < find.length ∧ find.length ≤ text.length := by
    intro previous text find hfind
    obtain ⟨-, rest, hcall, hlength⟩ := exists_dynamicCall hfind
    obtain ⟨inner, rfl, -⟩ := exists_word_of_dynamicCall hcall
    simp only [List.length_cons, List.length_append] at hlength ⊢
    omega
  rintro ⟨front, rear, hsplit, hstart, hcall⟩
  rw [toList_loadOnDemand] at hsplit
  refine not_isDynamicCall_of_cuts
    (cuts_piecesFrom (forward_outlook _ _ _) hfinds none script.toList) h hsplit ?_ hcall
  rwa [Option.or_none]

end WebBundle.Proofs.RewrittenCalls
