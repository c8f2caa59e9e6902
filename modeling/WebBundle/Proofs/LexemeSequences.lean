import Mathlib.Data.List.TakeWhile
import WebBundle.Proofs.BlankCharacters
import WebBundle.Proofs.Lexemes

namespace WebBundle.Proofs.LexemeSequences

open Text Script
open WebBundle.Proofs.ScriptReading
open WebBundle.Proofs.Lexemes

/-- The letters with which a text ends. -/
def lastWord (text : List Char) : List Char := (text.reverse.takeWhile isIdentifierChar).reverse

def IsPrefixKeyword (text : List Char) : Prop := String.ofList text ∈ operatorWords

instance (text : List Char) : Decidable (IsPrefixKeyword text) :=
  inferInstanceAs (Decidable (String.ofList text ∈ operatorWords))

/-- A word or a number that ends in a mark, or in the letters of a prefix keyword. -/
def EndsOpen (text : List Char) : Prop := lastWord text = [] ∨ IsPrefixKeyword (lastWord text)

instance (text : List Char) : Decidable (EndsOpen text) :=
  inferInstanceAs (Decidable (lastWord text = [] ∨ IsPrefixKeyword (lastWord text)))

/-- What stands in front of a lexeme, comments aside. -/
inductive Place where
  /-- Nothing, an operator, an opening bracket, a comma, a semicolon or a prefix keyword. -/
  | free
  /-- A word, a number, a literal or a closing bracket. -/
  | operand
  /-- An operand whose end reads like an operator: a number that ends in its point, a word whose last
  sign is no letter, or a postfix `++` or `--`. -/
  | unclear
  deriving DecidableEq, Repr

namespace Place

def behind (place : Place) : Lexeme → Place
  | .lineComment _ | .blockComment _ => place
  | .word text => if IsPrefixKeyword text then .free else if EndsOpen text then .unclear else .operand
  | .number text => if EndsOpen text then .unclear else .operand
  | .quoted _ _ | .template _ | .regex _ _ => .operand
  | .punctuator marks =>
    if marks.getLast?.any [')', ']', '}'].contains then .operand
    else if (marks = ['+', '+'] ∨ marks = ['-', '-']) ∧ place ≠ .free then .unclear
    else .free
  | .division _ => .free

/-- Where a regular expression literal and where a division may stand. -/
def Allows (place : Place) : Lexeme → Prop
  | .regex _ _ => place ≠ .operand
  | .division _ => place ≠ .free
  | _ => True

instance (place : Place) : (lexeme : Lexeme) → Decidable (place.Allows lexeme)
  | .regex _ _ => inferInstanceAs (Decidable (place ≠ .operand))
  | .division _ => inferInstanceAs (Decidable (place ≠ .free))
  | .word _ | .number _ | .lineComment _ | .blockComment _ | .quoted _ _ | .template _
  | .punctuator _ => .isTrue trivial

/-- The reader takes a lexeme for what it is: a division does not stand behind an operand that reads like
an operator, and no string goes on behind a line break of two characters. -/
def Reads (place : Place) : Lexeme → Prop
  | .quoted _ items => .escapedBreak ∉ items
  | .division _ => place ≠ .unclear
  | _ => True

instance (place : Place) : (lexeme : Lexeme) → Decidable (place.Reads lexeme)
  | .quoted _ items => inferInstanceAs (Decidable (.escapedBreak ∉ items))
  | .division _ => inferInstanceAs (Decidable (place ≠ .unclear))
  | .word _ | .number _ | .lineComment _ | .blockComment _ | .template _ | .regex _ _
  | .punctuator _ => .isTrue trivial

end Place

/-- Blanks behind a lexeme. Behind a line comment they begin with its line break. -/
structure IsGap (lexeme : Lexeme) (gap : List Char) : Prop where
  blank : ∀ c ∈ gap, isSpace c
  line : lexeme.isLine → gap.head? = some '\n'

instance (lexeme : Lexeme) (gap : List Char) : Decidable (IsGap lexeme gap) :=
  decidable_of_iff ((∀ c ∈ gap, isSpace c) ∧ (lexeme.isLine → gap.head? = some '\n')) ⟨fun h => ⟨h.1, h.2⟩, fun h => ⟨h.1, h.2⟩⟩

/-- A sequence of lexemes, each with the blanks behind it, in a place. Only behind the last one there may be
none. -/
def WellFormed : Place → List (Lexeme × List Char) → Prop
  | _, [] => True
  | place, (lexeme, gap) :: rest =>
    lexeme.Valid ∧ place.Allows lexeme ∧ IsGap lexeme gap ∧ (rest ≠ [] → gap ≠ []) ∧
      WellFormed (place.behind lexeme) rest

instance decidableWellFormed : (place : Place) → (lexemes : List (Lexeme × List Char)) →
    Decidable (WellFormed place lexemes)
  | _, [] => .isTrue trivial
  | place, (lexeme, gap) :: rest =>
    have := decidableWellFormed (place.behind lexeme) rest
    inferInstanceAs (Decidable (lexeme.Valid ∧ place.Allows lexeme ∧ IsGap lexeme gap ∧
      (rest ≠ [] → gap ≠ []) ∧ WellFormed (place.behind lexeme) rest))

/-- The reader takes each lexeme of a sequence for what it is. -/
def Legible : Place → List (Lexeme × List Char) → Prop
  | _, [] => True
  | place, (lexeme, _) :: rest => place.Reads lexeme ∧ Legible (place.behind lexeme) rest

instance decidableLegible : (place : Place) → (lexemes : List (Lexeme × List Char)) →
    Decidable (Legible place lexemes)
  | _, [] => .isTrue trivial
  | place, (lexeme, _) :: rest =>
    have := decidableLegible (place.behind lexeme) rest
    inferInstanceAs (Decidable (place.Reads lexeme ∧ Legible (place.behind lexeme) rest))

def sourceOf (lexemes : List (Lexeme × List Char)) : List Char :=
  lexemes.flatMap fun entry => entry.1.text ++ entry.2

def strippedOf (lexemes : List (Lexeme × List Char)) : List Char :=
  lexemes.flatMap fun entry => entry.1.stripped ++ entry.2

variable {s s' : Context} {text body rest : List Char} {items : List Item} {c : Char}

theorem substitutions_foldl (s : Context) (text : List Char) :
    (text.foldl mark s).substitutions = s.substitutions := by
  induction text generalizing s with
  | nil => rfl
  | cons c text ih => rw [List.foldl_cons, ih, substitutions_mark]

theorem closes_plain (hs : s.substitutions = []) (h : ∀ c ∈ text, IsPlain c) :
    Closes .code s text (text.foldl mark s) := by
  induction text generalizing s with
  | nil => exact fun _ => rfl
  | cons c text ih =>
      obtain ⟨hc, htext⟩ := List.forall_mem_cons.mp h
      exact (closes_plain_char hs hc).append (ih ((substitutions_mark s c).trans hs) htext)

theorem word_foldl (hs : s.word = []) (text : List Char) :
    (text.foldl mark s).word = text.reverse.takeWhile isIdentifierChar := by
  induction text using List.reverseRecOn with
  | nil => simpa
  | append_singleton text c ih =>
      rw [List.foldl_concat, List.reverse_concat, List.takeWhile_cons, mark, ← ih]
      split_ifs <;> rfl

theorem contains_reversed (word : List Char) :
    reversedOperatorWords.contains word = true ↔ IsPrefixKeyword word.reverse := by
  rw [IsPrefixKeyword, reversedOperatorWords, List.contains_iff_mem, List.mem_map]
  constructor
  · rintro ⟨keyword, hkeyword, rfl⟩
    simpa using hkeyword
  · exact fun h => ⟨_, h, by simp⟩

theorem operandExpected_letter (hs : s.word = []) (hc : isIdentifierChar c) (text : List Char) :
    ((text ++ [c]).foldl mark s).operandExpected = true ↔
      IsPrefixKeyword (lastWord (text ++ [c])) := by
  have hword := word_foldl hs (text ++ [c])
  rw [lastWord, ← contains_reversed, ← hword, List.foldl_concat, mark, if_pos hc]
  rfl

theorem operandExpected_mark (hc : isIdentifierChar c = false) (hspace : isSpace c = false)
    (text : List Char) : ((text ++ [c]).foldl mark s).operandExpected =
      !([')', ']', '}'].contains c) := by
  rw [List.foldl_concat, mark, if_neg (by simp [hc]), if_neg (by simp [hspace])]
  simp [Context.afterPunctuator, Bool.and_assoc, beq_eq_decide]

theorem lastWord_letter (hc : isIdentifierChar c) (text : List Char) :
    lastWord (text ++ [c]) ≠ [] := by
  simp [lastWord, hc]

theorem lastWord_mark (hc : isIdentifierChar c = false) (text : List Char) :
    lastWord (text ++ [c]) = [] := by
  simp [lastWord, hc]

/-- A character of a word or a number. -/
def IsInner (c : Char) : Prop :=
  IsPlain c ∧ (isIdentifierChar c = false → isSpace c = false ∧ c ∉ [')', ']', '}'])

theorem isPlain_of_letter (hc : isIdentifierChar c) : IsPlain c := by
  have hmarks : ∀ x ∈ ['/', '"', '\'', '\x60'], isIdentifierChar x = false := by decide
  intro hmem
  exact absurd hc (by simp [hmarks c hmem])

theorem isInner_of_isWordChar (h : isWordChar c) : IsInner c := by
  have hmarks : ∀ x ∈ ['/', '"', '\'', '\x60'], x.toNat < 128 := by decide
  have hclosing : ∀ x ∈ [')', ']', '}'], x.toNat < 128 := by decide
  rw [isWordChar, Bool.or_eq_true, Bool.and_eq_true, decide_eq_true_iff, Bool.not_eq_true'] at h
  rcases h with hletter | ⟨hcode, hspace⟩
  · exact ⟨isPlain_of_letter hletter, fun hother => absurd hletter (by simp [hother])⟩
  · exact ⟨fun hmem => absurd (hmarks c hmem) (by omega),
      fun _ => ⟨hspace, fun hmem => absurd (hclosing c hmem) (by omega)⟩⟩

theorem isInner_of_isNumberChar (h : isNumberChar c) : IsInner c := by
  have hsigns : ∀ x ∈ ['.', '+', '-'], x ∉ ['/', '"', '\'', '\x60'] ∧ isSpace x = false ∧
    x ∉ [')', ']', '}'] := by decide
  rw [isNumberChar, Bool.or_eq_true, List.contains_iff_mem] at h
  rcases h with hletter | hsign
  · exact ⟨isPlain_of_letter hletter, fun hother => absurd hletter (by simp [hother])⟩
  · exact ⟨(hsigns c hsign).1, fun _ => (hsigns c hsign).2⟩

theorem operandExpected_inner (hs : s.word = []) (htext : text ≠ [])
    (h : ∀ c ∈ text, IsInner c) :
    (text.foldl mark s).operandExpected = true ↔ EndsOpen text := by
  obtain ⟨init, c, rfl⟩ := (List.eq_nil_or_concat' text).resolve_left htext
  obtain ⟨-, hother⟩ := h c (by simp)
  cases hc : isIdentifierChar c with
  | true =>
      rw [operandExpected_letter hs hc, EndsOpen]
      exact (or_iff_right (lastWord_letter hc init)).symm
  | false =>
      obtain ⟨hspace, hclosing⟩ := hother hc
      rw [operandExpected_mark hc hspace, Bool.not_eq_true', ← Bool.not_eq_true,
        List.contains_iff_mem]
      exact iff_of_true hclosing (.inl (lastWord_mark hc init))

theorem lastWord_of_letters (h : ∀ c ∈ text, isIdentifierChar c) : lastWord text = text := by
  rw [lastWord, List.takeWhile_eq_self_iff.mpr, List.reverse_reverse]
  exact fun c hc => h c (List.mem_reverse.mp hc)

theorem endsOpen_of_isPrefixKeyword (h : IsPrefixKeyword text) : EndsOpen text := by
  have hletters : ∀ word ∈ operatorWords, ∀ c ∈ word.toList, isIdentifierChar c := by decide
  have hlast : lastWord text = text :=
    lastWord_of_letters fun c hc => hletters _ h c (by simpa using hc)
  exact .inr (hlast.symm ▸ h)

/-- The reader stands in a place of a sequence, with no word begun. -/
structure Fits (place : Place) (s : Context) : Prop where
  substitutions : s.substitutions = []
  operandExpected : s.operandExpected = true ↔ place ≠ .operand

/-- What may follow a lexeme. -/
structure Follows (lexeme : Lexeme) (rest : List Char) : Prop where
  blank : ∀ c, rest.head? = some c → isSpace c
  line : lexeme.isLine → rest.head? = some '\n'

/-- How a lexeme is read where it stands. -/
def IsRead (place : Place) (s : Context) (lexeme : Lexeme) : Prop :=
  ∃ s', Fits (place.behind lexeme) s' ∧ ∀ rest, Follows lexeme rest →
    withoutComments .code s (lexeme.text ++ rest) =
      lexeme.stripped ++ withoutComments .code s' rest

variable {place : Place}

theorem isRead_of_closes {lexeme : Lexeme} (h : Closes .code s lexeme.text s')
    (hfits : Fits (place.behind lexeme) s') (hstripped : lexeme.stripped = lexeme.text) :
    IsRead place s lexeme :=
  ⟨s', hfits, fun rest _ => by rw [h rest, hstripped]⟩

theorem isRead_inner {lexeme : Lexeme} (hfits : Fits place s) (hs : s.word = [])
    (hplace : place.behind lexeme ≠ .operand ↔ EndsOpen lexeme.text) (htext : lexeme.text ≠ [])
    (hinner : ∀ c ∈ lexeme.text, IsInner c) (hstripped : lexeme.stripped = lexeme.text) :
    IsRead place s lexeme := by
  refine isRead_of_closes (closes_plain hfits.substitutions fun c hc => (hinner c hc).1) ?_ hstripped
  refine ⟨(substitutions_foldl s lexeme.text).trans hfits.substitutions, ?_⟩
  rw [operandExpected_inner hs htext hinner, hplace]

theorem isRead_word (hfits : Fits place s) (hs : s.word = []) (h : (Lexeme.word text).Valid) :
    IsRead place s (.word text) := by
  refine isRead_inner hfits hs ?_ h.1 (fun c hc => isInner_of_isWordChar (h.2 c hc)) rfl
  rw [Place.behind, Lexeme.text]
  split_ifs with hkeyword hopen
  · simp [endsOpen_of_isPrefixKeyword hkeyword]
  · simp [hopen]
  · simp [hopen]

theorem isRead_number (hfits : Fits place s) (hs : s.word = []) (h : (Lexeme.number text).Valid) :
    IsRead place s (.number text) := by
  refine isRead_inner hfits hs ?_ ?_ (fun c hc => isInner_of_isNumberChar (h.2 c hc)) rfl
  · rw [Place.behind, Lexeme.text]
    split_ifs with hopen <;> simp [hopen]
  · rintro heq
    have hhead := h.1
    rw [show text = [] from heq] at hhead
    exact absurd hhead (by simp)

theorem isRead_punctuator (hfits : Fits place s) {marks : List Char}
    (h : (Lexeme.punctuator marks).Valid) : IsRead place s (.punctuator marks) := by
  have hplain : ∀ c ∈ marks, IsPlain c ∧ isIdentifierChar c = false ∧ isSpace c = false := by
    intro c hc
    have hmark := h.2 c hc
    simp only [isMark, Bool.not_eq_true', Bool.or_eq_false_iff] at hmark
    obtain ⟨⟨hletter, hspace⟩, hplain⟩ := hmark
    refine ⟨fun hmem => ?_, hletter, hspace⟩
    rw [List.contains_iff_mem.mpr hmem] at hplain
    cases hplain
  refine isRead_of_closes (closes_plain hfits.substitutions fun c hc => (hplain c hc).1) ?_ rfl
  refine ⟨(substitutions_foldl s marks).trans hfits.substitutions, ?_⟩
  obtain ⟨init, c, rfl⟩ := (List.eq_nil_or_concat' marks).resolve_left h.1
  obtain ⟨-, hletter, hspace⟩ := hplain c (by simp)
  rw [Lexeme.text, operandExpected_mark hletter hspace, Place.behind, List.getLast?_concat,
    Option.any_some]
  split_ifs with hclosing hincrement <;> simp_all

theorem isRead_lineComment (hfits : Fits place s) (h : (Lexeme.lineComment body).Valid) :
    IsRead place s (.lineComment body) := by
  refine ⟨s.afterBlank, ⟨hfits.substitutions, hfits.operandExpected⟩, fun rest hrest => ?_⟩
  obtain ⟨rest, rfl⟩ := List.head?_eq_some_iff.mp (hrest.line rfl)
  change withoutComments .code s ('/' :: '/' :: (body ++ '\n' :: rest)) = _
  rw [withoutComments, line_end h, code_blank (.inr rfl)]
  rfl

theorem isRead_blockComment (hfits : Fits place s) (h : (Lexeme.blockComment body).Valid) :
    IsRead place s (.blockComment body) := by
  refine ⟨s.afterBlank, ⟨hfits.substitutions, hfits.operandExpected⟩, fun rest _ => ?_⟩
  rw [Lexeme.text, List.cons_append, List.cons_append, List.append_assoc, withoutComments]
  exact congrArg _ (block_end h rest)

theorem isRead_division (hfits : Fits place s) {assigns : Bool}
    (hallows : place.Allows (.division assigns)) (hreads : place.Reads (.division assigns)) :
    IsRead place s (.division assigns) := by
  have hoperand : s.operandExpected = false := by
    rw [← Bool.not_eq_true, hfits.operandExpected]
    cases place <;> simp_all [Place.Allows, Place.Reads]
  have hbehind : behind s '/' = (.code, s.afterPunctuator '/') := by
    have hletter : isIdentifierChar '/' = false ∧ isSpace '/' = false := by decide
    simp [behind, hoperand, hletter]
  have hsubstitutions : (s.afterPunctuator '/').substitutions = [] := hfits.substitutions
  have hfree : place.behind (.division assigns) ≠ .operand := by simp [Place.behind]
  cases assigns with
  | true =>
      have hsign : isIdentifierChar '=' = false ∧ isSpace '=' = false := by decide
      have hequals := closes_plain_char hsubstitutions (c := '=') (by simp [IsPlain])
      refine isRead_of_closes (hequals.opened hbehind (by simp [Opens])) ⟨?_, ?_⟩ rfl
      · rw [substitutions_mark, hsubstitutions]
      · exact iff_of_true (operandExpected_mark hsign.1 hsign.2 []) hfree
  | false =>
      refine ⟨s.afterPunctuator '/', ⟨hsubstitutions, iff_of_true rfl hfree⟩, fun rest hrest => ?_⟩
      refine (code_cons ?_).trans (by rw [hbehind]; rfl)
      rintro ⟨-, hline | hblock⟩
      · exact absurd (hrest.blank _ hline) (by decide)
      · exact absurd (hrest.blank _ hblock) (by decide)

theorem operandExpected_flags {flags : List Char} (hs : s.word = [])
    (hoperand : s.operandExpected = false) (hflags : ∀ c ∈ flags, c ∈ "dgimsuvy".toList) :
    (flags.foldl mark s).operandExpected = false := by
  have hletters : ∀ c ∈ "dgimsuvy".toList, isIdentifierChar c := by decide
  have hkeywords : ∀ word ∈ operatorWords, ¬ ∀ c ∈ word.toList, c ∈ "dgimsuvy".toList := by decide
  rcases List.eq_nil_or_concat' flags with rfl | ⟨init, c, rfl⟩
  · exact hoperand
  · rw [← Bool.not_eq_true, operandExpected_letter hs (hletters c (hflags c (by simp))),
      lastWord_of_letters fun c hc => hletters c (hflags c hc)]
    intro hkeyword
    exact hkeywords _ hkeyword fun d hd => hflags d (by simpa using hd)

theorem isRead_quoted (hfits : Fits place s) {quote : Char}
    (h : (Lexeme.quoted quote items).Valid) (hreads : place.Reads (.quoted quote items)) :
    IsRead place s (.quoted quote items) := by
  obtain ⟨hquote, hitems⟩ := h
  have hslash : quote ≠ '/' := by
    rintro rfl
    exact absurd hquote (by simp [IsQuote])
  have hbehind : behind s quote = (.quoted quote, s.afterOperand) := by
    rw [behind, if_neg fun h => hslash h.1, if_pos (show quote = '"' ∨ quote = '\'' from hquote)]
  have hclose := (closes_quoted hquote hitems hreads).opened hbehind fun _ h => hslash h.1
  exact isRead_of_closes hclose ⟨hfits.substitutions, by simp [Place.behind, Context.afterOperand]⟩
    rfl

theorem isRead_template (hfits : Fits place s) (h : (Lexeme.template items).Valid) :
    IsRead place s (.template items) := by
  have hbehind : behind s '\x60' = (.template, s.afterBlank) := by simp [behind]
  have hclose := (closes_template h.1 h.2).opened hbehind (by simp [Opens])
  exact isRead_of_closes hclose ⟨hfits.substitutions,
    by simp [Place.behind, Context.afterOperand]⟩ rfl

theorem not_opens_pieces {pieces : List Piece} {flags : List Char}
    (h : (Lexeme.regex pieces flags).Valid) (rest : List Char) :
    ¬ Opens '/' (pieces.flatMap Piece.text ++ ('/' :: flags) ++ rest) := by
  obtain ⟨hne, hhead, hpieces, -⟩ := h
  obtain ⟨piece, pieces, rfl⟩ := List.exists_cons_of_ne_nil hne
  have hpiece := hpieces piece (by simp)
  rcases piece with (c | c | _) | _
  · obtain ⟨hplain, -⟩ := hpiece
    have hstar : c ≠ '*' := by
      rintro rfl
      exact hhead rfl
    simp only [Item.Avoids, List.mem_cons, not_or] at hplain
    simp [Opens, Piece.text, Item.text, hstar, hplain]
  · simp [Opens, Piece.text, Item.text]
  · exact absurd rfl hpiece.2
  · simp [Opens, Piece.text]

/-- Where no operand stands in front, or one that reads like an operator, a `/` begins a regular
expression literal. -/
theorem behind_slash (hfits : Fits place s) (hplace : place ≠ .operand) :
    behind s '/' = (.pattern false, s.afterOperand) := by
  rw [behind, if_pos ⟨rfl, hfits.operandExpected.mpr hplace⟩]

theorem isRead_regex (hfits : Fits place s) {pieces : List Piece} {flags : List Char}
    (h : (Lexeme.regex pieces flags).Valid) (hallows : place.Allows (.regex pieces flags)) :
    IsRead place s (.regex pieces flags) := by
  have hplain : ∀ c ∈ "dgimsuvy".toList, IsPlain c := by simp [IsPlain]
  have hflags := closes_plain (s := s.afterOperand) hfits.substitutions
    fun c hc => hplain c (h.2.2.2 c hc)
  have hbody : Closes (.pattern false) s.afterOperand ('/' :: flags) (flags.foldl mark s.afterOperand) :=
    (closes_pattern_end (.inr ⟨rfl, rfl⟩)).append hflags
  have hclose := (closes_pieces hbody h.2.2.1).opened (behind_slash hfits hallows) (not_opens_pieces h)
  refine isRead_of_closes hclose ⟨?_, ?_⟩ rfl
  · exact (substitutions_foldl _ flags).trans hfits.substitutions
  · simp [operandExpected_flags (s := s.afterOperand) rfl rfl h.2.2.2, Place.behind]

/-- A lexeme that may stand in a place, and that the reader takes for what it is, is read so. -/
theorem isRead_of_reads (hfits : Fits place s) (hs : s.word = []) {lexeme : Lexeme}
    (hvalid : lexeme.Valid) (hallows : place.Allows lexeme) (hreads : place.Reads lexeme) :
    IsRead place s lexeme := by
  cases lexeme with
  | word text => exact isRead_word hfits hs hvalid
  | number text => exact isRead_number hfits hs hvalid
  | lineComment body => exact isRead_lineComment hfits hvalid
  | blockComment body => exact isRead_blockComment hfits hvalid
  | quoted quote items => exact isRead_quoted hfits hvalid hreads
  | template items => exact isRead_template hfits hvalid
  | regex pieces flags => exact isRead_regex hfits hvalid hallows
  | punctuator marks => exact isRead_punctuator hfits hvalid
  | division assigns => exact isRead_division hfits hallows hreads

theorem mark_blank (h : isSpace c) : mark s c = s.afterBlank := by
  rw [mark, isIdentifierChar_of_isSpace h, if_neg Bool.false_ne_true, if_pos h]

theorem foldl_blank {gap : List Char} (h : ∀ c ∈ gap, isSpace c) :
    gap.foldl mark s.afterBlank = s.afterBlank := by
  induction gap with
  | nil => rfl
  | cons c gap ih =>
      obtain ⟨hc, hgap⟩ := List.forall_mem_cons.mp h
      rw [List.foldl_cons, mark_blank hc]
      exact ih hgap

theorem closes_gap {gap : List Char} (hs : s.substitutions = []) (hgap : gap ≠ [])
    (h : ∀ c ∈ gap, isSpace c) : Closes .code s gap s.afterBlank := by
  have hmarks : ∀ x ∈ ['/', '"', '\'', '\x60'], isSpace x = false := by decide
  have hplain : ∀ c ∈ gap, IsPlain c := by
    intro c hc hmem
    exact absurd (h c hc) (by simp [hmarks c hmem])
  have hfoldl : gap.foldl mark s = s.afterBlank := by
    obtain ⟨c, gap, rfl⟩ := List.exists_cons_of_ne_nil hgap
    rw [List.forall_mem_cons] at h
    rw [List.foldl_cons, mark_blank h.1, foldl_blank h.2]
  exact hfoldl ▸ closes_plain hs hplain

theorem follows_gap {lexeme : Lexeme} {gap : List Char} (hgap : IsGap lexeme gap)
    (hrest : gap = [] → rest = []) : Follows lexeme (gap ++ rest) := by
  cases gap with
  | nil =>
      obtain rfl := hrest rfl
      exact ⟨nofun, hgap.line⟩
  | cons c gap =>
      refine ⟨fun d hd => ?_, hgap.line⟩
      obtain rfl := Option.some.inj hd
      exact hgap.blank c (by simp)

theorem withoutComments_sourceOf {lexemes : List (Lexeme × List Char)} (hfits : Fits place s)
    (hs : s.word = []) (hform : WellFormed place lexemes) (hlegible : Legible place lexemes) :
    withoutComments .code s (sourceOf lexemes) = strippedOf lexemes := by
  induction lexemes generalizing place s with
  | nil => exact withoutComments_nil _ _
  | cons entry lexemes ih =>
      obtain ⟨lexeme, gap⟩ := entry
      obtain ⟨hvalid, hallows, hgap, hseparates, hrest⟩ := hform
      obtain ⟨s', hfits', hread⟩ := isRead_of_reads hfits hs hvalid hallows hlegible.1
      have hlast : gap = [] → sourceOf lexemes = [] := by
        intro hnil
        rw [not_imp_not.mp hseparates hnil]
        rfl
      rw [sourceOf, strippedOf, List.flatMap_cons, List.flatMap_cons, ← sourceOf, ← strippedOf,
        List.append_assoc, List.append_assoc, hread _ (follows_gap hgap hlast)]
      -- Only blanks end a word, so without them there must be nothing more to read.
      by_cases hnil : gap = []
      · obtain rfl := not_imp_not.mp hseparates hnil
        rw [hnil]
        exact congrArg _ (withoutComments_nil _ _)
      · rw [closes_gap hfits'.substitutions hnil hgap.blank (sourceOf lexemes)]
        have hfits'' : Fits (place.behind lexeme) s'.afterBlank :=
          ⟨hfits'.substitutions, hfits'.operandExpected⟩
        rw [ih hfits'' rfl hrest hlegible.2]

/-- Of a sequence of lexemes only the comments go, where the reader takes each lexeme for what it is. -/
theorem stripComments_lexemes (lexemes : List (Lexeme × List Char))
    (hform : WellFormed .free lexemes) (hlegible : Legible .free lexemes) :
    stripComments (String.ofList (sourceOf lexemes)) = String.ofList (strippedOf lexemes) := by
  have hfits : Fits .free {} := ⟨rfl, iff_of_true rfl nofun⟩
  rw [stripComments, String.toList_ofList, withoutComments_sourceOf hfits rfl hform hlegible]

/-- A script with a comment mark in a string and in a class, and a division and a comment of each kind. -/
def annotated : List (Lexeme × List Char) :=
  [(.word "link".toList, [' ']), (.punctuator ['='], [' ']),
    (.quoted '"' [.plain '/', .plain '/'], [' ']), (.punctuator [';'], [' ']),
    (.lineComment " home".toList, ['\n']), (.word ['a'], [' ']), (.division false, [' ']),
    (.number "2.5".toList, [' ']), (.blockComment "*\nhalf".toList, [' ']),
    (.punctuator [';'], [' ']), (.word "return".toList, [' ']),
    (.regex [.group [.plain '/', .plain '*'], .item (.escape '/')] ['g'], ['\n'])]

theorem stripComments_annotated : WellFormed .free annotated ∧ Legible .free annotated ∧
    stripComments (String.ofList (sourceOf annotated)) = String.ofList (strippedOf annotated) :=
  ⟨by decide, by decide, stripComments_lexemes annotated (by decide) (by decide)⟩

/-- More of a sequence goes than its comments, or less. -/
def Misread (lexemes : List (Lexeme × List Char)) : Prop :=
  stripComments (String.ofList (sourceOf lexemes)) ≠ String.ofList (strippedOf lexemes)

/-- The script `i ++ / 2 // half`. -/
def incremented : List (Lexeme × List Char) :=
  [(.word ['i'], [' ']), (.punctuator ['+', '+'], [' ']), (.division false, [' ']),
    (.number ['2'], [' ']), (.lineComment " half".toList, ['\n'])]

/-- The script `1. / 2 // half`. -/
def pointed : List (Lexeme × List Char) :=
  [(.number ['1', '.'], [' ']), (.division false, [' ']), (.number ['2'], [' ']),
    (.lineComment " half".toList, ['\n'])]

/-- A string that goes on with `//` behind a line break of two characters. -/
def continued : List (Lexeme × List Char) :=
  [(.quoted '"' [.escapedBreak, .plain '/', .plain '/'], ['\n'])]

theorem stripComments_misread : (WellFormed .free incremented ∧ Misread incremented) ∧
    (WellFormed .free pointed ∧ Misread pointed) ∧ WellFormed .free continued ∧ Misread continued := by
  unfold Misread
  decide

end WebBundle.Proofs.LexemeSequences
