import Mathlib.Data.List.Basic
import Mathlib.Data.List.Infix
import WebBundle.Script.Comments

/-!
How a script is read when its comments are removed: a comment from its mark to its end, a literal from its
opening to its end, and any other character by itself.
-/

namespace WebBundle.Proofs.ScriptReading

open Text Script

variable {region : Region} {s s' : Context} {text rest out body : List Char} {c quote : Char}

attribute [local simp] withoutComments

/-- A character begins a comment where code goes on with a text. -/
def Opens (c : Char) (rest : List Char) : Prop :=
  c = '/' ∧ (rest.head? = some '/' ∨ rest.head? = some '*')

/-- How a script is read behind a character of code that begins no comment. -/
def behind (s : Context) (c : Char) : Region × Context :=
  if c = '/' ∧ s.operandExpected = true then (.pattern false, s.afterOperand)
  else if c = '"' ∨ c = '\'' then (.quoted c, s.afterOperand)
  else if c = '\x60' then (.template, s.afterBlank)
  else if c = '}' ∧ s.closesSubstitution = true then (.template, s.closeSubstitution)
  else if isIdentifierChar c then (.code, s.afterLetter c)
  else if isSpace c then (.code, s.afterBlank)
  else (.code, s.afterPunctuator c)

theorem code_cons (h : ¬ Opens c rest) : withoutComments .code s (c :: rest) =
    c :: withoutComments (behind s c).1 (behind s c).2 rest := by
  rw [withoutComments, behind]
  · split_ifs <;> rfl
  · rintro other rfl rfl
    exact h ⟨rfl, .inl rfl⟩
  · rintro other rfl rfl
    exact h ⟨rfl, .inr rfl⟩

theorem behind_blank (hc : c = ' ' ∨ c = '\n') : behind s c = (.code, s.afterBlank) := by
  have hletter : isIdentifierChar ' ' = false ∧ isIdentifierChar '\n' = false := by decide
  have hspace : isSpace ' ' = true ∧ isSpace '\n' = true := by decide
  rcases hc with rfl | rfl <;> simp [behind, hletter, hspace]

theorem code_blank (hc : c = ' ' ∨ c = '\n') (rest : List Char) :
    withoutComments .code s (c :: rest) = c :: withoutComments .code s.afterBlank rest := by
  rw [code_cons, behind_blank hc]
  rintro ⟨rfl, -⟩
  exact absurd hc (by decide)

/-- The line breaks of a text. -/
def breaks (text : List Char) : List Char := text.filter (· = '\n')

theorem line_end (h : '\n' ∉ body) (rest : List Char) :
    withoutComments .lineComment s (body ++ '\n' :: rest) =
      '\n' :: withoutComments .code s rest := by
  induction body with
  | nil => simp
  | cons c body ih =>
      rw [List.mem_cons, not_or] at h
      rw [List.cons_append, withoutComments, if_neg (Ne.symm h.1), ih h.2]

theorem line_all (h : '\n' ∉ body) : withoutComments .lineComment s body = [] := by
  induction body with
  | nil => exact withoutComments_nil .lineComment s
  | cons c body ih =>
      rw [List.mem_cons, not_or] at h
      rw [withoutComments, if_neg (Ne.symm h.1), ih h.2]

/-- The text of a block comment: the mark that ends it is not in it. -/
def IsInside (body : List Char) : Prop := ¬ ['*', '/'] <:+: body

theorem IsInside.tail (h : IsInside (c :: body)) : IsInside body :=
  fun hpart => h (hpart.trans (List.suffix_cons c body).isInfix)

theorem block_cons (h : c = '*' → rest.head? ≠ some '/') :
    withoutComments .blockComment s (c :: rest) =
      breaks [c] ++ withoutComments .blockComment s rest := by
  rw [withoutComments]
  · by_cases hc : c = '\n' <;> simp [breaks, hc]
  · rintro other rfl rfl
    exact h rfl rfl

theorem IsInside.head? (h : IsInside (c :: body)) (hc : c = '*') : body.head? ≠ some '/' := by
  intro hhead
  obtain ⟨other, rfl⟩ := List.head?_eq_some_iff.mp hhead
  exact h (hc ▸ ⟨[], other, rfl⟩)

theorem block_end (h : IsInside body) (rest : List Char) :
    withoutComments .blockComment s (body ++ '*' :: '/' :: rest) =
      breaks body ++ withoutComments .code s rest := by
  induction body with
  | nil => simp [breaks]
  | cons c body ih =>
      rw [List.cons_append, block_cons, ih h.tail, ← List.append_assoc, breaks, breaks, breaks,
        ← List.filter_append, List.singleton_append]
      intro hc
      cases body with
      | nil => simp
      | cons d body => simpa using h.head? hc

theorem block_all (h : IsInside body) : withoutComments .blockComment s body = breaks body := by
  induction body with
  | nil => exact withoutComments_nil .blockComment s
  | cons c body ih =>
      rw [block_cons h.head?, ih h.tail, breaks, breaks, breaks, ← List.filter_append,
        List.singleton_append]

/-- A text that is copied up to its end, behind which code goes on. -/
def Closes (region : Region) (s : Context) (body : List Char) (s' : Context) : Prop :=
  ∀ rest, withoutComments region s (body ++ rest) = body ++ withoutComments .code s' rest

def IsQuote (c : Char) : Prop := c = '"' ∨ c = '\''

theorem IsQuote.ne_escape (h : IsQuote c) : c ≠ '\\' := by
  rintro rfl
  exact absurd h (by simp [IsQuote])

/-- The regions of literals. -/
def IsLiteral : Region → Prop
  | .quoted quote => IsQuote quote
  | .pattern _ | .template => True
  | .code | .lineComment | .blockComment => False

theorem literal_escape (h : IsLiteral region) (c : Char) (rest : List Char) :
    withoutComments region s ('\\' :: c :: rest) = '\\' :: c :: withoutComments region s rest := by
  cases region with
  | quoted | pattern | template => rw [withoutComments]
  | code | lineComment | blockComment => exact absurd h id

theorem literal_singleton (h : IsLiteral region) (c : Char) :
    withoutComments region s [c] = [c] := by
  cases region with
  | quoted | pattern | template =>
      rw [withoutComments]
      · split <;> simp
      all_goals simp
  | code | lineComment | blockComment => exact absurd h id

theorem Closes.escape (h : Closes region s body s') (hregion : IsLiteral region) (c : Char) :
    Closes region s ('\\' :: c :: body) s' := by
  intro rest
  rw [List.cons_append, List.cons_append, literal_escape hregion, h rest, List.cons_append,
    List.cons_append]

theorem closes_quoted_end (hquote : IsQuote quote) (hc : c = '\n' ∨ c = quote) :
    Closes (.quoted quote) s [c] s := by
  intro rest
  rw [List.singleton_append, withoutComments, if_pos hc]
  · rfl
  · rintro d other rfl
    rcases hc with hc | rfl
    · exact absurd hc (by decide)
    · exact absurd rfl hquote.ne_escape

/-- Whether a place of a pattern behind a character is in a character class. -/
def classBehind (inClass : Bool) (c : Char) : Bool :=
  if c = '[' then true else if c = ']' then false else inClass

theorem closes_pattern_end {inClass : Bool} (hc : c = '\n' ∨ (c = '/' ∧ inClass = false)) :
    Closes (.pattern inClass) s [c] s := by
  intro rest
  rw [List.singleton_append, withoutComments, if_pos hc]
  · rfl
  · rintro d other rfl
    exact absurd hc (by simp)

theorem closes_template_end : Closes .template s ['\x60'] s.afterOperand := by
  intro rest
  rw [List.singleton_append, withoutComments, if_pos rfl]
  · rfl
  · simp
  · simp

theorem closes_template_open : Closes .template s ['$', '{'] s.openSubstitution := by
  intro rest
  simp

theorem Closes.cons {next : Region} (h : Closes next s body s')
    (hcopy : ∀ rest, withoutComments region s (c :: rest) = c :: withoutComments next s rest) :
    Closes region s (c :: body) s' := by
  intro rest
  rw [List.cons_append, hcopy, h rest, List.cons_append]

theorem Closes.append {s'' : Context} {other : List Char} (h : Closes region s body s')
    (hother : Closes .code s' other s'') : Closes region s (body ++ other) s'' := by
  intro rest
  rw [List.append_assoc, h (other ++ rest), hother rest, List.append_assoc]

theorem quoted_cons (hescape : c ≠ '\\') (hend : ¬ (c = '\n' ∨ c = quote)) (rest : List Char) :
    withoutComments (.quoted quote) s (c :: rest) =
      c :: withoutComments (.quoted quote) s rest := by
  rw [withoutComments, if_neg hend]
  exact fun _ _ heq => absurd heq hescape

theorem pattern_cons {inClass : Bool} (hescape : c ≠ '\\')
    (hend : ¬ (c = '\n' ∨ (c = '/' ∧ inClass = false))) (rest : List Char) :
    withoutComments (.pattern inClass) s (c :: rest) =
      c :: withoutComments (.pattern (classBehind inClass c)) s rest := by
  rw [withoutComments, if_neg hend]
  · rfl
  · exact fun _ _ heq => absurd heq hescape

theorem template_cons (hescape : c ≠ '\\') (hend : c ≠ '\x60')
    (hopen : c = '$' → rest.head? ≠ some '{') :
    withoutComments .template s (c :: rest) = c :: withoutComments .template s rest := by
  rw [withoutComments, if_neg hend]
  · exact fun _ _ heq => absurd heq hescape
  · rintro other rfl rfl
    exact hopen rfl rfl

theorem Closes.opened {next : Region} {s'' : Context} (h : Closes next s' body s'')
    (hbehind : behind s c = (next, s')) (hopens : ∀ rest, ¬ Opens c (body ++ rest)) :
    Closes .code s (c :: body) s'' := by
  intro rest
  rw [List.cons_append, code_cons (hopens rest), hbehind, h rest, List.cons_append]

/-- Behind one more character that opens no literal and no comment. -/
def mark (s : Context) (c : Char) : Context :=
  if isIdentifierChar c then s.afterLetter c
  else if isSpace c then s.afterBlank
  else s.afterPunctuator c

def IsPlain (c : Char) : Prop := c ∉ ['/', '"', '\'', '\x60']

theorem closes_plain_char (hs : s.substitutions = []) (hc : IsPlain c) :
    Closes .code s [c] (mark s c) := by
  intro rest
  simp only [IsPlain, List.mem_cons, not_or] at hc
  obtain ⟨hslash, hdouble, hsingle, htemplate, -⟩ := hc
  have hbehind : behind s c = (.code, mark s c) := by
    simp only [behind, mark, hslash, hdouble, hsingle, htemplate, Context.closesSubstitution, hs,
      false_and, false_or, if_false, List.head?_nil]
    split_ifs <;> simp_all
  rw [List.singleton_append, code_cons fun h => hslash h.1, hbehind, List.singleton_append]

theorem substitutions_mark (s : Context) (c : Char) : (mark s c).substitutions = s.substitutions := by
  rw [mark]
  split_ifs <;> rfl

/-- What a character of a literal does that escapes nothing, in front of another one. -/
inductive Step (region : Region) (s : Context) (c d : Char) : Prop
  | ends {s' : Context} : Closes region s [c] s' → Step region s c d
  | opens {s' : Context} : Closes region s [c, d] s' → Step region s c d
  | goesOn {next : Region} : IsLiteral next → (∀ rest, rest.head? = some d →
      withoutComments region s (c :: rest) = c :: withoutComments next s rest) → Step region s c d

theorem step_of_isLiteral (h : IsLiteral region) (hescape : c ≠ '\\') (d : Char) :
    Step region s c d := by
  cases region with
  | quoted quote =>
      by_cases hend : c = '\n' ∨ c = quote
      · exact .ends (closes_quoted_end h hend)
      · exact .goesOn h fun rest _ => quoted_cons hescape hend rest
  | pattern inClass =>
      by_cases hend : c = '\n' ∨ (c = '/' ∧ inClass = false)
      · exact .ends (closes_pattern_end hend)
      · have hnext : IsLiteral (.pattern (classBehind inClass c)) := trivial
        exact .goesOn hnext fun rest _ => pattern_cons hescape hend rest
  | template =>
      by_cases hend : c = '\x60'
      · exact hend ▸ .ends closes_template_end
      · by_cases hopen : c = '$' ∧ d = '{'
        · obtain ⟨rfl, rfl⟩ := hopen
          exact .opens closes_template_open
        · refine .goesOn h fun rest hrest => template_cons hescape hend fun hc hbrace => ?_
          exact hopen ⟨hc, Option.some.inj (hrest.symm.trans hbrace)⟩
  | code | lineComment | blockComment => exact absurd h id

/-- A literal goes on to the end of the text, or it ends before. -/
inductive Ends (region : Region) (s : Context) : List Char → Prop
  | never {text : List Char} : withoutComments region s text = text → Ends region s text
  | closed {body rest : List Char} {s' : Context} : body ≠ [] → Closes region s body s' →
    Ends region s (body ++ rest)

theorem Ends.cons {next : Region} {d : Char} (h : Ends next s text) (hhead : text.head? = some d)
    (hcopy : ∀ rest, rest.head? = some d →
      withoutComments region s (c :: rest) = c :: withoutComments next s rest) :
    Ends region s (c :: text) := by
  cases h with
  | never hall => exact .never (by rw [hcopy text hhead, hall])
  | @closed body rest s' hbody hclose =>
      have hcons : Closes region s (c :: body) s' := by
        intro other
        have hfirst : (body ++ other).head? = some d := by
          obtain ⟨first, body, rfl⟩ := List.exists_cons_of_ne_nil hbody
          exact hhead
        rw [List.cons_append, hcopy _ hfirst, hclose other, List.cons_append]
      exact .closed (List.cons_ne_nil c body) hcons

theorem ends_of_isLiteral {region : Region} (s : Context) (h : IsLiteral region) :
    (text : List Char) → Ends region s text
  | [] => .never (withoutComments_nil region s)
  | [c] => .never (literal_singleton h c)
  | c :: d :: rest => by
      by_cases hescape : c = '\\'
      · subst hescape
        -- An escaped character ends nothing, so the two are taken at once.
        cases ends_of_isLiteral s h rest with
        | never hrest => exact .never (by rw [literal_escape h, hrest])
        | closed _ hclose => exact .closed (List.cons_ne_nil _ _) (hclose.escape h d)
      · cases step_of_isLiteral (s := s) h hescape d with
        | ends hclose => exact .closed (List.cons_ne_nil _ _) hclose
        | opens hclose => exact .closed (List.cons_ne_nil _ _) hclose
        | goesOn hnext hcopy => exact (ends_of_isLiteral s hnext (d :: rest)).cons rfl hcopy

/-- How a script is read where code goes on, with what is left of it. -/
inductive Reads : Context → List Char → List Char → Prop
  | nil {s : Context} : Reads s [] []
  /-- A line comment, and its line break. -/
  | line {s : Context} {body rest out : List Char} : '\n' ∉ body → Reads s.afterBlank rest out →
    Reads s ('/' :: '/' :: (body ++ '\n' :: rest)) ('\n' :: out)
  | lastLine {s : Context} {body : List Char} : '\n' ∉ body → Reads s ('/' :: '/' :: body) []
  | block {s : Context} {body rest out : List Char} : IsInside body → Reads s.afterBlank rest out →
    Reads s ('/' :: '*' :: (body ++ '*' :: '/' :: rest)) (' ' :: (breaks body ++ out))
  | lastBlock {s : Context} {body : List Char} : IsInside body →
    Reads s ('/' :: '*' :: body) (' ' :: breaks body)
  | code {s s' : Context} {c : Char} {rest out : List Char} : ¬ Opens c rest →
    behind s c = (.code, s') → Reads s' rest out → Reads s (c :: rest) (c :: out)
  | literal {s s' s'' : Context} {region : Region} {c : Char} {body rest out : List Char} :
    ¬ Opens c (body ++ rest) → behind s c = (region, s') → body ≠ [] →
    Closes region s' body s'' → Reads s'' rest out →
    Reads s (c :: (body ++ rest)) (c :: (body ++ out))
  | lastLiteral {s s' : Context} {region : Region} {c : Char} {body : List Char} :
    ¬ Opens c body → behind s c = (region, s') → withoutComments region s' body = body →
    Reads s (c :: body) (c :: body)

theorem Reads.eq (h : Reads s text out) : withoutComments .code s text = out := by
  induction h with
  | nil => exact withoutComments_nil _ _
  | line hbody _ ih => rw [withoutComments, line_end hbody, ih]
  | lastLine hbody => rw [withoutComments, line_all hbody]
  | block hbody _ ih => rw [withoutComments, block_end hbody, ih]
  | lastBlock hbody => rw [withoutComments, block_all hbody]
  | code hopens hbehind _ ih => rw [code_cons hopens, hbehind, ih]
  | literal hopens hbehind _ hclose _ ih => rw [code_cons hopens, hbehind, hclose, ih]
  | lastLiteral hopens hbehind hall => rw [code_cons hopens, hbehind, hall]

theorem exists_line (text : List Char) : '\n' ∉ text ∨
    ∃ body rest, '\n' ∉ body ∧ text = body ++ '\n' :: rest := by
  by_cases h : '\n' ∈ text
  · obtain ⟨body, rest, htext, hbody⟩ := List.eq_append_cons_of_mem h
    exact .inr ⟨body, rest, hbody, htext⟩
  · exact .inl h

theorem IsInside.cons (h : IsInside body) (hend : c = '*' → body.head? ≠ some '/') :
    IsInside (c :: body) := by
  intro hpart
  rcases List.infix_cons_iff.mp hpart with ⟨other, hprefix⟩ | hpart
  · obtain ⟨rfl, rfl⟩ := List.cons_eq_cons.mp hprefix
    exact hend rfl rfl
  · exact h hpart

theorem exists_block (text : List Char) : IsInside text ∨
    ∃ body rest, IsInside body ∧ text = body ++ '*' :: '/' :: rest := by
  induction text with
  | nil => exact .inl (by simp [IsInside])
  | cons c text ih =>
      by_cases hend : c = '*' ∧ text.head? = some '/'
      · obtain ⟨rfl, hhead⟩ := hend
        obtain ⟨rest, rfl⟩ := List.head?_eq_some_iff.mp hhead
        exact .inr ⟨[], rest, by simp [IsInside], rfl⟩
      · rw [not_and] at hend
        rcases ih with htext | ⟨body, rest, hbody, rfl⟩
        · exact .inl (htext.cons hend)
        · refine .inr ⟨c :: body, rest, hbody.cons fun hc hhead => hend hc ?_, rfl⟩
          rw [List.head?_append, hhead]
          rfl

theorem behind_cases (s : Context) (c : Char) :
    (behind s c).1 = .code ∨ IsLiteral (behind s c).1 := by
  rw [behind]
  split_ifs with hslash hquote
  · exact .inr trivial
  · exact .inr hquote
  · exact .inr trivial
  · exact .inr trivial
  all_goals exact .inl rfl

theorem exists_reads (s : Context) (text : List Char) : ∃ out, Reads s text out := by
  -- A piece may be of any length, so the induction is on the length of what is left.
  induction hn : text.length using Nat.strong_induction_on generalizing s text with
  | _ n ih =>
  subst hn
  match text with
  | [] => exact ⟨[], .nil⟩
  | c :: rest =>
    by_cases hopens : Opens c rest
    · obtain ⟨rfl, hhead | hhead⟩ := hopens
      · obtain ⟨rest, rfl⟩ := List.head?_eq_some_iff.mp hhead
        rcases exists_line rest with hbody | ⟨body, rest, hbody, rfl⟩
        · exact ⟨_, .lastLine hbody⟩
        · obtain ⟨out, hout⟩ := ih rest.length (by simp; omega) s.afterBlank rest rfl
          exact ⟨_, .line hbody hout⟩
      · obtain ⟨rest, rfl⟩ := List.head?_eq_some_iff.mp hhead
        rcases exists_block rest with hbody | ⟨body, rest, hbody, rfl⟩
        · exact ⟨_, .lastBlock hbody⟩
        · obtain ⟨out, hout⟩ := ih rest.length (by simp; omega) s.afterBlank rest rfl
          exact ⟨_, .block hbody hout⟩
    · rcases behind_cases s c with hcode | hliteral
      · obtain ⟨out, hout⟩ := ih rest.length (by simp) (behind s c).2 rest rfl
        exact ⟨_, .code hopens (Prod.ext hcode rfl) hout⟩
      · cases ends_of_isLiteral (behind s c).2 hliteral rest with
        | never hall => exact ⟨_, .lastLiteral hopens rfl hall⟩
        | @closed body rest s' hbody hclose =>
            have hlength : rest.length < (c :: (body ++ rest)).length := by
              rw [List.length_cons, List.length_append]
              omega
            obtain ⟨out, hout⟩ := ih rest.length hlength s' rest rfl
            exact ⟨_, .literal hopens rfl hbody hclose hout⟩

end WebBundle.Proofs.ScriptReading
