import WebBundle.Proofs.ScriptReading

namespace WebBundle.Proofs.Lexemes

open Text Script
open WebBundle.Proofs.ScriptReading

/-- What is said of all characters of a text is decided by looking at these only. -/
scoped instance decidableForallChar (p : Char → Prop) [DecidablePred p] (text : List Char) :
    Decidable (∀ c ∈ text, p c) :=
  List.decidableBAll p text

/-- A piece of a string, of a template or of a class of a regular expression literal. -/
inductive Item where
  | plain (c : Char)
  | escape (c : Char)
  /-- An escaped line break of two characters. -/
  | escapedBreak
  deriving DecidableEq, Repr

def Item.text : Item → List Char
  | .plain c => [c]
  | .escape c => ['\\', c]
  | .escapedBreak => ['\\', '\r', '\n']

/-- An item is no backslash and none of some marks by itself. -/
def Item.Avoids (marks : List Char) : Item → Prop
  | .plain c => c ∉ '\\' :: marks
  | .escape _ | .escapedBreak => True

instance (marks : List Char) : (item : Item) → Decidable (item.Avoids marks)
  | .plain c => inferInstanceAs (Decidable (c ∉ '\\' :: marks))
  | .escape _ | .escapedBreak => .isTrue trivial

def textOf (items : List Item) : List Char := items.flatMap Item.text

/-- A piece of a regular expression literal. -/
inductive Piece where
  | item (item : Item)
  /-- A character class. -/
  | group (items : List Item)
  deriving DecidableEq, Repr

def Piece.text : Piece → List Char
  | .item piece => piece.text
  | .group items => '[' :: (textOf items ++ [']'])

def Piece.Valid : Piece → Prop
  | .item piece => piece.Avoids ['\n', '/', '['] ∧ piece ≠ .escapedBreak
  | .group items => ∀ item ∈ items, item.Avoids ['\n', ']'] ∧ item ≠ .escapedBreak

instance : (piece : Piece) → Decidable piece.Valid
  | .item piece => inferInstanceAs
      (Decidable (piece.Avoids ['\n', '/', '['] ∧ piece ≠ .escapedBreak))
  | .group items => inferInstanceAs
      (Decidable (∀ item ∈ items, item.Avoids ['\n', ']'] ∧ item ≠ .escapedBreak))

inductive Lexeme where
  | word (text : List Char)
  | number (text : List Char)
  | lineComment (body : List Char)
  | blockComment (body : List Char)
  | quoted (quote : Char) (items : List Item)
  /-- A template without substitutions. -/
  | template (items : List Item)
  | regex (pieces : List Piece) (flags : List Char)
  /-- Marks of one punctuator. -/
  | punctuator (marks : List Char)
  /-- A division, or one that assigns what it gives. -/
  | division (assigns : Bool)
  deriving DecidableEq, Repr

/-- A letter, a digit, `_` or `$`, or any sign beyond ASCII that is not blank. -/
def isWordChar (c : Char) : Bool := isIdentifierChar c || (128 ≤ c.toNat && !isSpace c)

def isNumberChar (c : Char) : Bool := isIdentifierChar c || ['.', '+', '-'].contains c

def isMark (c : Char) : Bool :=
  !(isIdentifierChar c || isSpace c || ['/', '"', '\'', '\x60'].contains c)

namespace Lexeme

def text : Lexeme → List Char
  | word text | number text => text
  | lineComment body => '/' :: '/' :: body
  | blockComment body => '/' :: '*' :: (body ++ ['*', '/'])
  | quoted quote items => quote :: (textOf items ++ [quote])
  | template items => '\x60' :: (textOf items ++ ['\x60'])
  | regex pieces flags => '/' :: (pieces.flatMap Piece.text ++ '/' :: flags)
  | punctuator marks => marks
  | division assigns => if assigns then ['/', '='] else ['/']

/-- What is left of a lexeme: of a line comment nothing, of a block comment a blank and its line
breaks, of any other all. -/
def stripped : Lexeme → List Char
  | lineComment _ => []
  | blockComment body => ' ' :: breaks body
  | lexeme => lexeme.text

def isLine : Lexeme → Bool
  | lineComment _ => true
  | _ => false

def Valid : Lexeme → Prop
  | word text => text ≠ [] ∧ ∀ c ∈ text, isWordChar c
  | number text => (text.head?.any fun c => isAsciiDigit c || c == '.') ∧ ∀ c ∈ text, isNumberChar c
  | lineComment body => '\n' ∉ body
  | blockComment body => IsInside body
  | quoted quote items => IsQuote quote ∧ ∀ item ∈ items, item.Avoids ['\n', quote]
  | template items => (∀ item ∈ items, item.Avoids ['\x60']) ∧
      ¬ [Item.plain '$', Item.plain '{'] <:+: items
  | regex pieces flags => pieces ≠ [] ∧ pieces.head? ≠ some (.item (.plain '*')) ∧
      (∀ piece ∈ pieces, piece.Valid) ∧ ∀ c ∈ flags, c ∈ "dgimsuvy".toList
  | punctuator marks => marks ≠ [] ∧ ∀ c ∈ marks, isMark c
  | division _ => True

instance : (lexeme : Lexeme) → Decidable lexeme.Valid
  | word text => inferInstanceAs (Decidable (text ≠ [] ∧ ∀ c ∈ text, isWordChar c))
  | number text => inferInstanceAs (Decidable ((text.head?.any fun c => isAsciiDigit c || c == '.') ∧
      ∀ c ∈ text, isNumberChar c))
  | lineComment body => inferInstanceAs (Decidable ('\n' ∉ body))
  | blockComment body => inferInstanceAs (Decidable (¬ ['*', '/'] <:+: body))
  | quoted quote items => inferInstanceAs (Decidable ((quote = '"' ∨ quote = '\'') ∧
      ∀ item ∈ items, item.Avoids ['\n', quote]))
  | template items => inferInstanceAs (Decidable ((∀ item ∈ items, item.Avoids ['\x60']) ∧
      ¬ [Item.plain '$', Item.plain '{'] <:+: items))
  | regex pieces flags => inferInstanceAs (Decidable (pieces ≠ [] ∧
      pieces.head? ≠ some (.item (.plain '*')) ∧ (∀ piece ∈ pieces, piece.Valid) ∧
      ∀ c ∈ flags, c ∈ "dgimsuvy".toList))
  | punctuator marks => inferInstanceAs (Decidable (marks ≠ [] ∧ ∀ c ∈ marks, isMark c))
  | division _ => .isTrue trivial

end Lexeme

variable {s s' : Context} {body : List Char} {items : List Item}

theorem closes_quoted {quote : Char} (hquote : IsQuote quote)
    (hitems : ∀ item ∈ items, item.Avoids ['\n', quote]) (hbreak : .escapedBreak ∉ items) :
    Closes (.quoted quote) s (textOf items ++ [quote]) s := by
  induction items with
  | nil => exact closes_quoted_end hquote (.inr rfl)
  | cons item items ih =>
      obtain ⟨hitem, hitems⟩ := List.forall_mem_cons.mp hitems
      rw [List.mem_cons, not_or] at hbreak
      have hrest := ih hitems hbreak.2
      cases item with
      | plain c =>
          simp only [Item.Avoids, List.mem_cons, not_or] at hitem
          exact hrest.cons (quoted_cons hitem.1 (by simp [hitem]))
      | escape c => exact hrest.escape hquote c
      | escapedBreak => exact absurd rfl hbreak.1

theorem head?_template (hopen : ¬ [Item.plain '$', Item.plain '{'] <:+: .plain '$' :: items)
    (rest : List Char) : (textOf items ++ ['\x60'] ++ rest).head? ≠ some '{' := by
  rcases items with _ | ⟨item, items⟩
  · simp [textOf]
  · cases item with
    | plain c =>
        rintro heq
        obtain rfl : c = '{' := Option.some.inj heq
        exact hopen ⟨[], items, rfl⟩
    | escape c => simp [textOf, Item.text]
    | escapedBreak => simp [textOf, Item.text]

theorem closes_template (hitems : ∀ item ∈ items, item.Avoids ['\x60'])
    (hopen : ¬ [Item.plain '$', Item.plain '{'] <:+: items) :
    Closes .template s (textOf items ++ ['\x60']) s.afterOperand := by
  induction items with
  | nil => exact closes_template_end
  | cons item items ih =>
      obtain ⟨hitem, hitems⟩ := List.forall_mem_cons.mp hitems
      have hrest := ih hitems fun hpart => hopen (hpart.trans (List.suffix_cons _ _).isInfix)
      cases item with
      | plain c =>
          simp only [Item.Avoids, List.mem_cons, not_or] at hitem
          intro rest
          refine (template_cons hitem.1 hitem.2.1 fun hc => ?_).trans (congrArg _ (hrest rest))
          subst hc
          exact head?_template hopen rest
      | escape c => exact hrest.escape trivial c
      | escapedBreak =>
          have hbreak : Closes .template s ('\n' :: (textOf items ++ ['\x60'])) s.afterOperand :=
            hrest.cons fun rest => template_cons (by decide) (by decide) (by simp)
          exact hbreak.escape trivial '\r'

theorem closes_group (h : Closes (.pattern false) s body s')
    (hitems : ∀ item ∈ items, item.Avoids ['\n', ']'] ∧ item ≠ .escapedBreak) :
    Closes (.pattern true) s (textOf items ++ ']' :: body) s' := by
  induction items with
  | nil => exact h.cons (pattern_cons (by decide) (by decide))
  | cons item items ih =>
      obtain ⟨⟨hitem, hbreak⟩, hrest⟩ := List.forall_mem_cons.mp hitems
      cases item with
      | plain c =>
          simp only [Item.Avoids, List.mem_cons, not_or] at hitem
          have hclass : classBehind true c = true := by simp [classBehind, hitem]
          refine (ih hrest).cons fun rest => ?_
          rw [pattern_cons hitem.1 (by simp [hitem]), hclass]
      | escape c => exact (ih hrest).escape trivial c
      | escapedBreak => exact absurd rfl hbreak

theorem closes_piece {piece : Piece} (h : Closes (.pattern false) s body s')
    (hpiece : piece.Valid) : Closes (.pattern false) s (piece.text ++ body) s' := by
  cases piece with
  | item item =>
      obtain ⟨hitem, hbreak⟩ := hpiece
      cases item with
      | plain c =>
          simp only [Item.Avoids, List.mem_cons, not_or] at hitem
          have hclass : classBehind false c = false := by simp [classBehind, hitem]
          refine h.cons fun rest => ?_
          rw [pattern_cons hitem.1 (by simp [hitem]), hclass]
      | escape c => exact h.escape trivial c
      | escapedBreak => exact absurd rfl hbreak
  | group items =>
      rw [Piece.text, List.cons_append, List.append_assoc]
      exact (closes_group h hpiece).cons (pattern_cons (by decide) (by decide))

theorem closes_pieces {pieces : List Piece} (h : Closes (.pattern false) s body s')
    (hpieces : ∀ piece ∈ pieces, piece.Valid) :
    Closes (.pattern false) s (pieces.flatMap Piece.text ++ body) s' := by
  induction pieces with
  | nil => exact h
  | cons piece pieces ih =>
      obtain ⟨hpiece, hpieces⟩ := List.forall_mem_cons.mp hpieces
      rw [List.flatMap_cons, List.append_assoc]
      exact closes_piece (ih hpieces) hpiece

end WebBundle.Proofs.Lexemes
