import Mathlib.Data.List.Induction
import WebBundle.Json.Printer
import WebBundle.Proofs.CallForms
import WebBundle.Proofs.ScriptReading

namespace WebBundle.Proofs.QuotedData

open Text Script TextSearch CallForms Json
open WebBundle.Proofs.ScriptReading (Closes IsLiteral IsPlain Opens behind closes_plain_char
  closes_quoted_end literal_escape mark quoted_cons substitutions_mark)

variable {text word : List Char} {c : Char}

/-- Comment removal copies a text where no template is open, and none is open behind it. -/
def Copied (word : List Char) : Prop :=
  ∀ s : Context, s.substitutions = [] → ∃ s' : Context, s'.substitutions = [] ∧
    ∀ rest, withoutComments .code s (word ++ rest) = word ++ withoutComments .code s' rest

theorem Copied.nil : Copied [] := fun s hs => ⟨s, hs, fun _ => rfl⟩

theorem Copied.append {other : List Char} (h : Copied word) (h' : Copied other) :
    Copied (word ++ other) := by
  intro s hs
  obtain ⟨s', hs', hword⟩ := h s hs
  obtain ⟨s'', hs'', hother⟩ := h' s' hs'
  refine ⟨s'', hs'', fun rest => ?_⟩
  rw [List.append_assoc, hword, hother, List.append_assoc]

/-- A character that begins no comment, string, pattern or template. -/
def isPlain (c : Char) : Bool := !(c == '/' || c == '"' || c == '\'' || c == '\x60')

theorem copied_singleton (hc : isPlain c = true) : Copied [c] := by
  intro s hs
  have hplain : IsPlain c := by simpa [isPlain, IsPlain, and_assoc] using hc
  exact ⟨mark s c, (substitutions_mark s c).trans hs, closes_plain_char hs hplain⟩

theorem copied_of_forall (h : ∀ c ∈ word, isPlain c = true) : Copied word := by
  induction word with
  | nil => exact .nil
  | cons c word ih =>
      obtain ⟨hc, hword⟩ := List.forall_mem_cons.mp h
      exact (copied_singleton hc).append (ih hword)

def escapeLetters : List Char := ['"', '\\', 'b', 'f', 'n', 'r', 't', 'u']

def hexLetters : List Char := "0123456789abcdef".toList

theorem hexDigit_mem {n : Nat} (hn : n < 16) : hexDigit n ∈ hexLetters := by
  have hall : ∀ n < 16, hexDigit n ∈ hexLetters := by decide
  exact hall n hn

theorem escapeChar_cases (c : Char) :
    (escapeChar c = [c] ∧ c ≠ '"' ∧ c ≠ '\\' ∧ c ≠ '\n') ∨
      ∃ letter ∈ escapeLetters, ∃ digits, escapeChar c = '\\' :: letter :: digits ∧
        ∀ x ∈ digits, x ∈ hexLetters := by
  rw [escapeChar]
  split_ifs with hquote hslash hback hfeed hbreak hreturn htab hcontrol
  · exact .inr ⟨'"', by decide, [], rfl, by simp⟩
  · exact .inr ⟨'\\', by decide, [], rfl, by simp⟩
  · exact .inr ⟨'b', by decide, [], rfl, by simp⟩
  · exact .inr ⟨'f', by decide, [], rfl, by simp⟩
  · exact .inr ⟨'n', by decide, [], rfl, by simp⟩
  · exact .inr ⟨'r', by decide, [], rfl, by simp⟩
  · exact .inr ⟨'t', by decide, [], rfl, by simp⟩
  · refine .inr ⟨'u', by decide, _, rfl, ?_⟩
    have hzero : '0' ∈ hexLetters := by decide
    have hhigh : hexDigit (c.toNat / 16) ∈ hexLetters := hexDigit_mem (by omega)
    have hlow : hexDigit (c.toNat % 16) ∈ hexLetters := hexDigit_mem (by omega)
    simp [hzero, hhigh, hlow]
  · exact .inl ⟨rfl, hquote, hslash, hbreak⟩

theorem quoted_digits (s : Context) {digits : List Char} (hdigits : ∀ x ∈ digits, x ∈ hexLetters)
    (rest : List Char) :
    withoutComments (.quoted '"') s (digits ++ rest) = digits ++
      withoutComments (.quoted '"') s rest := by
  have hplain : ∀ x ∈ hexLetters, x ≠ '"' ∧ x ≠ '\\' ∧ x ≠ '\n' :=
    forall_mem_of_all (by decide)
  induction digits with
  | nil => rfl
  | cons x digits ih =>
      obtain ⟨hx, hdigits⟩ := List.forall_mem_cons.mp hdigits
      obtain ⟨hquote, hslash, hbreak⟩ := hplain x hx
      rw [List.cons_append, quoted_cons hslash (by simp [hquote, hbreak]), ih hdigits, List.cons_append]

theorem quoted_escaped (s : Context) (text rest : List Char) :
    withoutComments (.quoted '"') s (text.flatMap escapeChar ++ rest) =
      text.flatMap escapeChar ++ withoutComments (.quoted '"') s rest := by
  have hliteral : IsLiteral (.quoted '"') := .inl rfl
  induction text with
  | nil => rfl
  | cons c text ih =>
      rw [List.flatMap_cons, List.append_assoc, List.append_assoc]
      rcases escapeChar_cases c with ⟨hc, hquote, hslash, hbreak⟩ | ⟨letter, -, digits, hc, hdigits⟩
      · rw [hc, List.singleton_append, quoted_cons hslash (by simp [hquote, hbreak]), ih,
          List.singleton_append]
      · rw [hc, List.cons_append, List.cons_append, literal_escape hliteral, quoted_digits s hdigits,
          ih, List.cons_append, List.cons_append]

theorem copied_quoteChars (text : List Char) : Copied (quoteChars text) := by
  intro s hs
  have hbehind : behind s '"' = (.quoted '"', s.afterOperand) := by simp [behind]
  have hclose : Closes (.quoted '"') s.afterOperand (text.flatMap escapeChar ++ ['"'])
      s.afterOperand := by
    intro rest
    rw [List.append_assoc, quoted_escaped, closes_quoted_end (.inl rfl) (.inr rfl), List.append_assoc]
  exact ⟨s.afterOperand, hs, hclose.opened hbehind (by simp [Opens])⟩

/-- The characters of JSON texts outside of strings. -/
def isMark (c : Char) : Bool := isPlain c && !(isSpace c || c == '(' || c == '*')

theorem isMark_digit {n : Nat} (hlow : 48 ≤ n) (hhigh : n ≤ 57) : isMark (Char.ofNat n) = true := by
  have hall : ∀ n ≤ 57, 48 ≤ n → isMark (Char.ofNat n) = true := by decide
  exact hall n hhigh hlow

theorem isMark_of_isDigit (hc : c.isDigit = true) : isMark c = true := by
  rw [Char.isDigit, Bool.and_eq_true, decide_eq_true_eq, decide_eq_true_eq] at hc
  rw [← Char.ofNat_toNat c]
  exact isMark_digit hc.1 hc.2

theorem isMark_toString (n : Int) : ∀ c ∈ (toString n).toList, isMark c = true := by
  have hdigits : ∀ m : Nat, ∀ c ∈ m.repr.toList, isMark c = true := by
    intro m c hc
    rw [Nat.toList_repr] at hc
    exact isMark_of_isDigit (Nat.isDigit_of_mem_toDigits (by decide) (by decide) hc)
  cases n with
  | ofNat m => exact hdigits m
  | negSucc m =>
      have htext : (toString (Int.negSucc m)).toList = '-' :: m.succ.repr.toList := by
        simp [toString, Int.repr]
      rw [htext]
      exact List.forall_mem_cons.mpr ⟨by decide, hdigits m.succ⟩

theorem isMark_digits {digits : List Nat} (hdigits : ∀ d ∈ digits, d < 10) :
    ∀ c ∈ digits.map Decimal.digitChar, isMark c = true := by
  intro c hc
  obtain ⟨d, hd, rfl⟩ := List.mem_map.mp hc
  have hlt := hdigits d hd
  exact isMark_digit (by omega) (by omega)

theorem digitsReversed_lt (fuel n : Nat) : ∀ d ∈ Decimal.digitsReversed fuel n, d < 10 := by
  induction fuel generalizing n with
  | zero => simp [Decimal.digitsReversed]
  | succ fuel ih =>
      rw [Decimal.digitsReversed]
      split
      · rename_i hn
        simpa using hn
      · exact List.forall_mem_cons.mpr ⟨Nat.mod_lt _ (by decide), ih _⟩

theorem digitsOf_lt (n : Nat) : ∀ d ∈ Decimal.digitsOf n, d < 10 := fun d hd =>
  digitsReversed_lt _ _ d (List.mem_reverse.mp hd)

theorem dropZeros_lt {d : Decimal.Digits} (hdigits : ∀ n ∈ d.digits, n < 10) :
    ∀ n ∈ (Decimal.dropZeros d).digits, n < 10 := by
  intro n hn
  have hmem := List.dropWhile_subset _ (List.mem_reverse.mp hn)
  exact hdigits n (List.mem_reverse.mp hmem)

theorem shortest_lt (bits : UInt64) : ∀ d ∈ (Decimal.shortest bits).digits, d < 10 := by
  rw [Decimal.shortest]
  exact dropZeros_lt (digitsOf_lt _)

theorem isMark_positional {d : Decimal.Digits} (hdigits : ∀ n ∈ d.digits, n < 10) :
    ∀ c ∈ Decimal.positional d, isMark c = true := by
  have hzero : isMark '0' = true := by decide
  have hpoint : isMark '.' = true := by decide
  have hzeros : ∀ n, ∀ c ∈ List.replicate n '0', isMark c = true := fun n c hc => by
    rw [List.eq_of_mem_replicate hc, hzero]
  have hchars := isMark_digits hdigits
  rw [Decimal.positional]
  dsimp only
  split_ifs
  · simp only [List.forall_mem_cons, List.forall_mem_append]
    exact ⟨hzero, hpoint, hzeros _, hchars⟩
  · simp only [List.forall_mem_cons, List.forall_mem_append]
    exact ⟨⟨hchars, hzeros _⟩, hpoint, hzero, by simp⟩
  · simp only [List.forall_mem_cons, List.forall_mem_append]
    exact ⟨fun c hc => hchars c (List.mem_of_mem_take hc), hpoint, fun c hc =>
      hchars c (List.mem_of_mem_drop hc)⟩

theorem isMark_scientific {d : Decimal.Digits} (hdigits : ∀ n ∈ d.digits, n < 10) :
    ∀ c ∈ Decimal.scientific d, isMark c = true := by
  have hpoint : isMark '.' = true := by decide
  have hletter : isMark 'e' = true := by decide
  have hsign : isMark (if d.exponent < 0 then '-' else '+') = true := by split_ifs <;> decide
  have hchars := isMark_digits hdigits
  rw [Decimal.scientific]
  simp only [List.forall_mem_cons, List.forall_mem_append]
  refine ⟨?_, hletter, hsign, isMark_digits (digitsOf_lt _)⟩
  split
  · simp
  · rename_i x hx
    rwa [hx] at hchars
  · rename_i x rest hrest hx
    rw [hx, List.forall_mem_cons] at hchars
    simp only [List.forall_mem_cons]
    exact ⟨hchars.1, hpoint, hchars.2⟩

theorem isMark_float (bits : UInt64) : ∀ c ∈ floatFormat.text bits, isMark c = true := by
  have hsign : ∀ c ∈ (if bits.toNat < Nat.pow 2 63 then [] else ['-']), isMark c = true := by
    split_ifs <;> exact forall_mem_of_all (by decide)
  have hzero : ∀ c ∈ ['0', '.', '0'], isMark c = true := forall_mem_of_all (by decide)
  have hdigits := shortest_lt bits
  rw [Decimal.Format.text]
  dsimp only
  generalize (if bits.toNat < Nat.pow 2 63 then [] else ['-']) = sign at hsign
  split
  · exact List.forall_mem_append.mpr ⟨hsign, hzero⟩
  · refine List.forall_mem_append.mpr ⟨hsign, ?_⟩
    split
    · exact isMark_positional hdigits
    · exact isMark_scientific hdigits

theorem isMark_scalarChars {value : Json} (hvalue : ∀ text, value ≠ .string text) :
    ∀ c ∈ scalarChars value, isMark c = true := by
  cases value with
  | null => exact forall_mem_of_all (by decide)
  | bool value => cases value <;> exact forall_mem_of_all (by decide)
  | integer n => exact isMark_toString n
  | float bits => exact isMark_float bits
  | string text => exact absurd rfl (hvalue text)
  | array items =>
      have hmarks : ∀ c ∈ ['[', ']'], isMark c = true := forall_mem_of_all (by decide)
      exact hmarks
  | object fields =>
      have hmarks : ∀ c ∈ ['{', '}'], isMark c = true := forall_mem_of_all (by decide)
      exact hmarks

mutual

/-- The strings of a value, keys included. -/
def strings : Json → List String
  | .string text => [text]
  | .array items => itemStrings items
  | .object fields => fieldStrings fields
  | _ => []

def itemStrings : List Json → List String
  | [] => []
  | item :: rest => strings item ++ itemStrings rest

def fieldStrings : List (String × Json) → List String
  | [] => []
  | (key, value) :: rest => key :: (strings value ++ fieldStrings rest)

end

section Induction

variable {P : List Char → Prop}

mutual

/-- What marks and quoted strings have, and what joining them keeps, a JSON text has. -/
theorem compactChars_induction (append : ∀ {word other}, P word → P other → P (word ++ other))
    (marks : ∀ {word}, (∀ c ∈ word, isMark c = true) → P word) :
    ∀ value : Json, (∀ text ∈ strings value, P (quoteChars text.toList)) → P (compactChars value)
  | .null, _ => marks (forall_mem_of_all (by decide))
  | .bool value, _ => marks (isMark_scalarChars (by simp))
  | .integer n, _ => marks (isMark_toString n)
  | .float bits, _ => marks (isMark_float bits)
  | .string text, h => h text (by simp [strings])
  | .array items, h => by
      have hitems := compactItems_induction append marks true items h
      have hopen : P ['['] := marks (forall_mem_of_all (by decide))
      have hclose : P [']'] := marks (forall_mem_of_all (by decide))
      simpa [compactChars] using append hopen (append hitems hclose)
  | .object fields, h => by
      have hfields := compactFields_induction append marks true fields h
      have hopen : P ['{'] := marks (forall_mem_of_all (by decide))
      have hclose : P ['}'] := marks (forall_mem_of_all (by decide))
      simpa [compactChars] using append hopen (append hfields hclose)

theorem compactItems_induction (append : ∀ {word other}, P word → P other → P (word ++ other))
    (marks : ∀ {word}, (∀ c ∈ word, isMark c = true) → P word) (first : Bool) :
    ∀ items : List Json, (∀ text ∈ itemStrings items, P (quoteChars text.toList)) →
      P (compactItems first items)
  | [], _ => marks (by simp [compactItems])
  | item :: rest, h => by
      have hitem := compactChars_induction append marks item fun text htext =>
        h text (List.mem_append_left _ htext)
      have hrest := compactItems_induction append marks false rest fun text htext =>
        h text (List.mem_append_right _ htext)
      have hcomma : P (if first then [] else [',']) :=
        marks (by cases first <;> exact forall_mem_of_all (by decide))
      rw [compactItems]
      exact append (append hcomma hitem) hrest

theorem compactFields_induction (append : ∀ {word other}, P word → P other → P (word ++ other))
    (marks : ∀ {word}, (∀ c ∈ word, isMark c = true) → P word) (first : Bool) :
    ∀ fields : List (String × Json), (∀ text ∈ fieldStrings fields, P (quoteChars text.toList)) →
      P (compactFields first fields)
  | [], _ => marks (by simp [compactFields])
  | (key, value) :: rest, h => by
      have hkey := h key List.mem_cons_self
      have hvalue := compactChars_induction append marks value fun text htext =>
        h text (List.mem_cons_of_mem _ (List.mem_append_left _ htext))
      have hrest := compactFields_induction append marks false rest fun text htext =>
        h text (List.mem_cons_of_mem _ (List.mem_append_right _ htext))
      have hcomma : P (if first then [] else [',']) :=
        marks (by cases first <;> exact forall_mem_of_all (by decide))
      have hcolon : P [':'] := marks (forall_mem_of_all (by decide))
      rw [compactFields]
      have hfield := append (append (append hcomma hkey) (append hcolon hvalue)) hrest
      simpa using hfield

end

end Induction

theorem copied_compactChars (value : Json) : Copied (compactChars value) := by
  refine compactChars_induction (P :=
    Copied) Copied.append (fun hmarks => copied_of_forall fun c hc => ?_) value
    fun text _ => copied_quoteChars text.toList
  exact (Bool.and_eq_true _ _ ▸ hmarks c hc).1

end WebBundle.Proofs.QuotedData
