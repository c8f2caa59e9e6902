import WebBundle.Script.Comments
import Mathlib.Data.List.Forall2

namespace WebBundle.Text

/-- A range of the list holds the code point. -/
def Covers (ranges : List (Nat × Nat)) (n : Nat) : Prop := ∃ r ∈ ranges, r.1 ≤ n ∧ n ≤ r.2

namespace CodeSet

variable {table : Array (Nat × Nat)} {ranges : List (Nat × Nat)} {n : Nat}

theorem covers_of_search {fuel low count : Nat} (h : search table n fuel low count = true) :
    Covers table.toList n := by
  induction fuel generalizing low count with
  | zero => cases h
  | succ fuel ih =>
      rw [search] at h
      split at h
      · cases h
      · rename_i hcount
        cases hmiddle : table[low + count / 2]? with
        | none => simp [hmiddle] at h
        | some r =>
            simp only [hmiddle] at h
            split at h
            · exact ih h
            · split at h
              · exact ih h
              · exact ⟨r, Array.mem_toList_iff.mpr (Array.mem_of_getElem? hmiddle), by omega, by omega⟩

theorem covers_of_contains {s : CodeSet} (h : s.contains n = true) : Covers s.ranges.toList n :=
  covers_of_search h

theorem covers_of_characters {r : Nat × Nat} (h : Covers (characters r) n) : r.1 ≤ n ∧ n ≤ r.2 := by
  obtain ⟨part, hpart, hfirst, hlast⟩ := h
  have hparts : part = (r.1, min r.2 0xD7FF) ∨ part = (max r.1 0xE000, min r.2 lastCode) := by
    simpa using (List.mem_filter.mp hpart).1
  rcases hparts with rfl | rfl <;> simp only at hfirst hlast <;> omega

/-- What a joined range holds is held by one of the two: they meet, so nothing lies between them. -/
theorem covers_of_absorb {current : Nat × Nat} (h : Covers (absorb current ranges) n) :
    Covers (current :: ranges) n := by
  induction ranges generalizing current with
  | nil => exact h
  | cons next rest ih =>
      rw [absorb] at h
      split at h
      · obtain ⟨r, hr, hn⟩ := ih h
        rcases List.mem_cons.mp hr with rfl | hr
        · by_cases hcurrent : n ≤ current.2
          · exact ⟨current, by simp, hn.1, hcurrent⟩
          · exact ⟨next, by simp, by omega, by simp only at hn; omega⟩
        · exact ⟨r, by simp [hr], hn⟩
      · obtain ⟨r, hr, hn⟩ := h
        rcases List.mem_cons.mp hr with rfl | hr
        · exact ⟨r, by simp, hn⟩
        · obtain ⟨r, hr, hn⟩ := ih ⟨r, hr, hn⟩
          exact ⟨r, by simp [List.mem_cons.mp hr], hn⟩

theorem covers_of_joined (h : Covers (joined ranges) n) : Covers ranges n := by
  cases ranges with
  | nil => exact h
  | cons r rest => exact covers_of_absorb h

theorem covers_of_ofRanges (h : Covers (ofRanges ranges).ranges.toList n) : Covers ranges n := by
  obtain ⟨part, hpart, hn⟩ := covers_of_joined h
  obtain ⟨r, hr, hpart⟩ := List.mem_flatMap.mp (List.mem_mergeSort.mp hpart)
  exact ⟨r, hr, covers_of_characters ⟨part, hpart, hn⟩⟩

end CodeSet

/-- The blanks outside ASCII. -/
def wideBlanks : List (Nat × Nat) :=
  [(0x85, 0x85), (0xA0, 0xA0), (0x1680, 0x1680), (0x2000, 0x200A), (0x2028, 0x2029), (0x202F, 0x202F),
    (0x205F, 0x205F), (0x3000, 0x3000)]

/-- No range of the list meets a blank outside ASCII. -/
def HoldsNoBlank (ranges : List (Nat × Nat)) : Prop :=
  ∀ r ∈ ranges, ∀ blanks ∈ wideBlanks, r.2 < blanks.1 ∨ blanks.2 < r.1

instance (ranges : List (Nat × Nat)) : Decidable (HoldsNoBlank ranges) :=
  inferInstanceAs (Decidable (∀ r ∈ ranges, ∀ blanks ∈ wideBlanks, r.2 < blanks.1 ∨ blanks.2 < r.1))

theorem HoldsNoBlank.not_covers {ranges : List (Nat × Nat)} {n : Nat} (h : HoldsNoBlank ranges)
    (hn : Covers wideBlanks n) : ¬ Covers ranges n := by
  rintro ⟨r, hr, hin⟩
  obtain ⟨blanks, hblanks, hn⟩ := hn
  have := h r hr blanks hblanks
  omega

/-- No blank outside ASCII is in the set. -/
def IsBlankFree (s : CodeSet) : Prop := ∀ n, Covers wideBlanks n → ¬ Covers s.ranges.toList n

/-- The lines of a table are checked as lists of characters, which cost no decoding. -/
theorem isBlankFree_ofText {lines : List String} {texts : List (List Char)}
    (htexts : List.Forall₂ (fun line text => line = String.ofList text) lines texts)
    (h : ∀ text ∈ texts, HoldsNoBlank (CodeSet.ofLine text)) : IsBlankFree (.ofText lines) := by
  obtain rfl : lines = texts.map String.ofList := by
    rwa [← List.forall₂_map_right_iff, List.forall₂_eq_eq_eq] at htexts
  intro n hn hcovers
  obtain ⟨r, hr, hin⟩ := CodeSet.covers_of_ofRanges hcovers
  rw [List.flatMap_map] at hr
  obtain ⟨text, htext, hr⟩ := List.mem_flatMap.mp hr
  rw [String.toList_ofList] at hr
  exact (h text htext).not_covers hn ⟨r, hr, hin⟩

theorem isBlankFree_unions {sets : List CodeSet} (h : ∀ s ∈ sets, IsBlankFree s) :
    IsBlankFree (.unions sets) := by
  intro n hn hcovers
  obtain ⟨r, hr, hin⟩ := CodeSet.covers_of_ofRanges hcovers
  obtain ⟨s, hs, hr⟩ := List.mem_flatMap.mp hr
  exact h s hs n hn ⟨r, hr, hin⟩

theorem isBlankFree_letters : IsBlankFree letters := by
  have hcased : IsBlankFree casedLetters := by
    refine isBlankFree_unions (List.forall_mem_cons.mpr ⟨?upper, List.forall_mem_cons.mpr ⟨?lower,
      List.forall_mem_singleton.mpr ?title⟩⟩)
    case upper => exact isBlankFree_ofText (by repeat' constructor) (by decide +kernel)
    case lower => exact isBlankFree_ofText (by repeat' constructor) (by decide +kernel)
    case title => exact isBlankFree_ofText (by repeat' constructor) (by decide +kernel)
  refine isBlankFree_unions (List.forall_mem_cons.mpr ⟨hcased, List.forall_mem_cons.mpr ⟨?modifier,
    List.forall_mem_singleton.mpr ?other⟩⟩)
  case modifier => exact isBlankFree_ofText (by repeat' constructor) (by decide +kernel)
  case other => exact isBlankFree_ofText (by repeat' constructor) (by decide +kernel)

theorem isBlankFree_letterNumbers : IsBlankFree letterNumbers :=
  isBlankFree_ofText (by repeat' constructor) (by decide +kernel)

theorem isBlankFree_letterCodes : IsBlankFree letterCodes := by
  have halphabetic : IsBlankFree alphabetic :=
    isBlankFree_unions (List.forall_mem_cons.mpr ⟨isBlankFree_letters, List.forall_mem_cons.mpr
      ⟨isBlankFree_letterNumbers, List.forall_mem_singleton.mpr
        (isBlankFree_ofText (by repeat' constructor) (by decide +kernel))⟩⟩)
  exact isBlankFree_unions (List.forall_mem_cons.mpr ⟨halphabetic, List.forall_mem_singleton.mpr
    (isBlankFree_ofText (by repeat' constructor) (by decide +kernel))⟩)

theorem isBlankFree_numbers : IsBlankFree numbers := by
  refine isBlankFree_unions (List.forall_mem_cons.mpr ⟨?decimal, List.forall_mem_cons.mpr
    ⟨isBlankFree_letterNumbers, List.forall_mem_singleton.mpr ?other⟩⟩)
  case decimal => exact isBlankFree_ofText (by repeat' constructor) (by decide +kernel)
  case other => exact isBlankFree_ofText (by repeat' constructor) (by decide +kernel)

theorem isBlankFree_alphanumericCodes : IsBlankFree alphanumericCodes :=
  isBlankFree_unions (List.forall_mem_cons.mpr ⟨isBlankFree_letterCodes, List.forall_mem_cons.mpr
    ⟨isBlankFree_numbers, List.forall_mem_singleton.mpr
      (isBlankFree_ofText (by repeat' constructor) (by decide +kernel))⟩⟩)

theorem isAlphanumeric_of_isSpace {c : Char} (h : isSpace c = true) : isAlphanumeric c = false := by
  by_cases hascii : c.toNat < 128
  · simp [isSpace, isAlphanumeric, hascii, isAsciiLetter, isAsciiDigit] at h ⊢
    omega
  · have hcovers : Covers wideBlanks c.toNat := by
      simp [isSpace, Covers, wideBlanks] at h ⊢
      omega
    rw [isAlphanumeric, if_neg hascii, ← Bool.not_eq_true]
    exact fun hin =>
      isBlankFree_alphanumericCodes _ hcovers (CodeSet.covers_of_contains hin)

end WebBundle.Text

namespace WebBundle.Script

theorem isIdentifierChar_of_isSpace {c : Char} (h : Text.isSpace c = true) :
    isIdentifierChar c = false := by
  have hunderscore : c ≠ '_' := by rintro rfl; exact absurd h (by decide)
  have hdollar : c ≠ '$' := by rintro rfl; exact absurd h (by decide)
  simp [isIdentifierChar, Text.isAlphanumeric_of_isSpace h, hunderscore, hdollar]

end WebBundle.Script
