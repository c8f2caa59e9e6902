namespace WebBundle.Text

/-- A set of characters by their code points: inclusive ranges in ascending order that neither overlap nor
touch. Surrogates, which are no characters, lie in no range. -/
structure CodeSet where
  ranges : Array (Nat × Nat)
  deriving DecidableEq, Repr

namespace CodeSet

/-- The last code point of all. -/
def lastCode : Nat := 0x10FFFF

/-- Whether `n` lies in one of the ranges at the positions `low`, …, `low + count - 1` of an
ascending table. Each step halves the positions that are left. -/
def search (table : Array (Nat × Nat)) (n : Nat) : (fuel low count : Nat) → Bool
  | 0, _, _ => false
  | fuel + 1, low, count =>
    if count = 0 then false
    else
      let middle := low + count / 2
      match table[middle]? with
      | none => false
      | some (first, last) =>
        if n < first then search table n fuel low (count / 2)
        else if last < n then search table n fuel (middle + 1) (count - count / 2 - 1)
        else true

/-- Whether the set holds the character with a code point. -/
def contains (s : CodeSet) (n : Nat) : Bool := search s.ranges n (s.ranges.size + 1) 0 s.ranges.size

/-- The parts of a range that are characters. -/
def characters (r : Nat × Nat) : List (Nat × Nat) :=
  [(r.1, min r.2 0xD7FF), (max r.1 0xE000, min r.2 lastCode)].filter fun part => part.1 ≤ part.2

/-- Joins a range with the ranges behind it that it meets, in a list ordered by first code points. -/
def absorb (current : Nat × Nat) : List (Nat × Nat) → List (Nat × Nat)
  | [] => [current]
  | next :: rest =>
    if next.1 ≤ current.2 + 1 then absorb (current.1, max current.2 next.2) rest
    else current :: absorb next rest

/-- Joins the ranges that meet in a list ordered by first code points. -/
def joined : List (Nat × Nat) → List (Nat × Nat)
  | [] => []
  | r :: rest => absorb r rest

/-- The characters of several ranges, which may overlap and stand in any order. -/
def ofRanges (ranges : List (Nat × Nat)) : CodeSet :=
  ⟨(joined ((ranges.flatMap characters).mergeSort fun r s => r.1 ≤ s.1)).toArray⟩

def empty : CodeSet := ⟨#[]⟩

/-- The characters from one code point to another. -/
def range (first last : Nat) : CodeSet := ofRanges [(first, last)]

def single (c : Char) : CodeSet := ⟨#[(c.toNat, c.toNat)]⟩

/-- All characters. -/
def all : CodeSet := range 0 lastCode

/-- The union of several sets. -/
def unions (sets : List CodeSet) : CodeSet := ofRanges (sets.flatMap fun s => s.ranges.toList)

def union (s t : CodeSet) : CodeSet := unions [s, t]

/-- What lies between the ranges of a list, from a code point on. -/
def gaps : (start : Nat) → List (Nat × Nat) → List (Nat × Nat)
  | start, [] => [(start, lastCode)]
  | start, r :: rest =>
    if r.1 ≤ start then gaps (r.2 + 1) rest else (start, r.1 - 1) :: gaps (r.2 + 1) rest

/-- The characters that are not in the set. -/
def complement (s : CodeSet) : CodeSet := ofRanges (gaps 0 s.ranges.toList)

def inter (s t : CodeSet) : CodeSet := (union s.complement t.complement).complement

def difference (s t : CodeSet) : CodeSet := (union s.complement t).complement

/-- The characters of one of two sets that are not in the other. -/
def symmetricDifference (s t : CodeSet) : CodeSet := union (s.difference t) (t.difference s)

/-- The only character of a set with one character. -/
def single? (s : CodeSet) : Option Char :=
  match s.ranges.toList with
  | [(first, last)] => if first = last then some (Char.ofNat first) else none
  | _ => none

/-- Whether all characters of the set have one byte. -/
def isAscii (s : CodeSet) : Bool := s.ranges.all fun r => r.2 < 128

/-- The number that hexadecimal digits write. -/
def codeOf (digits : List Char) : Nat :=
  digits.foldl (fun n c => 16 * n + (if c.isDigit then c.toNat - 48 else c.toNat - 55)) 0

/-- The ranges of an item of a table: a code point; a range from one to another; or every so many code
points of a range. -/
def ofItem (item : List Char) : List (Nat × Nat) :=
  match item.splitOn '-' with
  | [first, last] =>
    match last.splitOn '/' with
    | [last, step] =>
      let first := codeOf first
      let step := codeOf step
      (List.range ((codeOf last - first) / step + 1)).map fun k => (first + k * step, first + k * step)
    | _ => [(codeOf first, codeOf last)]
  | _ => [(codeOf item, codeOf item)]

/-- The ranges of a line of a table. -/
def ofLine (line : List Char) : List (Nat × Nat) := (line.splitOn ' ').flatMap ofItem

/-- The characters of a table. A line holds items between blanks, all in hexadecimal digits: `41` is a code
point, `41-5A` a range, and `100-104/2` stands for `100`, `102` and `104`. -/
def ofText (lines : List String) : CodeSet := ofRanges (lines.flatMap fun line => ofLine line.toList)

end CodeSet

end WebBundle.Text
