import WebBundle.Text.Addition
import WebBundle.Text.Alphabetic
import WebBundle.Text.Grapheme

/-!
The character classes on which scanning and matching depend. ASCII characters are decided without a
table, all others by the Unicode properties that the class stands for.
-/

namespace WebBundle.Text

/-- The Unicode property White_Space. -/
def isSpace (c : Char) : Bool :=
  let n := c.toNat
  (9 ≤ n && n ≤ 13) || n == 0x20 || n == 0x85 || n == 0xA0 || n == 0x1680 ||
    (0x2000 ≤ n && n ≤ 0x200A) || n == 0x2028 || n == 0x2029 || n == 0x202F || n == 0x205F ||
    n == 0x3000

def isAsciiLetter (c : Char) : Bool :=
  let n := c.toNat
  (65 ≤ n && n ≤ 90) || (97 ≤ n && n ≤ 122)

def isAsciiDigit (c : Char) : Bool :=
  let n := c.toNat
  48 ≤ n && n ≤ 57

/-- Letters of every script and edition. -/
def letterCodes : CodeSet := .union alphabetic addedAlphabetic

def isAlphabetic (c : Char) : Bool :=
  if c.toNat < 128 then isAsciiLetter c else letterCodes.contains c.toNat

/-- Letters and numbers of every script and edition. -/
def alphanumericCodes : CodeSet := .unions [letterCodes, numbers, addedNumbers]

def isAlphanumeric (c : Char) : Bool :=
  if c.toNat < 128 then isAsciiLetter c || isAsciiDigit c else alphanumericCodes.contains c.toNat

/-- Digits of the positional notations of every script. -/
def isDigit (c : Char) : Bool :=
  if c.toNat < 128 then isAsciiDigit c else decimalNumbers.contains c.toNat

/-- The characters of a word: letters, marks, digits, connector punctuation and join controls. -/
def wordCodes : CodeSet :=
  .unions [alphabetic, marks, decimalNumbers, connectorPunctuation, joinControls]

def isWord (c : Char) : Bool :=
  if c.toNat < 128 then isAsciiLetter c || isAsciiDigit c || c == '_'
  else wordCodes.contains c.toNat

end WebBundle.Text
