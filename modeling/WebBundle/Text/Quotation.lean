import WebBundle.Text.Addition
import WebBundle.Text.Grapheme

namespace WebBundle.Text

/-- Characters beyond ASCII without a form of their own: those that join the one before them, blanks,
controls, format characters, private use, what is passed over, and unassigned code points. -/
def unseenCodes : CodeSet :=
  .unions [extending, addedExtending, ignorable, separators,
    otherCharacters.difference addedCharacters]

/-- Whether a character is written by its number. -/
def isUnseen (c : Char) : Bool :=
  if c.toNat < 128 then c.toNat < 32 || c.toNat == 127 else unseenCodes.contains c.toNat

/-- A number in lower-case hexadecimal digits, without zeros in front. -/
def hexNumber (n : Nat) : List Char := Nat.toDigits 16 n

/-- A character as it stands between quotes. -/
def quotedChar (c : Char) : List Char :=
  if c = '\x00' then ['\\', '0']
  else if c = '\t' then ['\\', 't']
  else if c = '\r' then ['\\', 'r']
  else if c = '\n' then ['\\', 'n']
  else if c = '"' ∨ c = '\\' then ['\\', c]
  else if isUnseen c then ['\\', 'u', '{'] ++ hexNumber c.toNat ++ ['}']
  else [c]

/-- A text between double quotes. -/
def quoted (text : String) : String :=
  String.ofList (['"'] ++ text.toList.flatMap quotedChar ++ ['"'])

end WebBundle.Text
