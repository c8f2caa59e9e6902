/-!
Text behind bytes. Valid UTF-8 is read as it stands; in any other byte sequence every maximal part
that begins a character but does not complete it reads as one replacement character.
-/

namespace WebBundle.Text

/-- U+FFFD, which stands for bytes that are no text. -/
def replacement : Char := Char.ofNat 0xFFFD

/-- What the first byte of a character says: the highest bits of its code point, how many bytes continue
it, and the bounds of the first of these. -/
structure Lead where
  bits : Nat
  more : Nat
  low : UInt8 := 0x80
  high : UInt8 := 0xBF
  deriving DecidableEq, Repr

/-- The lead that a byte is. The bounds leave out code points that fewer bytes write, surrogates, and what
lies beyond U+10FFFF. -/
def lead? (byte : UInt8) : Option Lead :=
  let n := byte.toNat
  if n < 0x80 then some { bits := n, more := 0 }
  else if n < 0xC2 then none
  else if n < 0xE0 then some { bits := n % 32, more := 1 }
  else if n = 0xE0 then some { bits := 0, more := 2, low := 0xA0 }
  else if n = 0xED then some { bits := 13, more := 2, high := 0x9F }
  else if n < 0xF0 then some { bits := n % 16, more := 2 }
  else if n = 0xF0 then some { bits := 0, more := 3, low := 0x90 }
  else if n < 0xF4 then some { bits := n % 8, more := 3 }
  else if n = 0xF4 then some { bits := 4, more := 3, high := 0x8F }
  else none

/-- Continues a character as far as the bytes allow: the character, or the replacement character if bytes
are missing, and how many bytes belong to it. -/
def continueChar : (more : Nat) → (low high : UInt8) → (bits taken : Nat) → List UInt8 → Char × Nat
  | 0, _, _, bits, taken, _ => (Char.ofNat bits, taken)
  | _ + 1, _, _, _, taken, [] => (replacement, taken)
  | more + 1, low, high, bits, taken, byte :: rest =>
    if low ≤ byte && byte ≤ high then
      continueChar more 0x80 0xBF (bits * 64 + byte.toNat % 64) (taken + 1) rest
    else (replacement, taken)

/-- The character that a byte begins, and how many of the bytes behind it belong to it. -/
def charAt (byte : UInt8) (rest : List UInt8) : Char × Nat :=
  match lead? byte with
  | none => (replacement, 0)
  | some l => continueChar l.more l.low l.high l.bits 0 rest

/-- Reads bytes as text; the next `covered` bytes belong to the character before them. -/
def decodeFrom : (covered : Nat) → List UInt8 → List Char
  | _, [] => []
  | covered + 1, _ :: rest => decodeFrom covered rest
  | 0, byte :: rest =>
    let (c, covered) := charAt byte rest
    c :: decodeFrom covered rest

/-- The text of a byte sequence, if it is valid UTF-8. -/
def text? (bytes : ByteArray) : Option String := String.fromUTF8? bytes

/-- The text of any byte sequence. -/
def lossyText (bytes : ByteArray) : String :=
  match text? bytes with
  | some text => text
  | none => String.ofList (decodeFrom 0 bytes.data.toList)

theorem lossyText_of_text? {bytes : ByteArray} {text : String} (h : text? bytes = some text) :
    lossyText bytes = text := by
  simp [lossyText, h]

end WebBundle.Text
