import WebBundle.Text.Alphabetic
import WebBundle.Text.Grapheme
import WebBundle.Text.LetterCase
import WebBundle.Text.Sign
import WebBundle.Text.WritingSystem

namespace WebBundle.Text

def carriageReturn : CodeSet := .single '\r'

def lineFeed : CodeSet := .single '\n'

def joiner : CodeSet := .single (Char.ofNat 0x200D)

/-- Format characters that neither join nor extend others. -/
def plainFormat : CodeSet := formatCharacters.difference (.union joinControls extending)

def graphemeExtending : CodeSet := (CodeSet.union extending emojiModifiers).difference joiner

/-- Letters and signs that join the grapheme behind them. -/
def otherPrepended : CodeSet :=
  .ofText ["D4E 111C2-111C3 113D1 1193F 11941 11A3A 11A84-11A89 11D46 11F02"]

def prepended : CodeSet := .union prependedMarks otherPrepended

/-- Controls and what is passed over: a grapheme ends before and behind them. -/
def graphemeControls : CodeSet :=
  (CodeSet.unions [lineSeparators, paragraphSeparators, controls, formatCharacters,
    unassigned.inter ignorable]).difference
    (.unions [carriageReturn, lineFeed, joinControls, prependedMarks, extending])

/-- Letters that follow their consonant as a spacing mark does. -/
def letterVowels : CodeSet := .ofText ["E33 EB3"]

/-- Spacing marks that are graphemes of their own. -/
def looseMarks : CodeSet := .ofText [
  "102B-102C 1038 1062-1064 1067-106D 1083 1087-108C 108F 109A-109C 1A61 1A63-1A64 AA7B AA7D",
  "11720-11721"]

def graphemeSpacing : CodeSet :=
  .union (spacingMarks.difference (.union graphemeExtending looseMarks)) letterVowels

/-- Consonants at the start of a Hangul syllable. -/
def hangulLeading : CodeSet := .ofText ["1100-115F A960-A97C"]

/-- Vowels of a Hangul syllable. -/
def hangulVowels : CodeSet := .ofText ["1160-11A7 D7B0-D7C6 16D63 16D67-16D6A"]

/-- Consonants at the end of a Hangul syllable. -/
def hangulTrailing : CodeSet := .ofText ["11A8-11FF D7CB-D7FB"]

/-- Hangul syllables without a consonant at the end. -/
def hangulOpen : CodeSet := .ofText ["AC00-D788/1C"]

/-- Hangul syllables with a consonant at the end. -/
def hangulClosed : CodeSet := (CodeSet.range 0xAC00 0xD7A3).difference hangulOpen

def wordExtending : CodeSet :=
  (CodeSet.unions [extending, spacingMarks, emojiModifiers]).difference joiner

/-- Format characters around the digits of a number. -/
def numberSigns : CodeSet := .ofText ["600-605 6DD 890-891 8E2 110BD 110CD"]

/-- A format character that marks an abbreviation. -/
def abbreviationSign : CodeSet := .ofText ["70F"]

/-- A blank without width, at which a line may be broken. -/
def zeroWidthSpace : CodeSet := .ofText ["200B"]

def wordFormat : CodeSet :=
  plainFormat.difference (.unions [numberSigns, abbreviationSign, zeroWidthSpace])

/-- Line ends beside the carriage return and the line feed. -/
def wordNewlines : CodeSet := .ofText ["B-C 85 2028-2029"]

/-- Blanks that stay together in a row. -/
def wordSpaces : CodeSet := .ofText ["20 1680 2000-2006 2008-200A 205F 3000"]

/-- Signs that Katakana words use. -/
def otherKatakana : CodeSet := .ofText ["3031-3035 309B-309C 30A0 30FC FF70"]

def wordKatakana : CodeSet := .union (WritingSystem.charactersOf ["katakana"]) otherKatakana

def hebrewLetters : CodeSet := (WritingSystem.charactersOf ["hebrew"]).inter otherLetters

/-- Characters beside the decimal digits and the signs around them that belong to a number. -/
def otherDigits : CodeSet := .ofText ["66B 19DA"]

def wordNumeric : CodeSet := .unions [decimalNumbers, numberSigns, otherDigits]

/-- Characters that join letters, digits and each other. -/
def wordConnecting : CodeSet := .union connectorPunctuation (.single (Char.ofNat 0x202F))

/-- Signs that count as letters of a word. -/
def otherWordLetters : CodeSet := .ofText [
  "2C2-2C5 2D2-2D7 2DE-2DF 2E5-2EB 2ED 2EF-2FF 55A-55C 55E 58A 5F3 A708-A716 A720-A721 A789-A78A",
  "AB5B"]

/-- Letters of scripts that do not divide words by blanks. -/
def unspacedLetters : CodeSet := .ofText [
  "E01-E30 E32-E33 E40-E46 E81-E82 E84 E86-E8A E8C-EA3 EA5 EA7-EB0 EB2-EB3 EBD EC0-EC4 EC6",
  "EDC-EDF 1000-102A 103F 1050-1055 105A-105D 1061 1065-1066 106E-1070 1075-1081 108E 1780-17B3",
  "17D7 17DC 1950-196D 1970-1974 1980-19AB 19B0-19C9 1A20-1A54 1AA7 A9E0-A9E4 A9E6-A9EF A9FA-A9FE",
  "AA60-AA76 AA7A AA7E-AAAF AAB1 AAB5-AAB6 AAB9-AABD AAC0 AAC2 AADB-AADD 11700-1171A 11740-11746"]

def wordLetters : CodeSet :=
  .unions [alphabetic.difference
      (.unions [ideographic, wordKatakana, hebrewLetters, WritingSystem.charactersOf ["hiragana"],
        wordExtending, unspacedLetters]),
    otherWordLetters, abbreviationSign]

def sentenceExtending : CodeSet := .unions [extending, spacingMarks, joiner]

def sentenceFormat : CodeSet := plainFormat.difference numberSigns

/-- The ends of lines and paragraphs beside the carriage return and the line feed. -/
def sentenceSeparators : CodeSet := .ofText ["85 2028-2029"]

def sentenceSpaces : CodeSet :=
  whiteSpace.difference (.unions [sentenceSeparators, carriageReturn, lineFeed])

/-- Georgian letters, of which a sentence is written in one case throughout. -/
def georgianLetters : CodeSet := .ofText ["10D0-10FA 10FD-10FF 1C90-1CBA 1CBD-1CBF"]

def sentenceLower : CodeSet := lowercase.difference (.union extending georgianLetters)

def sentenceUpper : CodeSet := (CodeSet.union uppercase titlecaseLetters).difference georgianLetters

/-- A Hebrew sign that counts as a letter of a sentence. -/
def otherSentenceLetters : CodeSet := .ofText ["5F3"]

def sentenceLetters : CodeSet :=
  .union (alphabetic.difference (.unions [sentenceLower, sentenceUpper, sentenceExtending]))
    otherSentenceLetters

/-- A thousands separator belongs to the number. -/
def sentenceNumeric : CodeSet := .union wordNumeric (.single (Char.ofNat 0x66C))

/-- Full stops, which may also stand within a sentence. -/
def fullStops : CodeSet := .ofText ["2E 2024 FE52 FF0E"]

def sentenceEnds : CodeSet := sentenceTerminals.difference fullStops

/-- Marks behind which a sentence goes on. -/
def sentenceContinuing : CodeSet := .ofText [
  "2C-2D 3A-3B 37E 55D 60C-60D 7F8 1802 1808 2013-2014 3001 FE10-FE11 FE13-FE14 FE31-FE32",
  "FE50-FE51 FE54-FE55 FE58 FE63 FF0C-FF0D FF1A-FF1B FF64"]

/-- Ornaments and editorial marks that open or close a part of a sentence. -/
def quotationOrnaments : CodeSet := .ofText ["275B-2760 2E00-2E01 2E06-2E08 2E0B 1F676-1F678"]

/-- Wide forms of the two plain quotation marks. -/
def wideQuotes : CodeSet := .ofText ["FF02 FF07"]

def sentenceBrackets : CodeSet :=
  (CodeSet.unions [openPunctuation, closePunctuation, initialPunctuation, finalPunctuation,
    quotationMarks, quotationOrnaments]).difference wideQuotes

end WebBundle.Text
