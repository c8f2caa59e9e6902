import WebBundle.Text.Boundary
import WebBundle.Text.Edition
import WebBundle.Text.Identifier

namespace WebBundle.Pattern

open WebBundle.Text

/-- The classes of ASCII characters that stand between `[:` and `:]`. -/
def asciiClass? : String → Option CodeSet
  | "alnum" => some (.ofText ["30-39 41-5A 61-7A"])
  | "alpha" => some (.ofText ["41-5A 61-7A"])
  | "ascii" => some (.range 0 127)
  | "blank" => some (.ofText ["9 20"])
  | "cntrl" => some (.ofText ["0-1F 7F"])
  | "digit" => some (.ofText ["30-39"])
  | "graph" => some (.ofText ["21-7E"])
  | "lower" => some (.ofText ["61-7A"])
  | "print" => some (.ofText ["20-7E"])
  | "punct" => some (.ofText ["21-2F 3A-40 5B-60 7B-7E"])
  | "space" => some (.ofText ["9-D 20"])
  | "upper" => some (.ofText ["41-5A"])
  | "word" => some (.ofText ["30-39 41-5A 5F 61-7A"])
  | "xdigit" => some (.ofText ["30-39 41-46 61-66"])
  | _ => none

namespace Property

/-- General categories and groups of them. Surrogates are no characters, so their category has no class. -/
def category? : String → Option CodeSet
  | "any" => some .all
  | "ascii" => some (.range 0 127)
  | "assigned" => some assigned
  | "c" | "other" => some otherCharacters
  | "cc" | "cntrl" | "control" => some controls
  | "cf" | "format" => some formatCharacters
  | "cn" | "unassigned" => some unassigned
  | "co" | "privateuse" => some privateUse
  | "l" | "letter" => some letters
  | "lc" | "casedletter" => some casedLetters
  | "ll" | "lowercaseletter" => some lowercaseLetters
  | "lm" | "modifierletter" => some modifierLetters
  | "lo" | "otherletter" => some otherLetters
  | "lt" | "titlecaseletter" => some titlecaseLetters
  | "lu" | "uppercaseletter" => some uppercaseLetters
  | "m" | "combiningmark" | "mark" => some marks
  | "mc" | "spacingmark" => some spacingMarks
  | "me" | "enclosingmark" => some enclosingMarks
  | "mn" | "nonspacingmark" => some nonspacingMarks
  | "n" | "number" => some numbers
  | "nd" | "decimalnumber" | "digit" => some decimalNumbers
  | "nl" | "letternumber" => some letterNumbers
  | "no" | "othernumber" => some otherNumbers
  | "p" | "punct" | "punctuation" => some punctuation
  | "pc" | "connectorpunctuation" => some connectorPunctuation
  | "pd" | "dashpunctuation" => some dashPunctuation
  | "pe" | "closepunctuation" => some closePunctuation
  | "pf" | "finalpunctuation" => some finalPunctuation
  | "pi" | "initialpunctuation" => some initialPunctuation
  | "po" | "otherpunctuation" => some otherPunctuation
  | "ps" | "openpunctuation" => some openPunctuation
  | "s" | "symbol" => some symbols
  | "sc" | "currencysymbol" => some currencySymbols
  | "sk" | "modifiersymbol" => some modifierSymbols
  | "sm" | "mathsymbol" => some mathSymbols
  | "so" | "othersymbol" => some otherSymbols
  | "z" | "separator" => some separators
  | "zl" | "lineseparator" => some lineSeparators
  | "zp" | "paragraphseparator" => some paragraphSeparators
  | "zs" | "spaceseparator" => some spaceSeparators
  | _ => none

/-- Properties that hold or do not hold of a character. -/
def binary? : String → Option CodeSet
  | "ahex" | "asciihexdigit" => some asciiHexDigits
  | "alpha" | "alphabetic" => some alphabetic
  | "bidic" | "bidicontrol" => some bidiControls
  | "bidim" | "bidimirrored" => some mirrored
  | "cased" => some cased
  | "changeswhencasefolded" | "cwcf" => some changesWhenCasefolded
  | "changeswhencasemapped" | "cwcm" => some changesWhenCasemapped
  | "changeswhenlowercased" | "cwl" => some changesWhenLowercased
  | "changeswhentitlecased" | "cwt" => some changesWhenTitlecased
  | "changeswhenuppercased" | "cwu" => some changesWhenUppercased
  | "ci" | "caseignorable" => some caseIgnorable
  | "dash" => some dashes
  | "dep" | "deprecated" => some deprecated
  | "di" | "defaultignorablecodepoint" => some ignorable
  | "dia" | "diacritic" => some diacritics
  | "ebase" | "emojimodifierbase" => some emojiModifierBases
  | "ecomp" | "emojicomponent" => some emojiComponents
  | "emod" | "emojimodifier" => some emojiModifiers
  | "emoji" => some emoji
  | "epres" | "emojipresentation" => some emojiByDefault
  | "ext" | "extender" => some extenders
  | "extpict" | "extendedpictographic" => some pictographs
  | "grbase" | "graphemebase" => some bases
  | "grext" | "graphemeextend" => some extending
  | "grlink" | "graphemelink" => some linking
  | "hex" | "hexdigit" => some hexDigits
  | "hyphen" => some hyphens
  | "idc" | "idcontinue" => some identifierPart
  | "idcompatmathcontinue" => some mathIdentifierPart
  | "idcompatmathstart" => some mathIdentifierStart
  | "ideo" | "ideographic" => some ideographic
  | "ids" | "idstart" => some identifierStart
  | "idsb" | "idsbinaryoperator" => some binaryDescriptions
  | "idst" | "idstrinaryoperator" => some trinaryDescriptions
  | "idsu" | "idsunaryoperator" => some unaryDescriptions
  | "joinc" | "joincontrol" => some joinControls
  | "loe" | "logicalorderexception" => some writtenBefore
  | "lower" | "lowercase" => some lowercase
  | "math" => some math
  | "mcm" | "modifiercombiningmark" => some modifierMarks
  | "nchar" | "noncharactercodepoint" => some noncharacters
  | "oalpha" | "otheralphabetic" => some otherAlphabetic
  | "odi" | "otherdefaultignorablecodepoint" => some otherIgnorable
  | "ogrext" | "othergraphemeextend" => some otherExtending
  | "oidc" | "otheridcontinue" => some otherIdentifierPart
  | "oids" | "otheridstart" => some otherIdentifierStart
  | "olower" | "otherlowercase" => some otherLowercase
  | "omath" | "othermath" => some otherMath
  | "oupper" | "otheruppercase" => some otherUppercase
  | "patsyn" | "patternsyntax" => some patternSigns
  | "patws" | "patternwhitespace" => some patternBlanks
  | "pcm" | "prependedconcatenationmark" => some prependedMarks
  | "qmark" | "quotationmark" => some quotationMarks
  | "radical" => some radicals
  | "ri" | "regionalindicator" => some regionalIndicators
  | "sd" | "softdotted" => some softDotted
  | "space" | "whitespace" | "wspace" => some whiteSpace
  | "sterm" | "sentenceterminal" => some sentenceTerminals
  | "term" | "terminalpunctuation" => some terminalPunctuation
  | "uideo" | "unifiedideograph" => some unifiedIdeographs
  | "upper" | "uppercase" => some uppercase
  | "vs" | "variationselector" => some variationSelectors
  | "xidc" | "xidcontinue" => some stableIdentifierPart
  | "xids" | "xidstart" => some stableIdentifierStart
  | _ => none

/-- The parts of characters in graphemes. -/
def graphemePart? : String → Option CodeSet
  | "cn" | "control" => some graphemeControls
  | "cr" => some carriageReturn
  | "ex" | "extend" => some graphemeExtending
  | "l" => some hangulLeading
  | "lf" => some lineFeed
  | "lv" => some hangulOpen
  | "lvt" => some hangulClosed
  | "pp" | "prepend" => some prepended
  | "ri" | "regionalindicator" => some regionalIndicators
  | "sm" | "spacingmark" => some graphemeSpacing
  | "t" => some hangulTrailing
  | "v" => some hangulVowels
  | "zwj" => some joiner
  | _ => none

/-- The parts of characters in words. -/
def wordPart? : String → Option CodeSet
  | "aletter" | "le" => some wordLetters
  | "cr" => some carriageReturn
  | "doublequote" | "dq" => some doubleQuote
  | "ex" | "extendnumlet" => some wordConnecting
  | "extend" => some wordExtending
  | "fo" | "format" => some wordFormat
  | "hebrewletter" | "hl" => some hebrewLetters
  | "ka" | "katakana" => some wordKatakana
  | "lf" => some lineFeed
  | "mb" | "midnumlet" => some middleOfBoth
  | "midletter" | "ml" => some middleOfLetters
  | "midnum" | "mn" => some middleOfNumbers
  | "newline" | "nl" => some wordNewlines
  | "nu" | "numeric" => some wordNumeric
  | "regionalindicator" | "ri" => some regionalIndicators
  | "singlequote" | "sq" => some singleQuote
  | "wsegspace" => some wordSpaces
  | "zwj" => some joiner
  | _ => none

/-- The parts of characters in sentences. -/
def sentencePart? : String → Option CodeSet
  | "at" | "aterm" => some fullStops
  | "cl" | "close" => some sentenceBrackets
  | "cr" => some carriageReturn
  | "ex" | "extend" => some sentenceExtending
  | "fo" | "format" => some sentenceFormat
  | "le" | "oletter" => some sentenceLetters
  | "lf" => some lineFeed
  | "lo" | "lower" => some sentenceLower
  | "nu" | "numeric" => some sentenceNumeric
  | "sc" | "scontinue" => some sentenceContinuing
  | "se" | "sep" => some sentenceSeparators
  | "sp" => some sentenceSpaces
  | "st" | "sterm" => some sentenceEnds
  | "up" | "upper" => some sentenceUpper
  | _ => none

/-- Drops what does not distinguish names: case, blanks, hyphens, low lines, and what is not ASCII. -/
def withoutMarks (name : List Char) : List Char :=
  name.filterMap fun c =>
    if c = '_' ∨ c = '-' ∨ c = ' ' ∨ 128 ≤ c.toNat then none else some c.toLower

/-- A name as the tables write it. An `is` in front is dropped too, except in `isc`, the name of a property
of its own. -/
def plainName (name : List Char) : String :=
  match name with
  | i :: s :: rest =>
    if i.toLower = 'i' ∧ s.toLower = 's' then
      let plain := withoutMarks rest
      if plain = ['c'] then "isc" else String.ofList plain
    else String.ofList (withoutMarks name)
  | _ => String.ofList (withoutMarks name)

/-- The class of a property with a single name: a binary property, a general category or a script. -/
def named? (name : List Char) : Option CodeSet :=
  let name := plainName name
  (binary? name).or ((category? name).or ((WritingSystem.find? name).map (·.characters)))

/-- The class of a value of a property. -/
def valued? (property value : List Char) : Option CodeSet :=
  let value := plainName value
  match plainName property with
  | "gc" | "generalcategory" => category? value
  | "sc" | "script" => (WritingSystem.find? value).map (·.characters)
  | "scx" | "scriptextensions" => (WritingSystem.find? value).map (·.usedCharacters)
  | "age" => charactersUpTo? value
  | "gcb" | "graphemeclusterbreak" => graphemePart? value
  | "wb" | "wordbreak" => wordPart? value
  | "sb" | "sentencebreak" => sentencePart? value
  | _ => none

end Property

end WebBundle.Pattern
