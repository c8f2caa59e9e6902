import WebBundle.Text.Alphabetic

namespace WebBundle.Text

/-- The property Pattern_Syntax: signs that grammars may give a meaning. -/
def patternSigns : CodeSet := .ofText [
  "21-2F 3A-40 5B-5E 60 7B-7E A1-A7 A9 AB-AC AE B0-B1 B6 BB BF D7 F7 2010-2027 2030-203E",
  "2041-2053 2055-205E 2190-245F 2500-2775 2794-2BFF 2E00-2E7F 3001-3003 3008-3020 3030 FD3E-FD3F",
  "FE45-FE46"]

/-- The property Pattern_White_Space. -/
def patternBlanks : CodeSet := .ofText ["9-D 20 85 200E-200F 2028-2029"]

/-- Further characters that begin an identifier. -/
def otherIdentifierStart : CodeSet := .ofText ["1885-1886 2118 212E 309B-309C"]

/-- Further characters that continue an identifier. -/
def otherIdentifierPart : CodeSet := .ofText ["B7 387 1369-1371 19DA 200C-200D 30FB FF65"]

/-- The property ID_Start. -/
def identifierStart : CodeSet :=
  (CodeSet.unions [letters, letterNumbers, otherIdentifierStart]).difference
    (.union patternSigns patternBlanks)

/-- The property ID_Continue. -/
def identifierPart : CodeSet :=
  (CodeSet.unions [identifierStart, nonspacingMarks, spacingMarks, decimalNumbers,
    connectorPunctuation, otherIdentifierPart]).difference (.union patternSigns patternBlanks)

/-- Characters of identifiers that a change to a compatible form turns into others. -/
def unstableParts : CodeSet := .ofText ["37A 309B-309C FC5E-FC63 FDFA-FDFB FE70-FE7E/2"]

/-- Characters that may no longer begin an identifier after such a change. -/
def unstableStarts : CodeSet := .ofText ["E33 EB3 FF9E-FF9F"]

/-- The property XID_Start. -/
def stableIdentifierStart : CodeSet :=
  identifierStart.difference (.union unstableParts unstableStarts)

/-- The property XID_Continue. -/
def stableIdentifierPart : CodeSet := identifierPart.difference unstableParts

/-- The property ID_Compat_Math_Start. -/
def mathIdentifierStart : CodeSet :=
  .ofText ["2202 2207 221E 1D6C1 1D6DB 1D6FB 1D715 1D735 1D74F 1D76F 1D789 1D7A9 1D7C3"]

/-- The property ID_Compat_Math_Continue. -/
def mathIdentifierPart : CodeSet := .ofText [
  "B2-B3 B9 2070 2074-207E 2080-208E 2202 2207 221E 1D6C1 1D6DB 1D6FB 1D715 1D735 1D74F 1D76F",
  "1D789 1D7A9 1D7C3"]

end WebBundle.Text
