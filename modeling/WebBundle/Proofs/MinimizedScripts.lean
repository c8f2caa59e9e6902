import Mathlib.Data.List.Infix
import WebBundle.Output.Emission

namespace WebBundle.Proofs.MinimizedScripts

open Output
open WebBundle.Text (isSpace)

variable {text front rear : List Char} {c : Char}

/-- What has been read of the current line: blanks, which wait, or something visible. -/
abbrev Reading := Option (List Char)

/-- What minimizing makes of a text, given what has been read of its first line. The ending says
what becomes of the last line. -/
def minimized (ending : Reading → List Char) : Reading → List Char → List Char
  | line, [] => ending line
  | none, c :: rest =>
    if c = '\n' then c :: minimized ending (some []) rest
    else if c = '\r' ∧ rest.head? = some '\n' then minimized ending none rest
    else c :: minimized ending none rest
  | some blanks, c :: rest =>
    if c = '\n' then minimized ending (some []) rest
    else if c = '\r' ∧ rest.head? = some '\n' then minimized ending (some blanks) rest
    else if isSpace c then minimized ending (some (blanks ++ [c])) rest
    else blanks ++ c :: minimized ending none rest

/-- The last line of a text gets a line break, unless it is blank. -/
def atEnd : Reading → List Char
  | none => ['\n']
  | some _ => []

/-- Before a visible character the blanks of a line stay. -/
def atVisible (line : Reading) : List Char := line.getD []

/-- What minimizing makes of the text before a visible character. -/
def before (text : List Char) : List Char := minimized atVisible (some []) text

/-- What minimizing makes of the text between two visible characters. -/
def between (text : List Char) : List Char := minimized atVisible none text

/-- What minimizing makes of the text behind a visible character. -/
def behind (text : List Char) : List Char := minimized atEnd none text

theorem minimized_visible (hc : isSpace c = false) (ending : Reading → List Char) (line : Reading)
    (front rear : List Char) : minimized ending line (front ++ c :: rear) =
      minimized atVisible line front ++ c :: minimized ending none rear := by
  have hbreak : c ≠ '\n' := by rintro rfl; exact absurd hc (by decide)
  have hreturn : c ≠ '\r' := by rintro rfl; exact absurd hc (by decide)
  induction front generalizing line with
  | nil => cases line <;> simp [minimized, atVisible, hbreak, hreturn, hc]
  | cons d front ih =>
      have hhead : (front ++ c :: rear).head? = some '\n' ↔ front.head? = some '\n' := by
        cases front <;> simp [hbreak]
      cases line <;> simp only [List.cons_append, minimized, hhead, ih] <;> split_ifs <;> simp

/-- A line as minimizing leaves it. -/
def lineText (line : List Char) : List Char := if line.all isSpace then [] else line ++ ['\n']

theorem withoutBlankLines_eq (text : String) : withoutBlankLines text =
    String.ofList ((lines text.toList).flatMap lineText) := rfl

theorem lineText_of_visible {blanks : List Char} (hc : isSpace c = false) (rest : List Char) :
    lineText (blanks ++ c :: rest) = blanks ++ c :: (rest ++ ['\n']) := by
  simp [lineText, hc]

/-- The lines of a text, the first one behind what has been read of it. -/
def linesFrom (line : Reading) (text : List Char) : List Char :=
  match line, lines text with
  | none, [] => ['\n']
  | none, first :: rest => first ++ '\n' :: rest.flatMap lineText
  | some blanks, [] => lineText blanks
  | some blanks, first :: rest => lineText (blanks ++ first) ++ rest.flatMap lineText

theorem lineText_of_blank {blanks : List Char} (h : ∀ c ∈ blanks, isSpace c = true) :
    lineText blanks = [] := by
  simpa [lineText] using h

theorem minimized_atEnd {line : Reading} (hline : ∀ c ∈ line.getD [], isSpace c = true)
    (text : List Char) : minimized atEnd line text = linesFrom line text := by
  induction text generalizing line with
  | nil =>
      cases line with
      | none => rfl
      | some blanks => exact (lineText_of_blank hline).symm
  | cons c rest ih =>
      have hfresh : minimized atEnd (some []) rest = (lines rest).flatMap lineText := by
        rw [ih (by simp)]
        cases hrest : lines rest <;> simp [linesFrom, hrest, lineText]
      have hvisible : minimized atEnd none rest = linesFrom none rest := ih (by simp)
      by_cases hbreak : c = '\n'
      · have hlines : lines (c :: rest) = [] :: lines rest := by rw [lines, if_pos hbreak]
        subst hbreak
        cases line with
        | none => simp [minimized, linesFrom, hlines, hfresh]
        | some blanks =>
            have hblank : lineText blanks = [] := lineText_of_blank hline
            simp [minimized, linesFrom, hlines, hfresh, hblank]
      · by_cases hreturn : c = '\r' ∧ rest.head? = some '\n'
        · have hlines : lines (c :: rest) = lines rest := by
            rw [lines, if_neg hbreak, if_pos hreturn]
          have hskip : minimized atEnd line (c :: rest) = minimized atEnd line rest := by
            cases line <;> rw [minimized, if_neg hbreak, if_pos hreturn]
          rw [hskip, ih hline]
          simp only [linesFrom, hlines]
        · cases line with
          | none =>
              rw [minimized, if_neg hbreak, if_neg hreturn, hvisible]
              cases hrest : lines rest <;> simp [linesFrom, lines, hbreak, hreturn, hrest]
          | some blanks =>
              rw [minimized, if_neg hbreak, if_neg hreturn]
              by_cases hspace : isSpace c = true
              · have hlonger : ∀ d ∈ (some (blanks ++ [c])).getD [], isSpace d = true := by
                  simpa [or_imp, forall_and, hspace] using hline
                rw [if_pos hspace, ih hlonger]
                cases hrest : lines rest <;> simp [linesFrom, lines, hbreak, hreturn, hrest]
              · rw [if_neg hspace, hvisible]
                rw [Bool.not_eq_true] at hspace
                cases hrest : lines rest <;>
                  simp [linesFrom, lines, hbreak, hreturn, hrest, lineText_of_visible hspace]

theorem toList_withoutBlankLines (text : String) :
    (withoutBlankLines text).toList = minimized atEnd (some []) text.toList := by
  rw [minimized_atEnd (by simp), withoutBlankLines_eq, String.toList_ofList]
  cases hlines : lines text.toList <;> simp [linesFrom, hlines, lineText]

def StartsBlank (text : List Char) : Prop :=
  ∃ blanks rest, text = blanks ++ '\n' :: rest ∧ ∀ c ∈ blanks, isSpace c = true

/-- A line of the text is blank, neither the first nor the last one. -/
def HasBlankLine (text : List Char) : Prop :=
  ∃ front rest, text = front ++ '\n' :: rest ∧ StartsBlank rest

/-- A line of the text ends in a carriage return. -/
def HasReturn (text : List Char) : Prop := ['\r', '\n'] <:+: text

theorem not_startsBlank_nil : ¬ StartsBlank [] := by simp [StartsBlank]

theorem not_hasBlankLine_nil : ¬ HasBlankLine [] := by simp [HasBlankLine]

theorem length_minimized (line : Reading) (text : List Char) :
    (minimized atVisible line text).length ≤ (line.getD []).length + text.length := by
  induction text generalizing line with
  | nil => simp [minimized, atVisible]
  | cons c rest ih =>
      have hfresh := ih (some [])
      have hvisible := ih none
      cases line with
      | none =>
          simp only [Option.getD_some, Option.getD_none, List.length_nil] at hfresh hvisible ⊢
          rw [minimized]
          split_ifs
          · exact Nat.succ_le_succ_iff.mpr (by omega)
          · exact hvisible.trans (Nat.le_succ _)
          · exact Nat.succ_le_succ_iff.mpr (by omega)
      | some blanks =>
          have hblanks := ih (some blanks)
          have hlonger := ih (some (blanks ++ [c]))
          simp only [Option.getD_some, Option.getD_none, List.length_nil, List.length_append,
            List.length_cons] at hfresh hvisible hblanks hlonger ⊢
          rw [minimized]
          split_ifs
          · omega
          · omega
          · omega
          · rw [List.length_append, List.length_cons]
            omega

theorem hasBlankLine_break {rest : List Char} :
    HasBlankLine ('\n' :: rest) ↔ StartsBlank rest ∨ HasBlankLine rest := by
  constructor
  · rintro ⟨front, rear, htext, hrear⟩
    rcases List.cons_eq_append_iff.mp htext with ⟨-, heq⟩ | ⟨others, -, heq⟩
    · obtain rfl := (List.cons.inj heq).2
      exact .inl hrear
    · exact .inr ⟨others, rear, heq, hrear⟩
  · rintro (hrest | ⟨front, rear, rfl, hrear⟩)
    · exact ⟨[], rest, rfl, hrest⟩
    · exact ⟨'\n' :: front, rear, rfl, hrear⟩

theorem hasBlankLine_cons {rest : List Char} (hc : c ≠ '\n') :
    HasBlankLine (c :: rest) ↔ HasBlankLine rest := by
  constructor
  · rintro ⟨front, rear, htext, hrear⟩
    rcases List.cons_eq_append_iff.mp htext with ⟨-, heq⟩ | ⟨others, -, heq⟩
    · exact absurd (List.cons.inj heq).1.symm hc
    · exact ⟨others, rear, heq, hrear⟩
  · rintro ⟨front, rear, rfl, hrear⟩
    exact ⟨c :: front, rear, rfl, hrear⟩

theorem startsBlank_break (rest : List Char) : StartsBlank ('\n' :: rest) :=
    ⟨[], rest, rfl, by simp⟩

theorem startsBlank_cons {rest : List Char} (hc : c ≠ '\n') :
    StartsBlank (c :: rest) ↔ isSpace c = true ∧ StartsBlank rest := by
  constructor
  · rintro ⟨blanks, rear, htext, hblanks⟩
    rcases List.cons_eq_append_iff.mp htext with ⟨-, heq⟩ | ⟨others, rfl, heq⟩
    · exact absurd (List.cons.inj heq).1.symm hc
    · exact ⟨hblanks c List.mem_cons_self, others, rear, heq, fun d hd =>
        hblanks d (List.mem_cons_of_mem _ hd)⟩
  · rintro ⟨hspace, blanks, rear, rfl, hblanks⟩
    refine ⟨c :: blanks, rear, rfl, ?_⟩
    simpa [hspace] using hblanks

theorem hasReturn_cons {rest : List Char} :
    HasReturn (c :: rest) ↔ (c = '\r' ∧ rest.head? = some '\n') ∨ HasReturn rest := by
  have hnext : ['\n'] <+: rest ↔ rest.head? = some '\n' := by
    cases rest with
    | nil => simp
    | cons d rest => simp [List.cons_prefix_cons, eq_comm (a := d)]
  rw [HasReturn, List.infix_cons_iff, List.cons_prefix_cons, hnext, HasReturn, eq_comm (a := c)]

/-- Between visible characters a text stays as it is, unless it has a blank line or a carriage
return before a line break; a text that goes on behind blanks must not make their line blank either. -/
theorem minimized_eq_iff (line : Reading) (text : List Char) :
    minimized atVisible line text = line.getD [] ++ text ↔
      ¬ HasBlankLine text ∧ ¬ HasReturn text ∧ (line.isSome → ¬ StartsBlank text) := by
  induction text generalizing line with
  | nil => simp [minimized, atVisible, not_hasBlankLine_nil, HasReturn, not_startsBlank_nil]
  | cons c rest ih =>
      by_cases hbreak : c = '\n'
      · subst hbreak
        have hreturn : HasReturn ('\n' :: rest) ↔ HasReturn rest := by simp [hasReturn_cons]
        rw [hasBlankLine_break, hreturn]
        cases line with
        | none =>
            have hrest := ih (some [])
            simp only [Option.getD_some, List.nil_append] at hrest
            simp [minimized, hrest]
            tauto
        | some blanks =>
            have hshort := length_minimized (some []) rest
            simp only [Option.getD_some, List.length_nil, Nat.zero_add] at hshort
            refine iff_of_false (fun heq => ?_) fun h => h.2.2 rfl (startsBlank_break rest)
            rw [minimized, if_pos rfl] at heq
            rw [heq] at hshort
            simp only [Option.getD_some, List.length_append, List.length_cons] at hshort
            omega
      · rw [hasBlankLine_cons hbreak, startsBlank_cons hbreak, hasReturn_cons]
        by_cases hreturn : c = '\r' ∧ rest.head? = some '\n'
        · have hskip : minimized atVisible line (c :: rest) = minimized atVisible line rest := by
            cases line <;> rw [minimized, if_neg hbreak, if_pos hreturn]
          have hshort := length_minimized line rest
          refine iff_of_false (fun heq => ?_) fun h => h.2.1 (.inl hreturn)
          rw [hskip] at heq
          rw [heq, List.length_append, List.length_cons] at hshort
          omega
        · cases line with
          | none =>
              have hrest := ih none
              rw [minimized, if_neg hbreak, if_neg hreturn]
              simpa [hreturn] using hrest
          | some blanks =>
              rw [minimized, if_neg hbreak, if_neg hreturn]
              by_cases hspace : isSpace c = true
              · have hrest := ih (some (blanks ++ [c]))
                rw [if_pos hspace]
                simpa [hreturn, hspace] using hrest
              · have hrest := ih none
                rw [if_neg hspace]
                simpa [hreturn, hspace] using hrest

theorem HasBlankLine.mono {whole : List Char} (h : HasBlankLine text) (hinside : text <:+: whole) :
    HasBlankLine whole := by
  obtain ⟨front, rest, rfl, blanks, rear, rfl, hblanks⟩ := h
  obtain ⟨first, last, rfl⟩ := hinside
  exact ⟨first ++ front, blanks ++ '\n' ::
    (rear ++ last), by simp, blanks, rear ++ last, by simp, hblanks⟩

theorem startsBlank_append {blanks : List Char} (hbreak : '\n' ∉ blanks)
    (hc : isSpace c = false) (rest : List Char) : ¬ StartsBlank (blanks ++ c :: rest) := by
  have hvisible : c ≠ '\n' := by rintro rfl; exact absurd hc (by decide)
  induction blanks with
  | nil =>
      intro h
      exact absurd ((startsBlank_cons hvisible).mp h).1 (by simp [hc])
  | cons d blanks ih =>
      rw [List.mem_cons, not_or] at hbreak
      intro h
      exact ih hbreak.2 ((startsBlank_cons (Ne.symm hbreak.1)).mp h).2

theorem hasBlankLine_append {blanks : List Char} (hbreak : '\n' ∉ blanks) (rest : List Char) :
    HasBlankLine (blanks ++ rest) ↔ HasBlankLine rest := by
  induction blanks with
  | nil => rfl
  | cons d blanks ih =>
      rw [List.mem_cons, not_or] at hbreak
      rw [List.cons_append, hasBlankLine_cons (Ne.symm hbreak.1), ih hbreak.2]

theorem not_hasBlankLine_minimized (line : Reading) (hline : '\n' ∉ line.getD [])
    (text : List Char) :
    ¬ HasBlankLine (minimized atEnd line text) ∧
      (line.isSome → ¬ StartsBlank (minimized atEnd line text)) := by
  induction text generalizing line with
  | nil =>
      cases line with
      | none =>
          refine ⟨?_, nofun⟩
          rw [minimized, atEnd, hasBlankLine_break]
          exact not_or.mpr ⟨not_startsBlank_nil, not_hasBlankLine_nil⟩
      | some blanks => exact ⟨not_hasBlankLine_nil, fun _ => not_startsBlank_nil⟩
  | cons c rest ih =>
      obtain ⟨hfresh, hfresh'⟩ := ih (some []) (by simp)
      obtain ⟨hvisible, -⟩ := ih none (by simp)
      by_cases hbreak : c = '\n'
      · subst hbreak
        cases line with
        | none =>
            rw [minimized, if_pos rfl, hasBlankLine_break]
            exact ⟨not_or.mpr ⟨hfresh' rfl, hfresh⟩, nofun⟩
        | some blanks =>
            rw [minimized, if_pos rfl]
            exact ⟨hfresh, fun _ => hfresh' rfl⟩
      · by_cases hreturn : c = '\r' ∧ rest.head? = some '\n'
        · have hskip : minimized atEnd line (c :: rest) = minimized atEnd line rest := by
            cases line <;> rw [minimized, if_neg hbreak, if_pos hreturn]
          rw [hskip]
          exact ih line hline
        · cases line with
          | none =>
              rw [minimized, if_neg hbreak, if_neg hreturn, hasBlankLine_cons hbreak]
              exact ⟨hvisible, nofun⟩
          | some blanks =>
              have hblanks : '\n' ∉ blanks := hline
              rw [minimized, if_neg hbreak, if_neg hreturn]
              by_cases hspace : isSpace c = true
              · rw [if_pos hspace]
                refine ih (some (blanks ++ [c])) ?_
                simpa [Ne.symm hbreak] using hblanks
              · rw [if_neg hspace, hasBlankLine_append hblanks, hasBlankLine_cons hbreak]
                rw [Bool.not_eq_true] at hspace
                exact ⟨hvisible, fun _ => startsBlank_append hblanks hspace _⟩

/-- A template literal. -/
def literal (text : List Char) : List Char := '\x60' :: text ++ ['\x60']

theorem text_infix_literal (text : List Char) : text <:+: literal text :=
  ⟨['\x60'], ['\x60'], rfl⟩

theorem minimized_literal (front rear : List Char) :
    minimized atEnd (some []) (front ++ literal text ++ rear) =
      before front ++ literal (between text) ++ behind rear := by
  have hvisible : isSpace '\x60' = false := by decide
  have hsplit : front ++ literal text ++ rear = front ++ '\x60' :: (text ++ '\x60' :: rear) := by
    simp [literal]
  rw [hsplit, minimized_visible hvisible, minimized_visible hvisible]
  simp [before, between, behind, literal]

theorem between_eq_iff : between text = text ↔ ¬ HasBlankLine text ∧ ¬ HasReturn text := by
  simpa [between] using minimized_eq_iff none text

/-- The script of a chunk before it is minimized. -/
def unfinished (c : Context) (chunk : Chunk) (ending : String) : String :=
  Loader.prelude ++ "\n" ++
    String.join (chunk.modules.toList.map
      (registration c.graph c.addresses (!c.format.minimize))) ++
    ending

variable {c : Context} {chunk : Chunk} {id : ModuleId} {ending : String} {head tail : List Char}

theorem script_eq (hmin : c.format.minimize = true) : c.script chunk ending =
    (String.ofList (minimized atEnd (some []) (unfinished c chunk ending).toList)).toUTF8 := by
  have hfinish : c.script chunk ending = c.finish (unfinished c chunk ending) := rfl
  rw [hfinish, Context.finish, if_pos hmin, ← toList_withoutBlankLines, String.ofList_toList]

theorem body_infix_registration (g : ModuleGraph) (addresses : Addresses) (banner : Bool)
    (id : ModuleId) :
    (body g addresses id).toList <:+: (registration g addresses banner id).toList := by
  simp only [registration, Loader.registration, String.toList_append]
  exact (List.infix_append _ _ _).trans (List.prefix_append _ _).isInfix

theorem body_infix_unfinished (hid : id ∈ chunk.modules) :
    (body c.graph c.addresses id).toList <:+: (unfinished c chunk ending).toList := by
  obtain ⟨first, last, hids⟩ := List.append_of_mem (IdSet.mem_toList.mpr hid)
  refine (body_infix_registration c.graph c.addresses (!c.format.minimize) id).trans ?_
  rw [unfinished, hids, List.map_append, List.map_cons]
  simp only [String.toList_append, String.toList_join, List.flatMap_append, List.flatMap_cons]
  refine List.IsInfix.trans ?_ (List.infix_append _ _ _)
  rw [← List.append_assoc]
  exact List.infix_append _ _ _

theorem not_literal_infix_script (hmin : c.format.minimize = true) (hblank : HasBlankLine text)
    {script : String} (hscript : c.script chunk ending = script.toUTF8) :
    ¬ literal text <:+: script.toList := by
  rw [script_eq hmin] at hscript
  obtain rfl := String.toByteArray_inj.mp hscript
  rw [String.toList_ofList]
  intro hinside
  have hkept := hblank.mono ((text_infix_literal text).trans hinside)
  exact (not_hasBlankLine_minimized (some []) (by simp) _).1 hkept

/-- A template literal in the body of a module stands byte for byte at its place in the minimized
script of each of its chunks, if and only if it has no blank line and no line that ends in a
carriage return. One with a blank line stands nowhere in it. -/
theorem literal_kept_iff (ending : String) (hmin : c.format.minimize = true)
    (hid : id ∈ chunk.modules)
    (hbody : (body c.graph c.addresses id).toList = head ++ literal text ++ tail) :
    (∃ front rear,
      (unfinished c chunk ending).toList = front ++ head ++ literal text ++ (tail ++ rear) ∧
      (c.script chunk ending =
          (String.ofList (before (front ++ head) ++ literal text ++ behind (tail ++ rear))).toUTF8 ↔
        ¬ HasBlankLine text ∧ ¬ HasReturn text)) ∧
    (HasBlankLine text → ∀ script : String, c.script chunk ending = script.toUTF8 →
      ¬ literal text <:+: script.toList) := by
  have hinside : (body c.graph c.addresses id).toList <:+: (unfinished c chunk ending).toList :=
    body_infix_unfinished hid
  obtain ⟨front, rear, hscript⟩ := hinside
  have hplace : (unfinished c chunk ending).toList =
      front ++ head ++ literal text ++ (tail ++ rear) := by
    rw [← hscript, hbody]
    simp only [List.append_assoc]
  refine ⟨⟨front, rear, hplace, ?_⟩, fun hblank script => not_literal_infix_script hmin hblank⟩
  rw [script_eq hmin, hplace, minimized_literal, ← between_eq_iff]
  constructor
  · intro hbytes
    have htexts := String.ofList_injective (String.toByteArray_inj.mp hbytes)
    have hliterals := List.append_cancel_left (List.append_cancel_right htexts)
    exact List.append_cancel_right (List.tail_eq_of_cons_eq hliterals)
  · intro hkept
    rw [hkept]

/-- A project of one script that exports a literal. -/
def exportingLiteral (text : String) : Context where
  format := { options := {}, filename := "[name].js", minimize := true }
  graph := {
    modules := [
      { key := "./e.js", path := ⟨"/p/e.js"⟩, origin := .source
        artifact := .ofText .script (exporting (String.ofList (literal text.toList))) }]
    entries := [("main", 0)] }
  addresses := []
  hash := ""

def mainChunk : Chunk where
  name := "main"
  initial := true
  origin := .entry "main"
  modules := .single 0
  size := 0
  dependencies := []

def mainEnding : String := Loader.bootstrap "/" [] [] "./e.js"

theorem literal_kept_iff_two_lines :
    (exportingLiteral "a\nb").format.minimize = true ∧ 0 ∈ mainChunk.modules ∧
      (body (exportingLiteral "a\nb").graph (exportingLiteral "a\nb").addresses 0).toList =
        "module.exports = ".toList ++ literal "a\nb".toList ++ [';'] ∧
      (∃ front rear, (unfinished (exportingLiteral "a\nb") mainChunk mainEnding).toList =
          front ++ "module.exports = ".toList ++ literal "a\nb".toList ++ ([';'] ++ rear) ∧
        ((exportingLiteral "a\nb").script mainChunk mainEnding =
            (String.ofList (before (front ++ "module.exports = ".toList) ++
              literal "a\nb".toList ++ behind ([';'] ++ rear))).toUTF8 ↔
          ¬ HasBlankLine "a\nb".toList ∧ ¬ HasReturn "a\nb".toList)) := by
  have hbody : (body (exportingLiteral "a\nb").graph (exportingLiteral "a\nb").addresses 0).toList =
      "module.exports = ".toList ++ literal "a\nb".toList ++ [';'] := by decide +kernel
  exact ⟨rfl, by decide, hbody, (literal_kept_iff mainEnding rfl (by decide) hbody).1⟩

/-- A literal with a blank line is lost. -/
theorem blank_line_lost :
    (exportingLiteral "a\n\nb").format.minimize = true ∧ 0 ∈ mainChunk.modules ∧
      literal "a\n\nb".toList <:+:
        (body (exportingLiteral "a\n\nb").graph (exportingLiteral "a\n\nb").addresses 0).toList ∧
      ∃ script : String,
        (exportingLiteral "a\n\nb").script mainChunk mainEnding = script.toUTF8 ∧
          ¬ literal "a\n\nb".toList <:+: script.toList := by
  have hbody : (body (exportingLiteral "a\n\nb").graph (exportingLiteral "a\n\nb").addresses
    0).toList =
      "module.exports = ".toList ++ literal "a\n\nb".toList ++ [';'] := by decide +kernel
  have hblank : HasBlankLine "a\n\nb".toList :=
    ⟨['a'], ['\n', 'b'], by decide, [], ['b'], rfl, by simp⟩
  have hscript : (exportingLiteral "a\n\nb").script mainChunk mainEnding =
      (String.ofList (minimized atEnd (some [])
        (unfinished (exportingLiteral "a\n\nb") mainChunk mainEnding).toList)).toUTF8 :=
          script_eq rfl
  exact ⟨rfl, by decide, ⟨_, _, hbody.symm⟩, _, hscript, not_literal_infix_script rfl hblank hscript⟩

end WebBundle.Proofs.MinimizedScripts
