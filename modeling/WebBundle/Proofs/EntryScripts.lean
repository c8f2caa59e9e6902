import WebBundle.Proofs.MinimizedScripts
import WebBundle.Proofs.QuotedData

namespace WebBundle.Proofs.EntryScripts

open Json Output
open WebBundle.Text (isSpace)
open WebBundle.Proofs.MinimizedScripts
open WebBundle.Proofs.QuotedData
open WebBundle.Proofs.TextSearch

variable {front rest text line : List Char} {lines : List (List Char)} {c : Char}

/-- Whether a text has neither line breaks nor carriage returns. -/
def isInline (text : List Char) : Bool := text.all fun c => c != '\n' && c != '\r'

theorem isInline_append (text other : List Char) :
    isInline (text ++ other) = (isInline text && isInline other) := List.all_append

theorem isInline_escapeChar (c : Char) : isInline (escapeChar c) = true := by
  rw [escapeChar]
  split_ifs with hquote hslash hback hfeed hbreak hreturn htab hcontrol
  · decide
  · decide
  · decide
  · decide
  · decide
  · decide
  · decide
  · have hall : ∀ n < 32,
        isInline ['\\', 'u', '0', '0', hexDigit (n / 16), hexDigit (n % 16)] = true := by
      decide
    exact hall c.toNat hcontrol
  · simp [isInline, hbreak, hreturn]

theorem isInline_quoteChars (text : List Char) : isInline (quoteChars text) = true := by
  have hescaped : isInline (text.flatMap escapeChar) = true := by
    rw [isInline, List.all_flatMap, List.all_eq_true]
    exact fun c _ => isInline_escapeChar c
  have hquote : isInline ['"'] = true := by decide
  rw [quoteChars, ← List.singleton_append, isInline_append, isInline_append, hescaped, hquote]
  rfl

theorem isInline_compactChars (value : Json) : isInline (compactChars value) = true := by
  refine compactChars_induction (P := fun text => isInline text = true) ?_ ?_ value
    fun text _ => isInline_quoteChars text.toList
  · intro word other hword hother
    rw [isInline_append, hword, hother]
    rfl
  · intro word hmarks
    rw [isInline, List.all_eq_true]
    intro c hc
    have hmark := hmarks c hc
    have hbreak : isMark '\n' = false := by decide
    have hreturn : isMark '\r' = false := by decide
    simp only [Bool.and_eq_true, bne_iff_ne]
    constructor <;> rintro rfl <;> simp_all

/-- Whether a text is a line that shows something. -/
def isLine (line : List Char) : Bool := isInline line && line.any fun c => !isSpace c

/-- Lines, each behind a line break. -/
def broken (lines : List (List Char)) : List Char := lines.flatMap ('\n' :: ·)

theorem intercalate_eq (first : List Char) (lines : List (List Char)) :
    ['\n'].intercalate (first :: lines) = first ++ broken lines := by
  induction lines generalizing first with
  | nil => simp [broken]
  | cons line lines ih =>
      rw [List.intercalate_cons_cons, ih, broken, broken, List.flatMap_cons]
      simp

theorem minimized_inline (htext : isInline text = true) (ending : Reading → List Char)
    (rest : List Char) :
    minimized ending none (text ++ rest) = text ++ minimized ending none rest := by
  induction text with
  | nil => rfl
  | cons c text ih =>
      simp only [isInline, List.all_cons, Bool.and_eq_true, bne_iff_ne] at htext ih
      obtain ⟨⟨hbreak, hreturn⟩, htext⟩ := htext
      rw [List.cons_append, minimized, if_neg hbreak, if_neg fun h => hreturn h.1, ih htext,
        List.cons_append]

theorem minimized_waiting (hline : isLine line = true) (ending : Reading → List Char)
    (blanks rest : List Char) : minimized ending (some blanks) (line ++ rest) =
      blanks ++ (line ++ minimized ending none rest) := by
  rw [isLine, Bool.and_eq_true] at hline
  obtain ⟨hinline, hvisible⟩ := hline
  induction line generalizing blanks with
  | nil => contradiction
  | cons c line ih =>
      simp only [isInline, List.all_cons, Bool.and_eq_true, bne_iff_ne] at hinline ih
      obtain ⟨⟨hbreak, hreturn⟩, hinline⟩ := hinline
      rw [List.cons_append, minimized, if_neg hbreak, if_neg fun h => hreturn h.1]
      split
      · next hspace =>
          have hlater : (line.any fun c => !isSpace c) = true := by
            simpa [hspace] using hvisible
          rw [ih _ hinline hlater]
          simp
      · rw [minimized_inline hinline, List.cons_append]

theorem minimized_line (hline : isLine line = true) (ending : Reading → List Char)
    (rest : List Char) : minimized ending none ('\n' :: (line ++ rest)) =
      '\n' :: (line ++ minimized ending none rest) := by
  rw [minimized, if_pos rfl, minimized_waiting hline, List.nil_append]

theorem minimized_broken (hlines : ∀ line ∈ lines, isLine line = true)
    (ending : Reading → List Char) (rest : List Char) :
    minimized ending none (broken lines ++ rest) = broken lines ++ minimized ending none rest := by
  induction lines with
  | nil => rfl
  | cons line lines ih =>
      obtain ⟨hline, hlines⟩ := List.forall_mem_cons.mp hlines
      have hbroken : broken (line :: lines) = '\n' :: (line ++ broken lines) := rfl
      rw [hbroken, List.cons_append, List.append_assoc, minimized_line hline, ih hlines]
      simp

theorem toList_lines {first : String} {rest : List Char} (hfirst : first = String.ofList (c :: rest))
    (others : List String) : (String.intercalate "\n" (first :: others)).toList =
      c :: (rest ++ broken (others.map String.toList)) := by
  have hbreak : "\n".toList = ['\n'] := rfl
  rw [String.toList_intercalate, hbreak, List.map_cons, intercalate_eq, hfirst,
    String.toList_ofList, List.cons_append]

theorem all_isLine_cons {first : String} {others : List String} (hfirst : first = String.ofList line)
    (hline : isLine line = true) (hothers : (others.map String.toList).all isLine = true) :
    ((first :: others).map String.toList).all isLine = true := by
  rw [List.map_cons, List.all_cons, hfirst, String.toList_ofList, hline, hothers]
  rfl

theorem exists_loader_lines : ∃ first lines, Loader.loader.toList = '(' :: (first ++ broken lines) ∧
    isInline first = true ∧ ∀ line ∈ lines, isLine line = true := by
  rw [Loader.loader, toList_lines rfl]
  refine ⟨_, _, rfl, rfl, List.all_eq_true.mp ?_⟩
  repeat refine all_isLine_cons rfl rfl ?_
  rfl

/-- The arguments of the loader, with the end of its call. -/
def arguments (publicPath : String) (filesOf : List (String × List String)) (present : List String) :
    String :=
  "(__sheaf_modules__, " ++ Json.quote publicPath ++ ", " ++
    compact (.object (filesOf.map fun entry => (entry.1, Loader.textArray entry.2))) ++ ", " ++
    compact (Loader.textArray present) ++ ");"

/-- The call that runs an entry. -/
def entryCall (entry : String) : String := "__sheaf_require__(" ++ Json.quote entry ++ ");"

theorem toList_quote (text : String) : (Json.quote text).toList = quoteChars text.toList :=
  String.toList_ofList

theorem toList_compact (value : Json) : (compact value).toList = compactChars value :=
  String.toList_ofList

theorem bootstrap_eq (publicPath : String) (filesOf : List (String × List String))
    (present : List String) (entry : String) :
    Loader.bootstrap publicPath filesOf present entry =
      Loader.loader ++ "(__sheaf_modules__, " ++ Json.quote publicPath ++ ", " ++
        compact (.object (filesOf.map fun entry => (entry.1, Loader.textArray entry.2))) ++ ", " ++
        compact (Loader.textArray present) ++ ");\n__sheaf_require__(" ++ Json.quote entry ++
        ");\n" :=
  rfl

theorem toList_arguments (publicPath : String) (filesOf : List (String × List String))
    (present : List String) : (arguments publicPath filesOf present).toList =
      "(__sheaf_modules__, ".toList ++ quoteChars publicPath.toList ++ ", ".toList ++
        compactChars (.object (filesOf.map fun entry => (entry.1, Loader.textArray entry.2))) ++
        ", ".toList ++ compactChars (Loader.textArray present) ++ ");".toList := by
  delta arguments
  simp only [String.toList_append, toList_quote, toList_compact]

theorem toList_entryCall (entry : String) : (entryCall entry).toList =
    "__sheaf_require__(".toList ++ quoteChars entry.toList ++ ");".toList := by
  delta entryCall
  simp only [String.toList_append, toList_quote]

theorem toList_bootstrap (publicPath : String) (filesOf : List (String × List String))
    (present : List String) (entry : String) :
    (Loader.bootstrap publicPath filesOf present entry).toList =
      Loader.loader.toList ++ ((arguments publicPath filesOf present).toList ++
        (broken [(entryCall entry).toList] ++ ['\n'])) := by
  have hcall : ");\n__sheaf_require__(".toList =
      ");".toList ++ '\n' :: "__sheaf_require__(".toList := rfl
  have hend : ");\n".toList = ");".toList ++ ['\n'] := rfl
  simp only [bootstrap_eq, toList_arguments, toList_entryCall, broken, hcall, hend,
    String.toList_append, toList_quote, toList_compact, List.append_assoc, List.flatMap_cons,
    List.flatMap_nil, List.cons_append, List.nil_append]

theorem isInline_arguments (publicPath : String) (filesOf : List (String × List String))
    (present : List String) : isInline (arguments publicPath filesOf present).toList = true := by
  simp only [toList_arguments, isInline_append, isInline_quoteChars, isInline_compactChars]
  rfl

theorem isLine_entryCall (entry : String) : isLine (entryCall entry).toList = true := by
  have hvisible : ("__sheaf_require__(".toList.any fun c => !isSpace c) = true := rfl
  simp only [isLine, toList_entryCall, isInline_append, isInline_quoteChars, List.any_append,
    hvisible]
  rfl

theorem minimized_bootstrap (front : List Char) (publicPath : String)
    (filesOf : List (String × List String)) (present : List String) (entry : String) :
    minimized atEnd (some []) (front ++ (Loader.bootstrap publicPath filesOf present entry).toList) =
      before front ++ (Loader.bootstrap publicPath filesOf present entry).toList := by
  obtain ⟨first, lines, hloader, hfirst, hlines⟩ := exists_loader_lines
  have hopen : isSpace '(' = false := by decide
  rw [toList_bootstrap, hloader, List.cons_append, minimized_visible hopen, List.append_assoc,
    minimized_inline hfirst, minimized_broken hlines, minimized_inline (isInline_arguments _ _ _),
    minimized_broken (by simpa using isLine_entryCall entry)]
  rfl

/-- The script of a chunk ends in its bootstrap. -/
theorem script_ends_in_bootstrap (c : Context) (chunk : Chunk) (publicPath : String)
    (filesOf : List (String × List String)) (present : List String) (entry : String) :
    ∃ opening : String, c.script chunk (Loader.bootstrap publicPath filesOf present entry) =
      (opening ++ Loader.bootstrap publicPath filesOf present entry).toUTF8 := by
  have hunfinished : ∃ front : String, unfinished c chunk
      (Loader.bootstrap publicPath filesOf present entry) =
        front ++ Loader.bootstrap publicPath filesOf present entry := ⟨_, rfl⟩
  obtain ⟨front, hfront⟩ := hunfinished
  cases hmin : c.format.minimize with
  | false =>
      refine ⟨front, ?_⟩
      have hscript : c.script chunk (Loader.bootstrap publicPath filesOf present entry) =
          c.finish (unfinished c chunk (Loader.bootstrap publicPath filesOf present entry)) := rfl
      rw [hscript, hfront, Context.finish, hmin, if_neg Bool.false_ne_true]
  | true =>
      refine ⟨String.ofList (before front.toList), ?_⟩
      rw [script_eq hmin, hfront, String.toList_append, minimized_bootstrap, String.ofList_append,
        String.ofList_toList]

end WebBundle.Proofs.EntryScripts
