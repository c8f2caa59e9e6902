import WebBundle.Proofs.CallForms

namespace WebBundle.Proofs.StatementForms

open Text Script TextSearch CallForms

variable {specifier rest text : List Char} {c d : Cursor} {previous : Option Char}

/-- A quoted specifier behind at least one blank. -/
def SpacedSource (text : List Char) : Prop :=
  ∃ blanks source specifier rest, blanks ≠ [] ∧ Blank blanks ∧ text = blanks ++ source ∧
    Quoted specifier rest source

/-- The word `from` and a quoted specifier, behind any blanks. -/
def FromSource (text : List Char) : Prop :=
  ∃ blanks behind, Blank blanks ∧ text = blanks ++ ("from".toList ++ behind) ∧ SpacedSource behind

theorem isSome_bind {α β : Type} {o : Option α} {f : α → Option β} :
    (o.bind f).isSome ↔ ∃ x, o = some x ∧ (f x).isSome := by
  cases o <;> simp

/-- What stands behind the word `from`. -/
def spacedRequest (c : Cursor) : Option (Found Request) := do
  let c ← c.some1 isSpace
  let (request, done) ← quotedRequest c
  return ⟨request, done.taken⟩

theorem isSome_spacedRequest : (spacedRequest c).isSome ↔ SpacedSource c.rest := by
  have hread : (spacedRequest c).isSome ↔ ∃ d, c.some1 isSpace = some d ∧
      (quotedRequest d).isSome := by
    rw [spacedRequest, Option.bind_eq_bind, isSome_bind]
    refine exists_congr fun d => and_congr_right fun _ => ?_
    cases quotedRequest d <;> simp
  simp only [hread, some1_eq_some, isSome_quotedRequest]
  constructor
  · rintro ⟨d, ⟨blanks, hne, hblanks, -, hpass⟩, specifier, rest, hquoted⟩
    exact ⟨blanks, d.rest, specifier, rest, hne, hblanks, hpass.1, hquoted⟩
  · rintro ⟨blanks, source, specifier, rest, hne, hblanks, htext, hquoted⟩
    exact ⟨⟨c.taken + blanks.length, source⟩, ⟨blanks, hne, hblanks, hquoted.stops, htext, rfl⟩,
      specifier, rest, hquoted⟩

theorem isSome_fromRequest : (fromRequest c).isSome ↔
    ∃ behind, c.rest = "from".toList ++ behind ∧ SpacedSource behind := by
  have hread : fromRequest c = (c.literal "from".toList).bind spacedRequest := rfl
  simp only [hread, isSome_bind, literal_eq_some, isSome_spacedRequest]
  constructor
  · rintro ⟨d, hpass, h⟩
    exact ⟨d.rest, hpass.1, h⟩
  · rintro ⟨behind, htext, h⟩
    exact ⟨⟨c.taken + 4, behind⟩, ⟨htext, rfl⟩, h⟩

theorem isSome_fromRequest_skip : (fromRequest (c.skip isSpace)).isSome ↔ FromSource c.rest := by
  rw [isSome_fromRequest]
  constructor
  · rintro ⟨behind, hrest, h⟩
    refine ⟨c.run isSpace, behind, forall_mem_run _ _, ?_, h⟩
    rw [← hrest]
    exact (passes_skip isSpace c).1
  · rintro ⟨blanks, behind, hblanks, htext, h⟩
    have hskip : c.skip isSpace = ⟨c.taken + blanks.length, "from".toList ++ behind⟩ :=
      skip_eq hblanks ⟨htext, rfl⟩ (stops_cons.mpr (by decide))
    exact ⟨behind, by rw [hskip], h⟩

/-- A name that is as long as it can be, then the word `from`, which the name may end in. -/
def NamedSource (text : List Char) : Prop :=
  ∃ name behind, name ≠ [] ∧ (∀ x ∈ name, isNameChar x = true) ∧ Stops isNameChar behind ∧
    text = name ++ behind ∧
    (FromSource behind ∨ ∃ front, front ≠ [] ∧ name = front ++ "from".toList ∧ SpacedSource behind)

/-- What stands behind the word `as` of an export clause. -/
def namedRequest (c : Cursor) : Option (Found Request) :=
  let name := c.run isNameChar
  if name = [] then none
  else
    let whole := c.skip isNameChar
    match fromRequest (whole.skip isSpace) with
    | some find => some find
    | none =>
      match name.reverse with
      | 'm' :: 'o' :: 'r' :: 'f' :: _ :: _ => spacedRequest whole
      | _ => none

theorem isSome_namedRequest : (namedRequest c).isSome ↔ NamedSource c.rest := by
  have hrest : c.rest = c.run isNameChar ++ (c.skip isNameChar).rest := (passes_skip isNameChar c).1
  have hread : (namedRequest c).isSome ↔ c.run isNameChar ≠ [] ∧
    (FromSource (c.skip isNameChar).rest ∨
      ∃ front, front ≠ [] ∧ c.run isNameChar = front ++ "from".toList ∧
        SpacedSource (c.skip isNameChar).rest) := by
    by_cases hempty : c.run isNameChar = []
    · exact iff_of_false (by simp [namedRequest, hempty]) fun h => h.1 hempty
    rw [and_iff_right hempty, ← isSome_fromRequest_skip, ← isSome_spacedRequest]
    cases hfrom : fromRequest ((c.skip isNameChar).skip isSpace) with
    | some find => exact iff_of_true (by simp [namedRequest, hempty, hfrom]) (.inl rfl)
    | none =>
        rw [or_iff_right (by simp)]
        constructor
        · intro h
          simp only [namedRequest, hempty, if_false, hfrom] at h
          split at h
          · rename_i x front hname
            refine ⟨front.reverse ++ [x], by simp, ?_, h⟩
            simpa using congrArg List.reverse hname
          · exact absurd h (by simp)
        · rintro ⟨front, hne, hname, h⟩
          obtain ⟨init, x, rfl⟩ := exists_append_singleton hne
          have hreverse : (c.run isNameChar).reverse = 'm' :: 'o' :: 'r' :: 'f' :: x ::
              init.reverse := by
            simp [hname]
          simpa only [namedRequest, hempty, if_false, hfrom, hreverse] using h
  rw [hread]
  constructor
  · rintro ⟨hne, h⟩
    exact ⟨_, _, hne, forall_mem_run _ _, stops_skip _ _, hrest, h⟩
  · rintro ⟨name, behind, hne, hall, hstops, htext, h⟩
    have hpass : Passes c name ⟨c.taken + name.length, behind⟩ := ⟨htext, rfl⟩
    rw [run_eq hall hpass hstops, skip_eq hall hpass hstops]
    exact ⟨hne, h⟩

/-- Behind the star of an export clause: the word `as` and a name between blanks. -/
def AliasSource (text : List Char) : Prop :=
  ∃ first second named, first ≠ [] ∧ Blank first ∧ second ≠ [] ∧ Blank second ∧
    Stops isSpace named ∧
    text = first ++ ("as".toList ++ (second ++ named)) ∧ NamedSource named

theorem isSome_starExport : (starExport c).isSome ↔ AliasSource c.rest ∨ FromSource c.rest := by
  have hread : (starExport c).isSome ↔ ((c.some1 isSpace).bind fun d =>
      (d.literal "as".toList).bind fun d => (d.some1 isSpace).bind namedRequest).isSome ∨
        (fromRequest (c.skip isSpace)).isSome := by
    rw [starExport]
    split
    · rename_i find hfind
      exact iff_of_true rfl (.inl (Option.isSome_of_mem hfind))
    · rename_i hnone
      have hnone : ((c.some1 isSpace).bind fun d =>
        (d.literal "as".toList).bind fun d => (d.some1 isSpace).bind namedRequest) = none := hnone
      rw [hnone]
      exact (or_iff_right (by simp)).symm
  rw [hread, isSome_fromRequest_skip]
  refine or_congr_left ?_
  simp only [isSome_bind, some1_eq_some, literal_eq_some, isSome_namedRequest]
  constructor
  · rintro ⟨d, ⟨first, hne, hfirst, -, hd⟩, e, he, f, ⟨second, hne', hsecond, hstops, hf⟩, h⟩
    refine ⟨first, second, f.rest, hne, hfirst, hne', hsecond, hstops, ?_, h⟩
    rw [hd.1, he.1, hf.1]
  · rintro ⟨first, second, named, hne, hfirst, hne', hsecond, hstops, htext, h⟩
    let d : Cursor := ⟨c.taken + first.length, "as".toList ++ (second ++ named)⟩
    let e : Cursor := ⟨d.taken + 2, second ++ named⟩
    have hstart : Stops isSpace d.rest := stops_cons.mpr (by decide)
    exact ⟨d, ⟨first, hne, hfirst, hstart, htext, rfl⟩, e, ⟨rfl, rfl⟩,
      ⟨e.taken + second.length, named⟩,
      ⟨second, hne', hsecond, hstops, rfl, rfl⟩, h⟩

/-- A list of names in braces, and the word `from` with a quoted specifier behind them. -/
def BracedSource (text : List Char) : Prop :=
  ∃ inner behind, '}' ∉ inner ∧ text = inner ++ '}' :: behind ∧ FromSource behind

theorem bracedSource_cons {x : Char} : BracedSource (x :: text) ↔
    if x = '}' then FromSource text else BracedSource text := by
  constructor
  · rintro ⟨inner, behind, hinner, htext, h⟩
    cases inner with
    | nil =>
        obtain ⟨rfl, rfl⟩ := List.cons.inj htext
        rwa [if_pos rfl]
    | cons y inner =>
        obtain ⟨rfl, rfl⟩ := List.cons.inj htext
        rw [List.mem_cons, not_or] at hinner
        rw [if_neg (Ne.symm hinner.1)]
        exact ⟨inner, behind, hinner.2, rfl, h⟩
  · intro h
    split at h
    · rename_i hx
      exact ⟨[], text, by simp, by rw [hx, List.nil_append], h⟩
    · rename_i hx
      obtain ⟨inner, behind, hinner, rfl, h⟩ := h
      exact ⟨x :: inner, behind, by simp [Ne.symm hx, hinner], rfl, h⟩

theorem allows_braceOutlook (front rear : List Char) :
    (braceOutlook (front ++ rear)).allows front.length = true ↔ BracedSource rear := by
  rw [braceOutlook, allows_outlook]
  induction rear with
  | nil => simp [known, BracedSource]
  | cons x rear ih =>
      rw [id_eq, known, bracedSource_cons]
      split
      · exact isSome_fromRequest_skip
      · exact ih

theorem isSome_bracedRequest : (((c.skip (· != '}')).one (· == '}')).bind fun d =>
    fromRequest (d.skip isSpace)).isSome ↔ BracedSource c.rest := by
  simp only [isSome_bind, one_eq_some, beq_iff_eq, exists_eq_left, isSome_fromRequest_skip]
  constructor
  · rintro ⟨d, hd, h⟩
    have hinner : '}' ∉ c.run (· != '}') := fun hx => by simpa using forall_mem_run _ _ _ hx
    refine ⟨_, d.rest, hinner, ?_, h⟩
    simpa using ((passes_skip _ c).trans hd).1
  · rintro ⟨inner, behind, hinner, htext, h⟩
    have hall : ∀ x ∈ inner, (x != '}') = true := fun x hx => by
      rw [bne_iff_ne]
      rintro rfl
      exact hinner hx
    have hskip : c.skip (· != '}') = ⟨c.taken + inner.length, '}' :: behind⟩ :=
      skip_eq hall ⟨htext, rfl⟩ (stops_cons.mpr (by decide))
    refine ⟨⟨c.taken + inner.length + 1, behind⟩, ?_, h⟩
    rw [hskip]
    exact ⟨rfl, rfl⟩

/-- What stands behind the word `export` and blanks. -/
def exportClause (outlook : Outlook) (c : Cursor) : Option (Found Request) :=
  match c.one (· == '*') with
  | some c => starExport c
  | none => (c.one (· == '{')).bind fun c =>
      if outlook.allows c.taken then
        ((c.skip (· != '}')).one (· == '}')).bind fun d => fromRequest (d.skip isSpace)
      else none

def ExportClause (text : List Char) : Prop :=
  (∃ behind, text = '*' :: behind ∧ (AliasSource behind ∨ FromSource behind)) ∨
    ∃ behind, text = '{' :: behind ∧ BracedSource behind

def ExportStatement (text : List Char) : Prop :=
  ∃ blanks clause, blanks ≠ [] ∧ Blank blanks ∧ text = "export".toList ++ (blanks ++ clause) ∧
    ExportClause clause

theorem isSome_exportClause (front : List Char) (hfront : c.taken = front.length) :
    (exportClause (braceOutlook (front ++ c.rest)) c).isSome ↔ ExportClause c.rest := by
  rw [exportClause]
  split
  · rename_i d hstar
    obtain ⟨_, hx, hpass⟩ := one_eq_some.mp hstar
    obtain rfl := beq_iff_eq.mp hx
    have hrest : c.rest = '*' :: d.rest := hpass.1
    simp [ExportClause, isSome_starExport, hrest]
  · rename_i hstar
    have hstart : ∀ behind, c.rest ≠ '*' :: behind := by
      intro behind hrest
      have hone : c.one (· == '*') = some ⟨c.taken + 1, behind⟩ :=
        one_eq_some.mpr ⟨'*', rfl, hrest, rfl⟩
      simp [hstar] at hone
    have hclause : ExportClause c.rest ↔ ∃ behind, c.rest = '{' :: behind ∧ BracedSource behind :=
      or_iff_right fun ⟨behind, hrest, _⟩ => hstart behind hrest
    have hplace : ∀ d, Passes c ['{'] d →
        ((braceOutlook (front ++ c.rest)).allows d.taken = true ↔ BracedSource d.rest) := by
      intro d hpass
      have hfind := allows_braceOutlook (front ++ ['{']) d.rest
      rwa [List.append_assoc, ← hpass.1, List.length_append, ← hfront, ← hpass.2] at hfind
    simp only [hclause, isSome_bind, one_eq_some, beq_iff_eq, exists_eq_left]
    constructor
    · rintro ⟨d, hpass, h⟩
      split at h
      · rename_i hallows
        exact ⟨d.rest, hpass.1, (hplace d hpass).mp hallows⟩
      · exact absurd h (by simp)
    · rintro ⟨behind, hrest, h⟩
      have hpass : Passes c ['{'] ⟨c.taken + 1, behind⟩ := ⟨hrest, rfl⟩
      refine ⟨_, hpass, ?_⟩
      rw [if_pos ((hplace _ hpass).mpr h)]
      exact isSome_bracedRequest.mpr h

theorem exportStatement_eq {outlook : Outlook} (hstart : atWordStart previous = true) :
    exportStatement previous outlook text =
      ((Cursor.start text).literal "export".toList).bind fun c =>
      (c.some1 isSpace).bind (exportClause outlook) := by
  rw [exportStatement, hstart, Bool.not_true, if_neg Bool.false_ne_true]
  refine congrArg (Option.bind _) (funext fun c => congrArg (Option.bind _) (funext fun c => ?_))
  rw [exportClause]
  cases c.one (· == '*') with
  | some d => rfl
  | none =>
      dsimp only
      refine congrArg _ (funext fun c => ?_)
      cases outlook.allows c.taken <;> rfl

theorem isSome_exportStatement : (exportStatement previous (braceOutlook text) text).isSome ↔
    atWordStart previous = true ∧ ExportStatement text := by
  cases hstart : atWordStart previous with
  | false => simp [exportStatement, hstart]
  | true =>
      rw [exportStatement_eq hstart, and_iff_right rfl]
      simp only [isSome_bind, literal_eq_some, some1_eq_some]
      constructor
      · rintro ⟨c, hword, d, ⟨blanks, hne, hblanks, -, hpass⟩, h⟩
        have hplace := hword.trans hpass
        obtain ⟨htext, htaken⟩ := passes_start.mp hplace
        rw [htext, isSome_exportClause _ htaken] at h
        exact ⟨blanks, d.rest, hne, hblanks, by rw [htext, List.append_assoc], h⟩
      · rintro ⟨blanks, clause, hne, hblanks, htext, h⟩
        let c : Cursor := ⟨6, blanks ++ clause⟩
        let d : Cursor := ⟨("export".toList ++ blanks).length, clause⟩
        have hword : Passes (Cursor.start text) "export".toList c := passes_start.mpr ⟨htext, rfl⟩
        have hstops : Stops isSpace clause := by
          rcases h with ⟨behind, rfl, -⟩ | ⟨behind, rfl, -⟩ <;> exact stops_cons.mpr (by decide)
        have hpass : Passes c blanks d := ⟨rfl, List.length_append⟩
        have hclause := (isSome_exportClause (c := d) ("export".toList ++ blanks) rfl).mpr h
        refine ⟨c, hword, d, ⟨blanks, hne, hblanks, hstops, hpass⟩, ?_⟩
        rwa [htext, ← List.append_assoc]

/-- What stands between the word `import` and a quoted specifier: blanks, or a clause and the word
`from`. -/
def ImportClause (between : List Char) : Prop :=
  between ≠ [] ∧ Blank between ∨
    ∃ first names second third, first ≠ [] ∧ Blank first ∧ names ≠ [] ∧
      (∀ x ∈ names, isClauseChar x = true) ∧
      second ≠ [] ∧ Blank second ∧ third ≠ [] ∧ Blank third ∧
      between = first ++ names ++ second ++ "from".toList ++ third

def ImportStatement (text : List Char) : Prop :=
  ∃ between source specifier rest, text = "import".toList ++ (between ++ source) ∧
    ImportClause between ∧
    Quoted specifier rest source

/-- The text behind a clause ends in the word `from` between blanks, told from its end. -/
def endsInSource (reversed : List Char) : Bool :=
  match reversed with
  | [] => false
  | last :: rest =>
    isSpace last &&
      match rest.dropWhile isSpace with
      | 'm' :: 'o' :: 'r' :: 'f' :: before :: _ :: _ :: _ => isSpace before
      | _ => false

theorem endsInSource_iff (text : List Char) : endsInSource text.reverse = true ↔
    ∃ names second third, 2 ≤ names.length ∧ second ≠ [] ∧ Blank second ∧ third ≠ [] ∧ Blank third ∧
      text = names ++ second ++ "from".toList ++ third := by
  constructor
  · intro h
    rcases hreverse : text.reverse with _ | ⟨last, rest⟩
    · simp [hreverse, endsInSource] at h
    · rw [hreverse, endsInSource, Bool.and_eq_true] at h
      obtain ⟨hlast, h⟩ := h
      split at h
      · rename_i before x y others hrest
        obtain ⟨blanks, hblanks, rfl⟩ : ∃ blanks, Blank blanks ∧
            rest = blanks ++ 'm' :: 'o' :: 'r' :: 'f' :: before :: x :: y :: others :=
          ⟨rest.takeWhile isSpace, fun c hc => List.mem_takeWhile_imp hc, by
            rw [← hrest, List.takeWhile_append_dropWhile]⟩
        refine ⟨others.reverse ++ [y, x], [before], blanks.reverse ++ [last], by simp, by simp,
          by simpa [Blank] using h, by simp, ?_, ?_⟩
        · simpa [Blank, or_imp, forall_and, hlast] using hblanks
        · rw [← List.reverse_reverse text, hreverse]
          simp
      · exact absurd h (by simp)
  · rintro ⟨names, second, third, hnames, hsecond, hblank, hthird, hblank', rfl⟩
    obtain ⟨third, last, rfl⟩ := exists_append_singleton hthird
    obtain ⟨second, before, rfl⟩ := exists_append_singleton hsecond
    simp only [Blank, List.mem_append, List.mem_singleton, or_imp, forall_and, forall_eq]
      at hblank hblank'
    have hstops : ∀ others : List Char, Stops isSpace ('m' :: others) :=
      fun others => stops_cons.mpr (by decide)
    have hrear : ∃ x y others, second.reverse ++ names.reverse = x :: y :: others := by
      have hlength : 2 ≤ (second.reverse ++ names.reverse).length := by
        rw [List.length_append, List.length_reverse, List.length_reverse]
        omega
      rcases hlist : second.reverse ++ names.reverse with _ | ⟨x, _ | ⟨y, others⟩⟩
      · simp [hlist] at hlength
      · simp [hlist] at hlength
      · exact ⟨x, y, others, rfl⟩
    obtain ⟨x, y, others, hrear⟩ := hrear
    have hreverse : (names ++ (second ++ [before]) ++ "from".toList ++ (third ++ [last])).reverse =
        last :: (third.reverse ++ 'm' :: 'o' :: 'r' :: 'f' :: before :: x :: y :: others) := by
      simp [← hrear]
    have hall : ∀ c ∈ third.reverse, isSpace c = true := by simpa using hblank'.1
    rw [hreverse, endsInSource, dropWhile_append_of_stops hall (hstops _)]
    simp [hblank.2, hblank'.2]

theorem isImportClause_iff {between : List Char} (hall : ∀ x ∈ between, isClauseChar x = true) :
    isImportClause between = true ↔ ImportClause between := by
  have hread : isImportClause between = true ↔ between.head?.any isSpace = true ∧
      (Blank between ∨ endsInSource between.reverse = true) := by
    cases between with
    | nil => simp [isImportClause]
    | cons x between =>
        rw [isImportClause, Bool.and_eq_true, Bool.or_eq_true, List.all_eq_true]
        rfl
  rw [hread, endsInSource_iff, ImportClause]
  constructor
  · rintro ⟨hhead, hblank | ⟨names, second, third, hnames, hsecond, hblank, hthird, hblank', rfl⟩⟩
    · refine .inl ⟨?_, hblank⟩
      rintro rfl
      simp at hhead
    · obtain ⟨x, names, rfl⟩ :=
        List.exists_cons_of_length_pos (Nat.lt_of_lt_of_le Nat.two_pos hnames)
      have hx : isSpace x = true := by simpa using hhead
      refine .inr ⟨[x], names, second,
        third, by simp, by simpa [Blank] using hx, ?_, ?_, hsecond, hblank, hthird,
        hblank', rfl⟩
      · rintro rfl
        simp at hnames
      · intro c hc
        exact hall c (by simp [hc])
  · rintro (⟨hne, hblank⟩ | ⟨first, names, second, third, hfirst, hblank, hnames, -, hsecond,
      hblank', hthird,
      hblank'', rfl⟩)
    · obtain ⟨x, between, rfl⟩ := List.exists_cons_of_ne_nil hne
      exact ⟨by simpa using hblank x List.mem_cons_self, .inl hblank⟩
    · obtain ⟨x, first, rfl⟩ := List.exists_cons_of_ne_nil hfirst
      refine ⟨by simpa using hblank x List.mem_cons_self, .inr ⟨x :: first ++ names, second, third, ?_, hsecond, hblank', hthird, hblank'', rfl⟩⟩
      have hlength := List.length_pos_iff.mpr hnames
      simp only [List.length_append, List.length_cons]
      omega

theorem not_isClauseChar {x : Char} (hx : isQuote x = true) : isClauseChar x = false := by
  have hquotes : x = '"' ∨ x = '\'' := by simpa [isQuote] using hx
  rcases hquotes with rfl | rfl <;> decide

theorem isClauseChar_of_blank (h : Blank text) : ∀ x ∈ text, isClauseChar x = true := fun x hx => by
  simp [isClauseChar, h x hx]

theorem ImportClause.isClauseChar {between : List Char} (h : ImportClause between) :
    ∀ x ∈ between, isClauseChar x = true := by
  rcases h with ⟨-, hblank⟩ | ⟨first, names, second, third, -, hfirst, -, hnames, -, hsecond, -,
    hthird, rfl⟩
  · exact isClauseChar_of_blank hblank
  · have hfrom : ∀ x ∈ "from".toList, Script.isClauseChar x = true :=
        forall_mem_of_all (by decide)
    simp only [List.mem_append, or_imp, forall_and]
    exact ⟨⟨⟨⟨isClauseChar_of_blank hfirst, hnames⟩, isClauseChar_of_blank hsecond⟩, hfrom⟩,
      isClauseChar_of_blank hthird⟩

theorem ImportClause.head {between : List Char} (h : ImportClause between) (text : List Char) :
    (between ++ text).head?.any isSpace = true := by
  have hhead : ∀ blanks others : List Char, blanks ≠ [] → Blank blanks →
      (blanks ++ others).head?.any isSpace = true := by
    intro blanks others hne hblank
    obtain ⟨x, blanks, rfl⟩ := List.exists_cons_of_ne_nil hne
    simpa using hblank x List.mem_cons_self
  rcases h with ⟨hne, hblank⟩ | ⟨first, names, second, third, hne, hblank, -, -, -, -, -, -, rfl⟩
  · exact hhead _ _ hne hblank
  · simp only [List.append_assoc]
    exact hhead _ _ hne hblank

/-- What is known of a clause and the quoted specifier behind it. -/
def clauseOf (text : List Char) : Clause := known Clause.before ⟨true, false, false⟩ text

theorem clauseOf_cons {x : Char} (hx : isClauseChar x = true) (rest : List Char) :
    clauseOf (x :: rest) =
    { clauseOf rest with
      isBlank := (clauseOf rest).isBlank && isSpace x
      hasSource := (clauseOf rest).hasSource || (isSpace x && endsClause rest) } := by
  rw [clauseOf, known, Clause.before, if_pos hx]
  rfl

theorem clauseOf_quoted (h : Quoted specifier rest text) : clauseOf text = ⟨true, false, true⟩ := by
  have hsome : (quotedRequest (Cursor.start text)).isSome :=
    isSome_quotedRequest.mpr ⟨specifier, rest, h⟩
  obtain ⟨opening, closing, hopening, -, -, -, rfl⟩ := h
  rw [clauseOf, known, Clause.before, not_isClauseChar hopening, if_neg (by simp), hsome]

theorem hasRequest_append {between : List Char} (hall : ∀ x ∈ between, isClauseChar x = true)
    (text : List Char) :
    (clauseOf (between ++ text)).hasRequest = (clauseOf text).hasRequest := by
  induction between with
  | nil => rfl
  | cons x between ih =>
      obtain ⟨hx, hall⟩ := List.forall_mem_cons.mp hall
      rw [List.cons_append, clauseOf_cons hx]
      exact ih hall

theorem isBlank_append {between : List Char} (hblank : Blank between) (text : List Char) :
    (clauseOf (between ++ text)).isBlank = (clauseOf text).isBlank := by
  induction between with
  | nil => rfl
  | cons x between ih =>
      obtain ⟨hx, hblank'⟩ := List.forall_mem_cons.mp hblank
      rw [List.cons_append, clauseOf_cons (isClauseChar_of_blank hblank x List.mem_cons_self), hx,
        Bool.and_true]
      exact ih hblank'

theorem hasSource_append {between : List Char} (hall : ∀ x ∈ between, isClauseChar x = true)
    (h : (clauseOf text).hasSource = true) : (clauseOf (between ++ text)).hasSource = true := by
  induction between with
  | nil => exact h
  | cons x between ih =>
      obtain ⟨hx, hall⟩ := List.forall_mem_cons.mp hall
      rw [List.cons_append, clauseOf_cons hx, Bool.or_eq_true]
      exact .inl (ih hall)

theorem endsClause_append {third : List Char} (hne : third ≠ []) (hblank : Blank third)
    (h : Quoted specifier rest text) : endsClause ("from".toList ++ (third ++ text)) = true := by
  obtain ⟨x, third, rfl⟩ := List.exists_cons_of_ne_nil hne
  obtain ⟨hx, hblank⟩ := List.forall_mem_cons.mp hblank
  have hdrop : (third ++ text).dropWhile isSpace = text := dropWhile_append_of_stops hblank h.stops
  obtain ⟨opening, closing, hopening, -, -, -, rfl⟩ := h
  have htext : "from".toList ++ (x :: third ++ opening :: (specifier ++ closing :: rest)) =
      'f' :: 'r' :: 'o' :: 'm' :: x :: (third ++ opening :: (specifier ++ closing :: rest)) := rfl
  rw [htext, endsClause, hdrop, hx]
  simp [not_isClauseChar hopening]

theorem allows_clauseOutlook (front : List Char) {between source : List Char}
    (hclause : ImportClause between)
    (hquoted : Quoted specifier rest source) :
    (clauseOutlook (front ++ (between ++ source))).allows front.length = true := by
  have hall := hclause.isClauseChar
  rw [clauseOutlook, allows_outlook]
  change ((clauseOf (between ++ source)).hasRequest &&
    ((clauseOf (between ++ source)).isBlank || (clauseOf (between ++ source)).hasSource)) = true
  rw [hasRequest_append hall, clauseOf_quoted hquoted, Bool.true_and, Bool.or_eq_true]
  rcases hclause with ⟨-, hblank⟩ | ⟨first, names, second, third, hfirst, hblank, hnames, hall',
    hsecond, hblank',
    hthird, hblank'', rfl⟩
  · left
    rw [isBlank_append hblank, clauseOf_quoted hquoted]
  · right
    obtain ⟨init, x, rfl⟩ := exists_append_singleton hsecond
    have hx : isSpace x = true := hblank' x (by simp)
    have hx' : isClauseChar x = true := isClauseChar_of_blank hblank' x (by simp)
    have hfront : ∀ y ∈ first ++ names ++ init, isClauseChar y = true := by
      intro y hy
      refine hall y ?_
      simp only [List.mem_append] at hy ⊢
      rcases hy with (hy | hy) | hy <;> simp [hy]
    have hplace : first ++ names ++ (init ++ [x]) ++ "from".toList ++ third ++ source =
        (first ++ names ++ init) ++ x :: ("from".toList ++ (third ++ source)) := by simp
    rw [hplace]
    refine hasSource_append hfront ?_
    rw [clauseOf_cons hx', hx, endsClause_append hthird hblank'' hquoted]
    simp

theorem isSome_importStatement : (importStatement previous (clauseOutlook text) text).isSome ↔
    atWordStart previous = true ∧ ImportStatement text := by
  cases hstart : atWordStart previous with
  | false => simp [importStatement, hstart]
  | true =>
      rw [importStatement, hstart, and_iff_right rfl]
      simp only [Bool.not_true, Bool.false_eq_true, if_false, Option.bind_eq_bind, isSome_bind,
        literal_eq_some]
      constructor
      · rintro ⟨c, hword, h⟩
        obtain ⟨htext, -⟩ := passes_start.mp hword
        split at h
        · exact absurd h (by simp)
        split at h
        · exact absurd h (by simp)
        · rename_i hclause
          obtain ⟨⟨r, d⟩, hrequest, -⟩ := isSome_bind.mp h
          simp only [Bool.not_eq_true, Bool.not_eq_false'] at hclause
          rw [isImportClause_iff (forall_mem_run _ _)] at hclause
          refine ⟨c.run isClauseChar, (c.skip isClauseChar).rest, _, _, ?_, hclause,
            (quotedRequest_eq_some.mp hrequest).1⟩
          rw [htext, (passes_skip isClauseChar c).1]
      · rintro ⟨between, source, specifier, rest, htext, hclause, hquoted⟩
        let c : Cursor := ⟨6, between ++ source⟩
        let d : Cursor := ⟨6 + between.length, source⟩
        have hall := hclause.isClauseChar
        have hstops : Stops isClauseChar source := by
          obtain ⟨opening, closing, hopening, -, -, -, rfl⟩ := hquoted
          exact stops_cons.mpr (not_isClauseChar hopening)
        have hpass : Passes c between d := ⟨rfl, rfl⟩
        have hhead : c.rest.head?.any isSpace = true := hclause.head source
        refine ⟨c, passes_start.mpr ⟨htext, rfl⟩, ?_⟩
        rw [htext]
        have hallows : (clauseOutlook ("import".toList ++ (between ++ source))).allows c.taken =
            true :=
          allows_clauseOutlook "import".toList hclause hquoted
        rw [hallows, hhead, run_eq hall hpass hstops, skip_eq hall hpass hstops,
          (isImportClause_iff hall).mpr hclause]
        obtain ⟨e, -, hrequest⟩ := Quoted.request (c := d) hquoted
        simp [hrequest]

end WebBundle.Proofs.StatementForms
