import WebBundle.Proofs.CallForms
import WebBundle.Style.Imports

namespace WebBundle.Proofs.ImportRules

open Text Style TextSearch
open WebBundle.Proofs.CallForms (Blank passes_start)

variable {front quote written body stop text rest word : List Char} {c d : Cursor}
variable {p : Char → Bool} {previous : Option Char} {outlook : Outlook}

theorem optional_eq {x : Char} (hx : p x = true) (hpass : Passes c [x] d) : c.optional p = d := by
  rw [Cursor.optional, one_eq_some.mpr ⟨x, hx, hpass⟩, Option.getD_some]

theorem optional_of_stops (h : Stops p c.rest) : c.optional p = c := by
  have hone : c.one p = none := by
    rw [Option.eq_none_iff_forall_ne_some]
    intro d hd
    obtain ⟨x, hx, hpass⟩ := one_eq_some.mp hd
    rw [hpass.1, List.singleton_append, stops_cons, hx] at h
    exact absurd h (by simp)
  rw [Cursor.optional, hone, Option.getD_none]

theorem passes_optional (p : Char → Bool) (c : Cursor) :
    ∃ word, (word = [] ∨ ∃ x, p x = true ∧ word = [x]) ∧ Passes c word (c.optional p) := by
  cases hone : c.one p with
  | none => exact ⟨[], .inl rfl, by simp [Cursor.optional, hone, Passes]⟩
  | some d =>
      obtain ⟨x, hx, hpass⟩ := one_eq_some.mp hone
      exact ⟨[x], .inr ⟨x, hx, rfl⟩, by rwa [optional_eq hx hpass]⟩

theorem passes_nil : Passes c [] d ↔ c = d := by
  obtain ⟨n, text⟩ := c
  obtain ⟨m, rest⟩ := d
  simp [Passes, and_comm, eq_comm]

theorem passes_cons {x : Char} : Passes c (x :: word) d ↔ ∃ e, Passes c [x] e ∧ Passes e word d := by
  rw [← List.singleton_append, passes_append]

theorem skip_of_stops (h : Stops p c.rest) : c.skip p = c :=
  skip_eq (by simp) (passes_nil.mpr rfl) h

theorem skip_of_passes (hword : ∀ x ∈ word, p x = true) (hpass : Passes c word d) :
    d.skip p = c.skip p := by
  have hall : ∀ x ∈ word ++ d.run p, p x = true := by
    intro x hx
    rcases List.mem_append.mp hx with hx | hx
    · exact hword x hx
    · exact forall_mem_run p d x hx
  exact (skip_eq hall (hpass.trans (passes_skip p d)) (stops_skip p d)).symm

theorem eq_of_isQuote {q : Char} (hq : isQuote q = true) : q = '"' ∨ q = '\'' := by
  simpa [isQuote] using hq

theorem isSpace_of_isQuote {q : Char} (hq : isQuote q = true) : isSpace q = false := by
  rcases eq_of_isQuote hq with rfl | rfl <;> decide

theorem isSpace_of_isRuleChar {x : Char} (hx : isRuleChar x = true) : isSpace x = false := by
  rw [isRuleChar, Bool.not_eq_true', Bool.or_eq_false_iff] at hx
  exact hx.2

/-- A reference of a rule, the quote that may open it, and what follows. -/
structure Refers (quote written rest : List Char) : Prop where
  quote : quote = [] ∨ ∃ q, isQuote q = true ∧ quote = [q]
  nonempty : written ≠ []
  written : ∀ x ∈ written, isRuleChar x = true
  rest : Stops isRuleChar rest

/-- No reference begins here. -/
def Bare (text : List Char) : Prop :=
  Stops isRuleChar text ∧ ∀ q rest, isQuote q = true → text = q :: rest → Stops isRuleChar rest

theorem isRuleChar_of_isQuote {q : Char} (hq : isQuote q = true) : isRuleChar q = false := by
  simp [isRuleChar, hq]

theorem isQuote_of_isRuleChar {x : Char} (hx : isRuleChar x = true) : isQuote x = false := by
  rw [Bool.eq_false_iff]
  intro hquote
  exact absurd hx (by simp [isRuleChar_of_isQuote hquote])

theorem ruleReference_eq_some {find : Reference × Cursor} : ruleReference c = some find ↔
    ∃ quote, Refers quote find.1.written find.2.rest ∧
      Passes c (quote ++ find.1.written) find.2 ∧ find.1.offset = c.taken + quote.length := by
  obtain ⟨⟨written, offset⟩, d⟩ := find
  constructor
  · intro h
    obtain ⟨quote, hquote, hpass⟩ := passes_optional isQuote c
    rw [ruleReference] at h
    split at h
    · exact absurd h (by simp)
    · rename_i hne
      simp only [Option.some.injEq, Prod.mk.injEq, Reference.mk.injEq] at h
      obtain ⟨⟨rfl, rfl⟩, rfl⟩ := h
      exact ⟨quote, ⟨hquote, hne, forall_mem_run _ _, stops_skip _ _⟩,
        hpass.trans (passes_skip _ _), hpass.2⟩
  · rintro ⟨quote, ⟨hquote, hne, hwritten, hrest⟩, hpass, rfl⟩
    let opened : Cursor := ⟨c.taken + quote.length, written ++ d.rest⟩
    have hopened : c.optional isQuote = opened := by
      rcases hquote with rfl | ⟨q, hq, rfl⟩
      · have hc : c = opened := by
          obtain ⟨n, text⟩ := c
          exact congrArg (Cursor.mk n) hpass.1
        rw [← hc]
        refine optional_of_stops ?_
        obtain ⟨x, rear, rfl⟩ := List.exists_cons_of_ne_nil hne
        rw [hpass.1]
        exact stops_cons.mpr (isQuote_of_isRuleChar (hwritten x List.mem_cons_self))
      · exact optional_eq hq ⟨by simpa using hpass.1, rfl⟩
    have hbehind : Passes opened written d := by
      refine ⟨rfl, ?_⟩
      rw [hpass.2, List.length_append, Nat.add_assoc]
    have hrun : opened.run isRuleChar = written := run_eq hwritten hbehind hrest
    have hskip : opened.skip isRuleChar = d := skip_eq hwritten hbehind hrest
    have hne : written ≠ [] := hne
    simp only [ruleReference, hopened, hrun, hskip, if_neg hne, opened]

theorem run_eq_nil : c.run p = [] ↔ Stops p c.rest := by
  rw [Cursor.run]
  cases c.rest with
  | nil => simp [Stops]
  | cons x rest => cases hx : p x <;> simp [hx]

theorem ruleReference_eq_none : ruleReference c = none ↔ Bare c.rest := by
  have hread : ruleReference c = none ↔ Stops isRuleChar (c.optional isQuote).rest := by
    rw [← run_eq_nil, ruleReference]
    split <;> simp_all
  rw [hread]
  obtain ⟨n, text⟩ := c
  cases text with
  | nil => simp [Cursor.optional, Cursor.one, Stops, Bare]
  | cons q rest =>
      by_cases hq : isQuote q = true
      · have hopened : Cursor.optional isQuote ⟨n, q :: rest⟩ = ⟨n + 1, rest⟩ :=
          optional_eq hq ⟨rfl, rfl⟩
        rw [hopened]
        refine ⟨fun h => ⟨stops_cons.mpr (isRuleChar_of_isQuote hq), ?_⟩,
          fun h => h.2 q rest hq rfl⟩
        rintro _ _ - heq
        obtain ⟨-, rfl⟩ := List.cons.inj heq
        exact h
      · rw [optional_of_stops (stops_cons.mpr (by simpa using hq))]
        refine ⟨fun h => ⟨h, ?_⟩, fun h => h.1⟩
        rintro _ _ hq' heq
        obtain ⟨rfl, -⟩ := List.cons.inj heq
        exact absurd hq' hq

theorem Refers.stops_isSpace (h : Refers quote written rest) :
    Stops isSpace (quote ++ written ++ rest) := by
  obtain ⟨x, rear, rfl⟩ := List.exists_cons_of_ne_nil h.nonempty
  rcases h.quote with rfl | ⟨q, hq, rfl⟩
  · exact stops_cons.mpr (isSpace_of_isRuleChar (h.written x List.mem_cons_self))
  · exact stops_cons.mpr (isSpace_of_isQuote hq)

/-- What stands before a reference: the mark, blanks, an opening `url(` if a reference can follow it, and
a quote. -/
inductive Opens : (front written rest : List Char) → Prop where
  | url {spaces blanks quote written rest : List Char} (hne : spaces ≠ []) (hspaces : Blank spaces)
      (hblanks : Blank blanks) (href : Refers quote written rest) :
      Opens ("@import".toList ++ spaces ++ ("url(".toList ++ blanks ++ quote)) written rest
  | plain {spaces quote written rest : List Char} (hne : spaces ≠ []) (hspaces : Blank spaces)
      (href : Refers quote written rest)
      (hbare : quote = [] → ∀ behind, written = "url(".toList ++ behind →
        Bare ((behind ++ rest).dropWhile isSpace)) :
      Opens ("@import".toList ++ spaces ++ quote) written rest

theorem Opens.exists_blank (h : Opens front written rest) :
    ∃ x more, isSpace x = true ∧ front = "@import".toList ++ x :: more := by
  cases h with
  | url hne hspaces | plain hne hspaces =>
      obtain ⟨x, more, rfl⟩ := List.exists_cons_of_ne_nil hne
      exact ⟨x, _, hspaces x List.mem_cons_self, List.append_assoc ..⟩

theorem Opens.stops (h : Opens front written rest) : Stops isRuleChar rest := by
  cases h with
  | url _ _ _ hrefers | plain _ _ hrefers _ => exact hrefers.rest

theorem Opens.forall_isRuleChar (h : Opens front written rest) : ∀ x ∈ written, isRuleChar x = true := by
  cases h with
  | url _ _ _ hrefers | plain _ _ hrefers _ => exact hrefers.written

theorem slash_not_mem_blank (h : Blank word) : '/' ∉ word := fun hslash => absurd (h '/' hslash) (by decide)

theorem Refers.slash_not_mem (h : Refers quote written rest) : '/' ∉ quote := by
  rcases h.quote with rfl | ⟨q, hq, rfl⟩
  · exact List.not_mem_nil
  · rintro hslash
    rw [← List.mem_singleton.mp hslash] at hq
    exact absurd hq (by decide)

theorem Opens.slash_not_mem (h : Opens front written rest) : '/' ∉ front := by
  have hmark : '/' ∉ "@import".toList ∧ '/' ∉ "url(".toList := by decide
  cases h with
  | url _ hspaces hblanks hrefers =>
      simp only [List.mem_append, not_or]
      exact ⟨⟨hmark.1, slash_not_mem_blank hspaces⟩,
        ⟨hmark.2, slash_not_mem_blank hblanks⟩, hrefers.slash_not_mem⟩
  | plain _ hspaces hrefers _ =>
      simp only [List.mem_append, not_or]
      exact ⟨⟨hmark.1, slash_not_mem_blank hspaces⟩, hrefers.slash_not_mem⟩

/-- The reference behind `url(`. -/
def urlReferenceFrom (c : Cursor) : Option (Reference × Cursor) :=
  ((c.literal "url(".toList).map (Cursor.skip isSpace)).bind ruleReference

theorem urlReferenceFrom_eq_some {find : Reference × Cursor} : urlReferenceFrom c = some find ↔
    ∃ blanks quote, Blank blanks ∧ Refers quote find.1.written find.2.rest ∧
      Passes c ("url(".toList ++ blanks ++ quote ++ find.1.written) find.2 ∧
      find.1.offset = c.taken + ("url(".toList ++ blanks ++ quote).length := by
  simp only [urlReferenceFrom, Option.bind_eq_some_iff, Option.map_eq_some_iff, literal_eq_some]
  constructor
  · rintro ⟨_, ⟨d, hurl, rfl⟩, href⟩
    obtain ⟨quote, hrefers, hpass, hoffset⟩ := ruleReference_eq_some.mp href
    have hblanks := hurl.trans (passes_skip isSpace d)
    refine ⟨d.run isSpace, quote, forall_mem_run _ _, hrefers, ?_, ?_⟩
    · simpa only [List.append_assoc] using hblanks.trans hpass
    · simp only [hoffset, hblanks.2, List.length_append, Nat.add_assoc]
  · rintro ⟨blanks, quote, hblanks, hrefers, hpass, hoffset⟩
    obtain ⟨e, hfront, hwritten⟩ := passes_append.mp hpass
    obtain ⟨d, hbefore, hquote⟩ := passes_append.mp hfront
    obtain ⟨u, hurl, hskip⟩ := passes_append.mp hbefore
    have hpass' := hquote.trans hwritten
    have hstops : Stops isSpace d.rest := by
      rw [hpass'.1]
      exact hrefers.stops_isSpace
    have hd : u.skip isSpace = d := skip_eq hblanks hskip hstops
    refine ⟨d, ⟨u, hurl, hd⟩, ruleReference_eq_some.mpr ⟨quote, hrefers, hpass', ?_⟩⟩
    simp only [hoffset, hbefore.2, List.length_append, Nat.add_assoc]

theorem urlReferenceFrom_eq_none : urlReferenceFrom c = none ↔
    ∀ behind, c.rest = "url(".toList ++ behind → Bare (behind.dropWhile isSpace) := by
  cases hurl : c.literal "url(".toList with
  | none =>
      refine iff_of_true (by rw [urlReferenceFrom, hurl]; rfl) fun behind htext => ?_
      have hpass : Passes c "url(".toList ⟨c.taken + 4, behind⟩ := ⟨htext, rfl⟩
      exact absurd (hurl.symm.trans (literal_eq_some.mpr hpass)) (by simp)
  | some d =>
      have htext := (literal_eq_some.mp hurl).1
      have hread : urlReferenceFrom c = ruleReference (d.skip isSpace) := by
        rw [urlReferenceFrom, hurl]
        rfl
      rw [hread, ruleReference_eq_none]
      refine ⟨fun h behind hbehind => ?_, fun h => h d.rest htext⟩
      obtain rfl : d.rest = behind := List.append_cancel_left (htext.symm.trans hbehind)
      exact h

theorem Refers.exists_of_append {behind : List Char} (h : Refers quote written rest)
    (hne : word ≠ []) (hword : ∀ x ∈ word, isRuleChar x = true)
    (htext : quote ++ written ++ rest = word ++ behind) :
    quote = [] ∧ ∃ rear, written = word ++ rear ∧ behind = rear ++ rest := by
  rcases h.quote with rfl | ⟨q, hq, rfl⟩
  · refine ⟨rfl, ?_⟩
    rw [List.nil_append] at htext
    rcases List.append_eq_append_iff.mp htext with ⟨rear, rfl, hrest⟩ | ⟨rear, hwritten, hbehind⟩
    · cases rear with
      | nil => exact ⟨[], by simp, by simpa using hrest.symm⟩
      | cons x rear =>
          have hx : isRuleChar x = true := hword x (by simp)
          have hstops := h.rest
          rw [hrest, List.cons_append, stops_cons, hx] at hstops
          exact absurd hstops (by simp)
    · exact ⟨rear, hwritten, hbehind⟩
  · obtain ⟨x, rear, rfl⟩ := List.exists_cons_of_ne_nil hne
    obtain ⟨rfl, -⟩ := List.cons.inj htext
    have hx := hword q List.mem_cons_self
    rw [isRuleChar_of_isQuote hq] at hx
    exact absurd hx (by simp)

theorem importReference_eq_bind : importReference text =
    (((Cursor.start text).literal "@import".toList).bind (Cursor.some1 isSpace)).bind fun c =>
      (urlReferenceFrom c).or (ruleReference c) := by
  rw [importReference, Option.bind_eq_bind, Option.bind_assoc]
  refine congrArg _ (funext fun c => congrArg _ (funext fun d => ?_))
  rw [urlReferenceFrom]
  cases ((d.literal "url(".toList).map (Cursor.skip isSpace)).bind ruleReference <;> rfl

theorem passes_mark : ((Cursor.start text).literal "@import".toList).bind (Cursor.some1 isSpace) =
    some c ↔ ∃ spaces, spaces ≠ [] ∧ Blank spaces ∧ Stops isSpace c.rest ∧
      Passes (Cursor.start text) ("@import".toList ++ spaces) c := by
  simp only [Option.bind_eq_some_iff, literal_eq_some, some1_eq_some, passes_append]
  constructor
  · rintro ⟨d, hmark, spaces, hne, hspaces, hrest, hpass⟩
    exact ⟨spaces, hne, hspaces, hrest, d, hmark, hpass⟩
  · rintro ⟨spaces, hne, hspaces, hrest, d, hmark, hpass⟩
    exact ⟨d, hmark, spaces, hne, hspaces, hrest, hpass⟩

theorem importReference_eq_some {find : Reference × Cursor} : importReference text = some find ↔
    ∃ front, Opens front find.1.written find.2.rest ∧
      Passes (Cursor.start text) (front ++ find.1.written) find.2 ∧ find.1.offset = front.length := by
  rw [importReference_eq_bind, Option.bind_eq_some_iff]
  simp only [passes_mark, Option.or_eq_some_iff]
  constructor
  · rintro ⟨c, ⟨spaces, hne, hspaces, -, hmark⟩, hurl | ⟨hnone, href⟩⟩
    · obtain ⟨blanks, quote, hblanks, hrefers, hpass, hoffset⟩ := urlReferenceFrom_eq_some.mp hurl
      refine ⟨_, .url hne hspaces hblanks hrefers, ?_, ?_⟩
      · rw [List.append_assoc]
        exact hmark.trans hpass
      · rw [hoffset, (passes_start.mp hmark).2, ← List.length_append]
    · obtain ⟨quote, hrefers, hpass, hoffset⟩ := ruleReference_eq_some.mp href
      refine ⟨_, .plain hne hspaces hrefers ?_, ?_, ?_⟩
      · rintro rfl behind hbehind
        refine urlReferenceFrom_eq_none.mp hnone (behind ++ find.2.rest) ?_
        rw [hpass.1, hbehind, List.nil_append, List.append_assoc]
      · rw [List.append_assoc]
        exact hmark.trans hpass
      · rw [hoffset, (passes_start.mp hmark).2, ← List.length_append]
  · rintro ⟨front, hopens, hpass, hoffset⟩
    obtain ⟨e, hfront, hwritten⟩ := passes_append.mp hpass
    cases hopens with
    | @url spaces blanks quote _ _ hne hspaces hblanks hrefers =>
        obtain ⟨c, hmark, hurl⟩ := passes_append.mp hfront
        have hstops : Stops isSpace c.rest := by
          rw [hurl.1]
          exact stops_cons.mpr (by decide)
        refine ⟨c, ⟨spaces, hne, hspaces, hstops, hmark⟩, .inl (urlReferenceFrom_eq_some.mpr
          ⟨blanks, quote, hblanks, hrefers, hurl.trans hwritten, ?_⟩)⟩
        rw [hoffset, (passes_start.mp hmark).2, ← List.length_append]
    | @plain spaces quote _ _ hne hspaces hrefers hbare =>
        obtain ⟨c, hmark, hquote⟩ := passes_append.mp hfront
        have href := hquote.trans hwritten
        have hstops : Stops isSpace c.rest := by
          rw [href.1]
          exact hrefers.stops_isSpace
        refine ⟨c, ⟨spaces, hne, hspaces, hstops, hmark⟩, .inr ⟨?_, ruleReference_eq_some.mpr
          ⟨quote, hrefers, href, ?_⟩⟩⟩
        · refine urlReferenceFrom_eq_none.mpr fun behind hbehind => ?_
          have hurl : ∀ x ∈ "url(".toList, isRuleChar x = true := forall_mem_of_all (by decide)
          obtain ⟨hunquoted, rear, hrear, rfl⟩ :=
            hrefers.exists_of_append (by decide) hurl (href.1.symm.trans hbehind)
          exact hbare hunquoted rear hrear
        · rw [hoffset, (passes_start.mp hmark).2, ← List.length_append]

theorem importReference_eq_none {spaces : List Char} (hne : spaces ≠ []) (hspaces : Blank spaces)
    (hrest : Stops isSpace rest) :
    importReference ("@import".toList ++ spaces ++ rest) = none ↔ Bare rest := by
  let c : Cursor := ⟨("@import".toList ++ spaces).length, rest⟩
  have hpass : Passes (Cursor.start ("@import".toList ++ spaces ++ rest)) ("@import".toList ++ spaces) c :=
    passes_start.mpr ⟨rfl, rfl⟩
  have hmark := passes_mark.mpr ⟨spaces, hne, hspaces, hrest, hpass⟩
  rw [importReference_eq_bind, hmark, Option.bind_some, Option.or_eq_none_iff, ruleReference_eq_none,
    and_iff_right_of_imp]
  intro hbare
  refine urlReferenceFrom_eq_none.mpr fun behind hbehind => ?_
  have hstops : Stops isRuleChar c.rest := hbare.1
  rw [hbehind] at hstops
  exact absurd (stops_cons.mp hstops) (by decide)

def isInRule (x : Char) : Bool := !(x == ';' || x == '\n')

/-- The place behind a rule whose reference ends here. -/
def ruleEnd (c : Cursor) : Cursor :=
  (((c.skip isInRule).optional (· == ';')).skip isInlineBlank).optional (· == '\n')

/-- What ends a rule: its semicolon, with the blanks and the line break behind it, or else the end of its
line or of the text. -/
inductive Ends : (stop rest : List Char) → Prop where
  | text : Ends [] []
  | line {rest : List Char} : Ends ['\n'] rest
  | blanks {blanks rest : List Char} (hblanks : ∀ x ∈ blanks, isInlineBlank x = true)
      (hrest : Stops isInlineBlank rest) (hbreak : rest.head? ≠ some '\n') : Ends (';' :: blanks) rest
  | blanksLine {blanks rest : List Char} (hblanks : ∀ x ∈ blanks, isInlineBlank x = true) :
      Ends (';' :: (blanks ++ ['\n'])) rest

theorem isInRule_of_isQuote {x : Char} (hx : isQuote x = true) : isInRule x = true := by
  rcases eq_of_isQuote hx with rfl | rfl <;> decide

theorem eq_of_isInlineBlank {x : Char} (hx : isInlineBlank x = true) : x = ' ' ∨ x = '\t' := by
  simpa [isInlineBlank] using hx

theorem isInRule_of_isInlineBlank {x : Char} (hx : isInlineBlank x = true) : isInRule x = true := by
  rcases eq_of_isInlineBlank hx with rfl | rfl <;> decide

theorem isSpace_of_isInlineBlank {x : Char} (hx : isInlineBlank x = true) : isSpace x = true := by
  rcases eq_of_isInlineBlank hx with rfl | rfl <;> decide

theorem importRule_eq : importRule previous outlook text =
    (importReference text).map fun find => ⟨find.1, (ruleEnd find.2).taken⟩ := by
  rw [importRule, Option.bind_eq_bind, Option.map_eq_bind]
  refine congrArg _ (funext fun (reference, c) => ?_)
  let closed := ((c.optional isQuote).skip isInlineBlank).optional (· == ')')
  have hskip : closed.skip isInRule = c.skip isInRule := by
    obtain ⟨quote, hquote, hfirst⟩ := passes_optional isQuote c
    obtain ⟨paren, hparen, hlast⟩ :=
      passes_optional (· == ')') ((c.optional isQuote).skip isInlineBlank)
    refine skip_of_passes ?_ ((hfirst.trans (passes_skip _ _)).trans hlast)
    intro x hx
    rw [List.mem_append, List.mem_append] at hx
    rcases hx with (hx | hx) | hx
    · rcases hquote with rfl | ⟨q, hq, rfl⟩
      · exact absurd hx List.not_mem_nil
      · exact List.mem_singleton.mp hx ▸ isInRule_of_isQuote hq
    · exact isInRule_of_isInlineBlank (forall_mem_run _ _ x hx)
    · rcases hparen with rfl | ⟨y, hy, rfl⟩
      · exact absurd hx List.not_mem_nil
      · obtain rfl : x = ')' := (List.mem_singleton.mp hx).trans (beq_iff_eq.mp hy)
        decide
  exact congrArg (fun d : Cursor => some (⟨reference,
    (((d.optional (· == ';')).skip isInlineBlank).optional (· == '\n')).taken⟩ : Found Reference)) hskip

theorem Ends.unmarked (h : Ends stop rest) : ∀ x ∈ stop, x ≠ '/' ∧ x ≠ '*' := by
  have hblank {x : Char} (hx : isInlineBlank x = true) : x ≠ '/' ∧ x ≠ '*' := by
    rcases eq_of_isInlineBlank hx with rfl | rfl <;> decide
  have hmarks : ∀ x ∈ [';', '\n'], x ≠ '/' ∧ x ≠ '*' := forall_mem_of_all (by decide)
  intro x hx
  cases h with
  | text => exact absurd hx List.not_mem_nil
  | line => exact hmarks x (List.mem_cons_of_mem _ hx)
  | blanks hblanks =>
      rcases List.mem_cons.mp hx with rfl | hx
      · exact hmarks _ List.mem_cons_self
      · exact hblank (hblanks x hx)
  | blanksLine hblanks =>
      rcases List.mem_cons.mp hx with rfl | hx
      · exact hmarks _ List.mem_cons_self
      · rcases List.mem_append.mp hx with hx | hx
        · exact hblank (hblanks x hx)
        · exact hmarks x (List.mem_cons_of_mem _ hx)

theorem Ends.stops_isInRule (h : Ends stop rest) : Stops isInRule (stop ++ rest) := by
  cases h with
  | text => simp [Stops]
  | line | blanks | blanksLine => exact stops_cons.mpr (by decide)

theorem ruleEnd_eq (hbody : ∀ x ∈ body, isInRule x = true) (hends : Ends stop d.rest)
    (hpass : Passes c (body ++ stop) d) : ruleEnd c = d := by
  obtain ⟨e, hin, hstop⟩ := passes_append.mp hpass
  have hskip : c.skip isInRule = e := skip_eq hbody hin (hstop.1 ▸ hends.stops_isInRule)
  rw [ruleEnd, hskip]
  generalize hrest : d.rest = rest at hends
  cases hends with
  | text =>
      obtain rfl := passes_nil.mp hstop
      have hstops (p : Char → Bool) : Stops p e.rest := by simp [hrest, Stops]
      rw [optional_of_stops (hstops _), skip_of_stops (hstops _), optional_of_stops (hstops _)]
  | line =>
      have hstops {p : Char → Bool} (hp : p '\n' = false) : Stops p e.rest := by
        rw [hstop.1]
        exact stops_cons.mpr hp
      rw [optional_of_stops (hstops (by decide)), skip_of_stops (hstops (by decide))]
      exact optional_eq (by decide) hstop
  | @blanks blanks _ hblanks hstops hbreak =>
      obtain ⟨f, hsemicolon, hpass⟩ := passes_cons.mp hstop
      rw [optional_eq (by decide) hsemicolon, skip_eq hblanks hpass (hrest ▸ hstops)]
      refine optional_of_stops fun x hx => beq_false_of_ne ?_
      rintro rfl
      exact hbreak (hrest ▸ hx)
  | @blanksLine blanks _ hblanks =>
      obtain ⟨f, hsemicolon, hline⟩ := passes_cons.mp hstop
      obtain ⟨g, hpass, hbreak⟩ := passes_append.mp hline
      have hstops : Stops isInlineBlank g.rest := by
        rw [hbreak.1]
        exact stops_cons.mpr (by decide)
      rw [optional_eq (by decide) hsemicolon, skip_eq hblanks hpass hstops]
      exact optional_eq (by decide) hbreak

theorem exists_ends (c : Cursor) : ∃ body stop, (∀ x ∈ body, isInRule x = true) ∧
    Ends stop (ruleEnd c).rest ∧ Passes c (body ++ stop) (ruleEnd c) := by
  suffices h : ∃ stop d, Ends stop d.rest ∧ Passes (c.skip isInRule) stop d by
    obtain ⟨stop, d, hends, hstop⟩ := h
    have hpass := (passes_skip isInRule c).trans hstop
    obtain rfl := ruleEnd_eq (forall_mem_run _ _) hends hpass
    exact ⟨_, stop, forall_mem_run _ _, hends, hpass⟩
  obtain ⟨n, rest, hin⟩ : ∃ n rest, c.skip isInRule = ⟨n, rest⟩ := ⟨_, _, rfl⟩
  have hstops : Stops isInRule rest := by simpa [hin] using stops_skip isInRule c
  rw [hin]
  cases rest with
  | nil => exact ⟨[], ⟨n, []⟩, .text, rfl, rfl⟩
  | cons x rest =>
      have hx : x = ';' ∨ x = '\n' := by simpa [isInRule, or_iff_not_imp_left] using stops_cons.mp hstops
      rcases hx with rfl | rfl
      · let f : Cursor := ⟨n + 1, rest⟩
        have hsemicolon : Passes ⟨n, ';' :: rest⟩ [';'] f := ⟨rfl, rfl⟩
        have hblanks := hsemicolon.trans (passes_skip isInlineBlank f)
        by_cases hbreak : (f.skip isInlineBlank).rest.head? = some '\n'
        · obtain ⟨rear, hrear⟩ := List.head?_eq_some_iff.mp hbreak
          have hline : Passes (f.skip isInlineBlank) ['\n'] ⟨(f.skip isInlineBlank).taken + 1, rear⟩ :=
            ⟨hrear, rfl⟩
          exact ⟨_, _, .blanksLine (forall_mem_run _ f), hblanks.trans hline⟩
        · exact ⟨_, _, .blanks (forall_mem_run _ f) (stops_skip _ f) hbreak, hblanks⟩
      · exact ⟨['\n'], ⟨n + 1, rest⟩, .line, rfl, rfl⟩

/-- An `@import` rule in its parts, and what follows. -/
structure Rule (front written body stop rest : List Char) : Prop where
  opens : Opens front written (body ++ stop ++ rest)
  body : ∀ x ∈ body, isInRule x = true
  ends : Ends stop rest

theorem importRule_eq_some {find : Found Reference} : importRule previous outlook text = some find ↔
    ∃ front written body stop rest, Rule front written body stop rest ∧
      text = front ++ written ++ (body ++ stop) ++ rest ∧
      find = ⟨⟨written, front.length⟩, (front ++ written ++ (body ++ stop)).length⟩ := by
  rw [importRule_eq, Option.map_eq_some_iff]
  constructor
  · rintro ⟨⟨⟨written, offset⟩, c⟩, href, rfl⟩
    obtain ⟨front, hopens, hpass, rfl⟩ := importReference_eq_some.mp href
    obtain ⟨body, stop, hbody, hends, hend⟩ := exists_ends c
    have hrule := passes_start.mp (hpass.trans hend)
    refine ⟨front, written, body, stop, (ruleEnd c).rest, ⟨?_, hbody, hends⟩, hrule.1, ?_⟩
    · rw [← hend.1]
      exact hopens
    · rw [hrule.2]
  · rintro ⟨front, written, body, stop, rest, ⟨hopens, hbody, hends⟩, rfl, rfl⟩
    let c : Cursor := ⟨(front ++ written).length, body ++ stop ++ rest⟩
    let d : Cursor := ⟨(front ++ written ++ (body ++ stop)).length, rest⟩
    have hpass : Passes (Cursor.start (front ++ written ++ (body ++ stop) ++ rest)) (front ++ written) c :=
      passes_start.mpr ⟨List.append_assoc .., rfl⟩
    have hend : Passes c (body ++ stop) d := ⟨rfl, List.length_append⟩
    refine ⟨(⟨written, front.length⟩, c), importReference_eq_some.mpr ⟨front, hopens, hpass, rfl⟩, ?_⟩
    rw [ruleEnd_eq hbody hends hend]

theorem length_of_importRule {find : Found Reference}
    (h : importRule previous outlook text = some find) :
    0 < find.length ∧ find.length ≤ text.length := by
  obtain ⟨front, written, body, stop, rest, hrule, rfl, rfl⟩ := importRule_eq_some.mp h
  obtain ⟨x, more, -, rfl⟩ := hrule.opens.exists_blank
  simp only [List.length_append, List.length_cons]
  omega

/-- Behind a mark with blanks no rule begins if and only if no reference does. -/
theorem importRule_eq_none {spaces : List Char} (hne : spaces ≠ []) (hspaces : Blank spaces)
    (hrest : Stops isSpace rest) :
    importRule previous outlook ("@import".toList ++ spaces ++ rest) = none ↔ Bare rest := by
  rw [importRule_eq, Option.map_eq_none_iff, importReference_eq_none hne hspaces hrest]

end WebBundle.Proofs.ImportRules
