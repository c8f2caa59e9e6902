import WebBundle.Proofs.TextSearch
import WebBundle.Script.Imports

namespace WebBundle.Proofs.CallForms

open Text Script TextSearch

variable {specifier rest text : List Char} {c d : Cursor} {previous : Option Char}

def Blank (text : List Char) : Prop := ∀ c ∈ text, isSpace c = true

/-- A quoted specifier and what follows it. -/
def Quoted (specifier rest text : List Char) : Prop :=
  ∃ opening closing, isQuote opening = true ∧ isQuote closing = true ∧ specifier ≠ [] ∧
    (∀ x ∈ specifier, isSpecifierChar x = true) ∧ text = opening :: (specifier ++ closing :: rest)

/-- A quoted specifier with a closing parenthesis behind it, and what follows. -/
def Argument (specifier rest text : List Char) : Prop :=
  ∃ blanks, Blank blanks ∧ Quoted specifier (blanks ++ ')' :: rest) text

theorem exists_append_singleton (h : text ≠ []) : ∃ init last, text = init ++ [last] :=
  ⟨_, _, (List.dropLast_concat_getLast h).symm⟩

theorem isSpace_of_isQuote {x : Char} (hx : isQuote x = true) : isSpace x = false := by
  have hquotes : x = '"' ∨ x = '\'' := by simpa [isQuote] using hx
  rcases hquotes with rfl | rfl <;> decide

theorem not_isSpecifierChar {x : Char} (hx : isQuote x = true) : isSpecifierChar x = false := by
  simp [isSpecifierChar, hx]

theorem Quoted.stops (h : Quoted specifier rest text) : Stops isSpace text := by
  obtain ⟨opening, closing, hopening, -, -, -, rfl⟩ := h
  exact stops_cons.mpr (isSpace_of_isQuote hopening)

theorem quotedRequest_eq_some {r : Request} : quotedRequest c = some (r, d) ↔
    Quoted r.specifier d.rest c.rest ∧ r.offset = c.taken + 1 ∧
      d.taken + d.rest.length = c.taken + c.rest.length := by
  constructor
  · intro h
    simp only [quotedRequest, Option.bind_eq_bind, Option.bind_eq_some_iff, one_eq_some] at h
    obtain ⟨opened, ⟨opening, hopening, hopened⟩, h⟩ := h
    split at h
    · exact absurd h (by simp)
    · rename_i hne
      simp only [Option.bind_eq_some_iff, one_eq_some, Option.pure_def, Option.some.injEq,
        Prod.mk.injEq] at h
      obtain ⟨closed, ⟨closing, hclosing, hclosed⟩, rfl, rfl⟩ := h
      have hpass := (hopened.trans (passes_skip isSpecifierChar opened)).trans hclosed
      refine ⟨⟨opening, closing, hopening, hclosing, hne, forall_mem_run _ _, ?_⟩, hopened.2,
        hpass.length_eq⟩
      simpa using hpass.1
  · obtain ⟨specifier, offset⟩ := r
    rintro ⟨⟨opening, closing, hopening, hclosing, hne, hall, htext⟩, hoffset, htaken⟩
    let opened : Cursor := ⟨c.taken + 1, specifier ++ closing :: d.rest⟩
    let closed : Cursor := ⟨c.taken + 1 + specifier.length, closing :: d.rest⟩
    have hopened : c.one isQuote = some opened := one_eq_some.mpr ⟨opening, hopening, htext, rfl⟩
    have hpass : Passes opened specifier closed := ⟨rfl, rfl⟩
    have hstops : Stops isSpecifierChar closed.rest := stops_cons.mpr (not_isSpecifierChar hclosing)
    have hdone : closed.one isQuote = some d := by
      refine one_eq_some.mpr ⟨closing, hclosing, rfl, ?_⟩
      rw [htext] at htaken
      simp only [List.length_cons, List.length_append] at htaken
      simp only [closed, List.length_cons, List.length_nil]
      omega
    have hrun : opened.run isSpecifierChar = specifier := run_eq hall hpass hstops
    have hskip : opened.skip isSpecifierChar = closed := skip_eq hall hpass hstops
    have hoffset : opened.taken = offset := hoffset.symm
    have hne : specifier ≠ [] := hne
    simp [quotedRequest, hopened, hrun, hskip, hne, hdone, hoffset]

theorem Quoted.request (h : Quoted specifier rest c.rest) :
    ∃ d, d.rest = rest ∧ quotedRequest c = some (⟨specifier, c.taken + 1⟩, d) := by
  have hlength : rest.length ≤ c.rest.length := by
    obtain ⟨opening, closing, -, -, -, -, htext⟩ := h
    rw [htext, List.length_cons, List.length_append, List.length_cons]
    omega
  refine ⟨⟨c.taken + c.rest.length - rest.length, rest⟩, rfl, ?_⟩
  exact quotedRequest_eq_some.mpr ⟨h, rfl, Nat.sub_add_cancel (by omega)⟩

theorem isSome_quotedRequest :
    (quotedRequest c).isSome ↔ ∃ specifier rest, Quoted specifier rest c.rest := by
  rw [Option.isSome_iff_exists]
  constructor
  · rintro ⟨⟨r, d⟩, h⟩
    exact ⟨_, _, (quotedRequest_eq_some.mp h).1⟩
  · rintro ⟨specifier, rest, h⟩
    obtain ⟨d, -, hrequest⟩ := h.request
    exact ⟨_, hrequest⟩

theorem argumentRequest_eq_some {find : Found Request} (h : argumentRequest c = some find) :
    ∃ rest, Argument find.value.specifier rest c.rest ∧
      find.length + rest.length = c.taken + c.rest.length := by
  simp only [argumentRequest, Option.bind_eq_bind, Option.bind_eq_some_iff, one_eq_some,
    Option.pure_def,
    Option.some.injEq, Prod.exists, beq_iff_eq] at h
  obtain ⟨r, closed, hquoted, done, ⟨_, rfl, hdone⟩, rfl⟩ := h
  obtain ⟨hquoted, -, hclosed⟩ := quotedRequest_eq_some.mp hquoted
  have hpass := (passes_skip isSpace closed).trans hdone
  refine ⟨done.rest, ⟨closed.run isSpace, forall_mem_run _ _, ?_⟩, hpass.length_eq.trans hclosed⟩
  have hrest : closed.rest = closed.run isSpace ++ ')' :: done.rest := by simpa using hpass.1
  rwa [hrest] at hquoted

theorem isSome_argumentRequest :
    (argumentRequest c).isSome ↔ ∃ specifier rest, Argument specifier rest c.rest := by
  constructor
  · intro h
    obtain ⟨find, hfind⟩ := Option.isSome_iff_exists.mp h
    obtain ⟨rest, hargument, -⟩ := argumentRequest_eq_some hfind
    exact ⟨_, rest, hargument⟩
  · rintro ⟨specifier, rest, blanks, hblanks, hquoted⟩
    obtain ⟨closed, hclosed, hrequest⟩ := hquoted.request
    let done : Cursor := ⟨closed.taken + blanks.length + 1, rest⟩
    let behind : Cursor := ⟨closed.taken + blanks.length, ')' :: rest⟩
    have hskip : closed.skip isSpace = behind :=
      skip_eq hblanks ⟨hclosed, rfl⟩ (stops_cons.mpr (by decide))
    have hdone : behind.one (· == ')') = some done := one_eq_some.mpr ⟨')', by simp, rfl, rfl⟩
    simp [argumentRequest, hrequest, hskip, hdone]

theorem isSome_argumentRequest_skip : (argumentRequest (c.skip isSpace)).isSome ↔
    ∃ blanks behind specifier rest, Blank blanks ∧ c.rest = blanks ++ behind ∧
      Argument specifier rest behind := by
  rw [isSome_argumentRequest]
  constructor
  · rintro ⟨specifier, rest, h⟩
    exact ⟨c.run isSpace, _, specifier, rest, forall_mem_run _ _, (passes_skip isSpace c).1, h⟩
  · rintro ⟨blanks, behind, specifier, rest, hblanks, htext, h⟩
    have hstops : Stops isSpace behind := h.choose_spec.2.stops
    have hskip : c.skip isSpace = ⟨c.taken + blanks.length, behind⟩ :=
      skip_eq hblanks ⟨htext, rfl⟩ hstops
    exact ⟨specifier, rest, by rwa [hskip]⟩

/-- A call of a function, told by what stands behind its opening parenthesis and blanks. -/
def Call (function : List Char) (argument : List Char → Prop) (text : List Char) : Prop :=
  ∃ first second behind, Blank first ∧ Blank second ∧
    text = function ++ (first ++ ['(']) ++ (second ++ behind) ∧ argument behind

theorem passes_start {word : List Char} :
    Passes (Cursor.start text) word d ↔ text = word ++ d.rest ∧ d.taken = word.length := by
  simp [Passes, Cursor.start]

theorem call_eq_some {α : Type} {function : List Char} {read : Cursor → Option α} {value : α} :
    (((Cursor.start text).literal function).bind fun c =>
        ((c.skip isSpace).one (· == '(')).bind read) = some value ↔
      ∃ first d, Blank first ∧ Passes (Cursor.start text) (function ++ (first ++ ['('])) d ∧
        read d = some value := by
  simp only [Option.bind_eq_some_iff, literal_eq_some, one_eq_some, beq_iff_eq, exists_eq_left]
  constructor
  · rintro ⟨c, hword, d, hopen, hread⟩
    exact ⟨c.run isSpace, d, forall_mem_run _ _, hword.trans ((passes_skip isSpace c).trans hopen),
      hread⟩
  · rintro ⟨first, d, hfirst, hpass, hread⟩
    obtain ⟨rfl, htaken⟩ := passes_start.mp hpass
    let c : Cursor := ⟨function.length, first ++ '(' :: d.rest⟩
    have hskip : c.skip isSpace = ⟨function.length + first.length, '(' :: d.rest⟩ :=
      skip_eq hfirst ⟨rfl, rfl⟩ (stops_cons.mpr (by decide))
    refine ⟨c, passes_start.mpr ⟨by simp [c], rfl⟩, d, ?_, hread⟩
    rw [hskip]
    refine ⟨rfl, ?_⟩
    rw [htaken]
    simp [Nat.add_assoc]

/-- A call of `require` with one quoted argument. -/
def RequireCall (text : List Char) : Prop :=
  Call "require".toList (fun behind => ∃ specifier rest, Argument specifier rest behind) text

theorem isSome_requireCall {outlook : Outlook} :
    (requireCall previous outlook text).isSome ↔ atWordStart previous = true ∧
      RequireCall text := by
  cases hstart : atWordStart previous with
  | false => simp [requireCall, hstart]
  | true =>
      rw [requireCall, hstart, Option.isSome_iff_exists]
      simp only [Bool.not_true, Bool.false_eq_true, if_false, Option.bind_eq_bind,
        call_eq_some, true_and]
      constructor
      · rintro ⟨find, first, d, hfirst, hpass, h⟩
        obtain ⟨second, argument, specifier, rest, hsecond, hrest, h⟩ :=
          isSome_argumentRequest_skip.mp (Option.isSome_of_mem h)
        refine ⟨first, second, argument, hfirst, hsecond, ?_, specifier, rest, h⟩
        rw [← hrest]
        exact (passes_start.mp hpass).1
      · rintro ⟨first, second, argument, hfirst, hsecond, htext, specifier, rest, h⟩
        let d : Cursor := ⟨("require".toList ++ (first ++ ['('])).length, second ++ argument⟩
        have hsome : (argumentRequest (d.skip isSpace)).isSome :=
          isSome_argumentRequest_skip.mpr ⟨second, argument, specifier, rest, hsecond, rfl, h⟩
        obtain ⟨find, hfind⟩ := Option.isSome_iff_exists.mp hsome
        exact ⟨find, first, d, hfirst, passes_start.mpr ⟨htext, rfl⟩, hfind⟩

/-- The rest of a block comment that ends on its line, and an argument behind it. -/
def EndedComment (specifier rest text : List Char) : Prop :=
  ∃ inner blanks argument, '\n' ∉ inner ∧ Blank blanks ∧
    text = inner ++ '*' :: '/' :: (blanks ++ argument) ∧ Argument specifier rest argument

theorem endedComment_cons {x : Char} : EndedComment specifier rest (x :: text) ↔
    (∃ blanks argument, Blank blanks ∧ x :: text = '*' :: '/' :: (blanks ++ argument) ∧
      Argument specifier rest argument) ∨ (x ≠ '\n' ∧ EndedComment specifier rest text) := by
  constructor
  · rintro ⟨inner, blanks, argument, hinner, hblanks, htext, h⟩
    cases inner with
    | nil => exact .inl ⟨blanks, argument, hblanks, htext, h⟩
    | cons y inner =>
        obtain ⟨rfl, rfl⟩ := List.cons.inj htext
        rw [List.mem_cons, not_or] at hinner
        exact .inr ⟨Ne.symm hinner.1, inner, blanks, argument, hinner.2, hblanks, rfl, h⟩
  · rintro (⟨blanks, argument, hblanks, htext, h⟩ |
      ⟨hx, inner, blanks, argument, hinner, hblanks, rfl, h⟩)
    · exact ⟨[], blanks, argument, by simp, hblanks, htext, h⟩
    · exact ⟨x :: inner, blanks, argument, by simp [Ne.symm hx, hinner], hblanks, rfl, h⟩

theorem endedComment_end : EndedComment specifier rest ('*' :: '/' :: text) ↔
    (∃ blanks argument, Blank blanks ∧ text = blanks ++ argument ∧
      Argument specifier rest argument) ∨
      EndedComment specifier rest ('/' :: text) := by
  simp [endedComment_cons (x := '*')]

theorem endedComment_inside {x : Char} (h : ∀ behind, x :: text ≠ '*' :: '/' :: behind) :
    EndedComment specifier rest (x :: text) ↔ x ≠ '\n' ∧ EndedComment specifier rest text := by
  rw [endedComment_cons, or_iff_right]
  rintro ⟨blanks, argument, -, htext, -⟩
  exact h _ htext

theorem allows_commentOutlook (front rear : List Char) :
    (commentOutlook (front ++ rear)).allows front.length = true ↔
      ∃ specifier rest, EndedComment specifier rest rear := by
  rw [commentOutlook, allows_outlook]
  induction rear with
  | nil => simp [known, EndedComment]
  | cons x rear ih =>
      simp only [id_eq] at ih
      rw [known]
      split
      · rename_i behind
        simp only [id_eq, Bool.or_eq_true, ih, isSome_argumentRequest_skip, endedComment_end]
        constructor
        · rintro (⟨specifier, rest, h⟩ | ⟨blanks, argument, specifier, rest, hblanks, hbehind, h⟩)
          · exact ⟨specifier, rest, .inr h⟩
          · exact ⟨specifier, rest, .inl ⟨blanks, argument, hblanks, hbehind, h⟩⟩
        · rintro ⟨specifier, rest, ⟨blanks, argument, hblanks, hbehind, h⟩ | h⟩
          · exact .inr ⟨blanks, argument, specifier, rest, hblanks, hbehind, h⟩
          · exact .inl ⟨specifier, rest, h⟩
      · rename_i hinside
        have hinside : ∀ behind, x :: rear ≠ '*' :: '/' :: behind := by
          intro behind heq
          obtain ⟨rfl, rfl⟩ := List.cons.inj heq
          exact hinside behind rfl rfl
        simp [endedComment_inside hinside, ih]

theorem isSome_argumentAfterComment {n : Nat} : (argumentAfterComment n text).isSome ↔
    ∃ specifier rest, EndedComment specifier rest text := by
  induction n, text using argumentAfterComment.induct with
  | case1 => simp [argumentAfterComment, EndedComment]
  | case2 n text find hfind =>
      obtain ⟨blanks, argument, specifier, rest, hblanks, htext, h⟩ :=
        isSome_argumentRequest_skip.mp (Option.isSome_of_mem hfind)
      rw [argumentAfterComment, hfind]
      exact iff_of_true rfl
        ⟨specifier, rest, endedComment_end.mpr (.inl ⟨blanks, argument, hblanks, htext, h⟩)⟩
  | case3 n text hnone ih =>
      rw [argumentAfterComment, hnone]
      simp only [ih, endedComment_end]
      refine exists_congr fun specifier => exists_congr fun rest => (or_iff_right ?_).symm
      rintro ⟨blanks, argument, hblanks, htext, h⟩
      have hsome : (argumentRequest (Cursor.skip isSpace ⟨n + 2, text⟩)).isSome :=
        isSome_argumentRequest_skip.mpr ⟨blanks, argument, specifier, rest, hblanks, htext, h⟩
      simp [hnone] at hsome
  | case4 n text hinside =>
      have hinside : ∀ behind, '\n' :: text ≠ '*' :: '/' :: behind := by simp
      simp [argumentAfterComment, endedComment_inside hinside]
  | case5 n c text hopen hc ih =>
      have hinside : ∀ behind, c :: text ≠ '*' :: '/' :: behind := by
        rintro behind heq
        obtain ⟨rfl, rfl⟩ := List.cons.inj heq
        exact hopen behind rfl rfl
      rw [argumentAfterComment, if_neg hc]
      · simp only [ih, endedComment_inside hinside, hc, ne_eq, not_false_eq_true, true_and]
      · exact hopen

theorem argumentAfterComment_eq_some {n : Nat} {find : Found Request}
    (h : argumentAfterComment n text = some find) :
    ∃ rest, EndedComment find.value.specifier rest text ∧
      find.length + rest.length = n + text.length := by
  induction n, text using argumentAfterComment.induct with
  | case1 => simp [argumentAfterComment] at h
  | case2 n text find' hfind =>
      rw [argumentAfterComment, hfind] at h
      obtain rfl := Option.some.inj h
      obtain ⟨rest, hargument, hlength⟩ := argumentRequest_eq_some hfind
      have hpass := passes_skip isSpace ⟨n + 2, text⟩
      refine ⟨rest, endedComment_end.mpr (.inl ⟨_, _, forall_mem_run _ _, hpass.1, hargument⟩), ?_⟩
      rw [hlength, hpass.length_eq]
      simp only [List.length_cons]
      omega
  | case3 n text hnone ih =>
      rw [argumentAfterComment, hnone] at h
      obtain ⟨rest, hcomment, hlength⟩ := ih h
      refine ⟨rest, endedComment_end.mpr (.inr hcomment), ?_⟩
      rw [hlength]
      simp only [List.length_cons]
      omega
  | case4 n text hopen => simp [argumentAfterComment] at h
  | case5 n c text hopen hc ih =>
      rw [argumentAfterComment, if_neg hc] at h
      · obtain ⟨rest, hcomment, hlength⟩ := ih h
        refine ⟨rest, endedComment_cons.mpr (.inr ⟨hc, hcomment⟩), ?_⟩
        rw [hlength]
        simp only [List.length_cons]
        omega
      · exact hopen

/-- An argument that a block comment on one line may precede. -/
def CommentedArgument (specifier rest text : List Char) : Prop :=
  Argument specifier rest text ∨ ∃ comment, text = '/' :: '*' :: comment ∧
    EndedComment specifier rest comment

theorem CommentedArgument.stops (h : CommentedArgument specifier rest text) :
    Stops isSpace text := by
  rcases h with ⟨blanks, -, hquoted⟩ | ⟨comment, rfl, -⟩
  · exact hquoted.stops
  · exact stops_cons.mpr (by decide)

theorem Argument.ne_comment (h : Argument specifier rest text) (comment : List Char) :
    text ≠ '/' :: '*' :: comment := by
  obtain ⟨-, -, opening, -, hopening, -, -, -, rfl⟩ := h
  rintro heq
  obtain ⟨rfl, -⟩ := List.cons.inj heq
  exact absurd hopening (by decide)

/-- What a dynamic call reads behind its opening parenthesis and blanks. -/
def commentedArgument (outlook : Outlook) (c : Cursor) : Option (Found Request) :=
  match c.rest with
  | '/' :: '*' :: rest =>
    if outlook.allows (c.taken + 2) then argumentAfterComment (c.taken + 2) rest else none
  | _ => argumentRequest c

theorem commentedArgument_eq_some {outlook : Outlook} {find : Found Request}
    (h : commentedArgument outlook c = some find) : ∃ rest,
      CommentedArgument find.value.specifier rest c.rest ∧
        find.length + rest.length = c.taken + c.rest.length := by
  rw [commentedArgument] at h
  split at h
  · rename_i comment hcomment
    split at h
    · obtain ⟨rest, hended, hlength⟩ := argumentAfterComment_eq_some h
      refine ⟨rest, .inr ⟨comment, hcomment, hended⟩, ?_⟩
      rw [hlength, hcomment]
      simp only [List.length_cons]
      omega
    · exact absurd h (by simp)
  · obtain ⟨rest, hargument, hlength⟩ := argumentRequest_eq_some h
    exact ⟨rest, .inl hargument, hlength⟩

theorem isSome_commentedArgument {front : List Char} (hfront : c.taken = front.length)
    (h : CommentedArgument specifier rest c.rest) :
    (commentedArgument (commentOutlook (front ++ c.rest)) c).isSome := by
  rw [commentedArgument]
  split
  · rename_i comment hcomment
    have hended : EndedComment specifier rest comment := by
      rcases h with h | ⟨comment', hcomment', h⟩
      · exact absurd hcomment (h.ne_comment comment)
      · obtain rfl : comment' = comment := by simpa [hcomment'] using hcomment
        exact h
    have hallows := (allows_commentOutlook (front ++ ['/', '*']) comment).mpr
      ⟨specifier, rest, hended⟩
    have hplace : front ++ c.rest = front ++ ['/', '*'] ++ comment := by simp [hcomment]
    have htaken : c.taken + 2 = (front ++ ['/', '*']).length := by simp [hfront]
    rw [hplace, htaken, if_pos hallows]
    exact isSome_argumentAfterComment.mpr ⟨specifier, rest, hended⟩
  · rename_i hcomment
    rcases h with h | ⟨comment, hcomment', h⟩
    · exact isSome_argumentRequest.mpr ⟨specifier, rest, h⟩
    · exact absurd hcomment' (hcomment comment)

/-- A dynamic import: a call with one quoted argument, which a block comment on one line may
precede. -/
def DynamicCall (specifier rest text : List Char) : Prop :=
  Call "import".toList (CommentedArgument specifier rest) text

theorem dynamicCall_eq_some {outlook : Outlook} {find : Found Request} :
    dynamicCall previous outlook text = some find ↔ atWordStart previous = true ∧
      ∃ first d, Blank first ∧ Passes (Cursor.start text) ("import".toList ++ (first ++ ['('])) d ∧
        commentedArgument outlook (d.skip isSpace) = some find := by
  cases hstart : atWordStart previous with
  | false => simp [dynamicCall, hstart]
  | true =>
      rw [dynamicCall, hstart]
      simp only [Bool.not_true, Bool.false_eq_true, if_false, Option.bind_eq_bind, true_and]
      exact call_eq_some

theorem exists_dynamicCall {outlook : Outlook} {find : Found Request}
    (h : dynamicCall previous outlook text = some find) : atWordStart previous = true ∧
      ∃ rest, DynamicCall find.value.specifier rest text ∧
        find.length + rest.length = text.length := by
  obtain ⟨hstart, first, d, hfirst, hpass, h⟩ := dynamicCall_eq_some.mp h
  obtain ⟨rest, hargument, hlength⟩ := commentedArgument_eq_some h
  have hskip := passes_skip isSpace d
  have htext : text = "import".toList ++ (first ++ ['(']) ++
      (d.run isSpace ++ (d.skip isSpace).rest) := by
    rw [← hskip.1]
    exact (passes_start.mp hpass).1
  refine ⟨hstart, rest, ⟨first, d.run isSpace, _, hfirst, forall_mem_run _ _, htext, hargument⟩, ?_⟩
  rw [hlength, hskip.length_eq, hpass.length_eq, Cursor.start, Nat.zero_add]

theorem isSome_dynamicCall : (dynamicCall previous (commentOutlook text) text).isSome ↔
    atWordStart previous = true ∧ ∃ specifier rest, DynamicCall specifier rest text := by
  rw [Option.isSome_iff_exists]
  constructor
  · rintro ⟨find, hfind⟩
    obtain ⟨hstart, rest, hcall, -⟩ := exists_dynamicCall hfind
    exact ⟨hstart, _, rest, hcall⟩
  · rintro ⟨hstart, specifier, rest, first, second, argument, hfirst, hsecond, htext, h⟩
    let d : Cursor := ⟨("import".toList ++ (first ++ ['('])).length, second ++ argument⟩
    have hpass : Passes (Cursor.start text) ("import".toList ++ (first ++ ['('])) d :=
      passes_start.mpr ⟨htext, rfl⟩
    have hskip : d.skip isSpace = ⟨d.taken + second.length, argument⟩ :=
      skip_eq hsecond ⟨rfl, rfl⟩ h.stops
    have hplace : text = "import".toList ++ (first ++ ['(']) ++ second ++
        (d.skip isSpace).rest := by
      rw [htext, hskip]
      simp only [List.append_assoc]
    have htaken : (d.skip isSpace).taken =
        ("import".toList ++ (first ++ ['(']) ++ second).length := by
      rw [hskip, List.length_append]
    have hargument : CommentedArgument specifier rest (d.skip isSpace).rest := by rwa [hskip]
    have hsome := isSome_commentedArgument htaken hargument
    rw [← hplace] at hsome
    obtain ⟨find, hfind⟩ := Option.isSome_iff_exists.mp hsome
    exact ⟨find, dynamicCall_eq_some.mpr ⟨hstart, first, d, hfirst, hpass, hfind⟩⟩

end WebBundle.Proofs.CallForms
