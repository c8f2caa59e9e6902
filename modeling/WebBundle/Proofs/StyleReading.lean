import WebBundle.Proofs.CommentRemoval

/-!
How comment removal reads a stylesheet: character by character, with what surrounds the place that it has
come to. A text in rules or in a string that opens no comment is copied; inside of a comment only line
breaks are.
-/

namespace WebBundle.Proofs.StyleReading

open Style
open WebBundle.Proofs.ScriptReading (breaks IsInside)

/-- A place of a stylesheet: what surrounds it, and whether the character before it may form a mark with
the one behind it. In rules this is a slash, in a comment a star, in a string a backslash. -/
structure Place where
  region : Region
  pending : Bool
  deriving DecidableEq, Repr

namespace Place

variable {place : Place} {c : Char} {word text rest : List Char}

/-- The place behind a character of rules that ends no mark. -/
def opening (c : Char) : Place :=
  if c = '/' then ⟨.rules, true⟩ else if c = '"' ∨ c = '\'' then ⟨.quoted c, false⟩ else ⟨.rules, false⟩

/-- The place behind one more character. -/
def step : Place → Char → Place
  | ⟨.rules, pending⟩, c => if pending ∧ c = '*' then ⟨.comment, false⟩ else opening c
  | ⟨.comment, pending⟩, c => if pending ∧ c = '/' then ⟨.rules, false⟩ else ⟨.comment, c == '*'⟩
  | ⟨.quoted quote, true⟩, _ => ⟨.quoted quote, false⟩
  | ⟨.quoted quote, false⟩, c =>
    if c = '\\' then ⟨.quoted quote, true⟩
    else if c = '\n' ∨ c = quote then ⟨.rules, false⟩ else ⟨.quoted quote, false⟩

/-- A slash of rules is held back until the next character is known. -/
def held : Place → List Char
  | ⟨.rules, true⟩ => ['/']
  | _ => []

/-- What is left of a character and the slash that was held back before it. -/
def emit : Place → Char → List Char
  | ⟨.rules, pending⟩, c =>
    if pending ∧ c = '*' then [' '] else held ⟨.rules, pending⟩ ++ if c = '/' then [] else [c]
  | ⟨.comment, _⟩, c => if c = '\n' then [c] else []
  | ⟨.quoted _, _⟩, c => [c]

/-- The place behind a text. -/
def after (place : Place) (text : List Char) : Place := text.foldl step place

/-- What is left of a text with more behind it. -/
def out : Place → List Char → List Char
  | _, [] => []
  | place, c :: rest => emit place c ++ out (place.step c) rest

/-- What is left of a text that is read to its end. -/
def left (place : Place) (text : List Char) : List Char := place.out text ++ (place.after text).held

/-- The place, with no slash held back. -/
def settled : Place → Place
  | ⟨.rules, _⟩ => ⟨.rules, false⟩
  | place => place

/-- The place, with nothing before it that may form a mark. -/
def fresh (place : Place) : Place := ⟨place.region, false⟩

/-- The text forms no mark with the character before it. -/
def Detached (place : Place) (text : List Char) : Prop :=
  ∀ c ∈ text.head?, place.emit c = place.held ++ place.fresh.emit c ∧ place.step c = place.fresh.step c

instance (place : Place) : (text : List Char) → Decidable (place.Detached text)
  | [] => .isTrue nofun
  | c :: _ => decidable_of_iff
      (place.emit c = place.held ++ place.fresh.emit c ∧ place.step c = place.fresh.step c)
      ⟨fun h _ hd => Option.some.inj hd ▸ h, fun h => h c rfl⟩

/-- Only quotes open strings. -/
def Quoting (place : Place) : Prop := ∀ quote, place.region = .quoted quote → quote = '"' ∨ quote = '\''

@[simp] theorem held_rules_false : held ⟨.rules, false⟩ = [] := rfl

@[simp] theorem held_rules_true : held ⟨.rules, true⟩ = ['/'] := rfl

@[simp] theorem held_comment {pending : Bool} : held ⟨.comment, pending⟩ = [] := rfl

@[simp] theorem held_quoted {quote : Char} {pending : Bool} : held ⟨.quoted quote, pending⟩ = [] := rfl

@[simp] theorem after_nil : place.after [] = place := rfl

@[simp] theorem after_cons : place.after (c :: rest) = (place.step c).after rest := rfl

theorem after_append : place.after (word ++ rest) = (place.after word).after rest :=
  List.foldl_append

@[simp] theorem left_nil : place.left [] = place.held := rfl

theorem left_cons : place.left (c :: rest) = place.emit c ++ (place.step c).left rest :=
  List.append_assoc ..

theorem left_append : place.left (word ++ rest) = place.out word ++ (place.after word).left rest := by
  induction word generalizing place with
  | nil => rfl
  | cons c word ih => rw [List.cons_append, left_cons, ih, out, List.append_assoc, after_cons]

@[simp] theorem held_fresh : place.fresh.held = [] := by
  obtain ⟨region | _ | quote, pending⟩ := place <;> rfl

end Place

open Place

variable {place : Place} {c : Char} {word text rest : List Char}

theorem Place.Detached.left (h : place.Detached text) :
    place.left text = place.held ++ place.fresh.left text := by
  cases text with
  | nil => simp
  | cons c text =>
      obtain ⟨hemit, hstep⟩ := h c rfl
      rw [left_cons, left_cons, hemit, hstep, List.append_assoc]

theorem Place.Detached.out (h : place.Detached (c :: text)) :
    place.out (c :: text) = place.held ++ place.fresh.out (c :: text) := by
  obtain ⟨hemit, hstep⟩ := h c rfl
  rw [Place.out, Place.out, hemit, hstep, List.append_assoc]

theorem Place.Detached.after (h : place.Detached (c :: text)) :
    place.after (c :: text) = place.fresh.after (c :: text) := by
  rw [after_cons, after_cons, (h c rfl).2]

theorem quoting_rules {pending : Bool} : Quoting ⟨.rules, pending⟩ := by simp [Quoting]

theorem Place.Quoting.step (h : place.Quoting) (c : Char) : (place.step c).Quoting := by
  have hopening : (opening c).Quoting := by
    intro quote hquote
    rw [opening] at hquote
    split_ifs at hquote with hc hmark
    obtain rfl : c = quote := Region.quoted.inj hquote
    exact hmark
  obtain ⟨region | _ | quote, _ | _⟩ := place
  case quoted.true => exact h
  all_goals
    simp only [Place.step]
    split_ifs <;> first | exact hopening | exact h | simp [Quoting]

theorem Place.Quoting.after (h : place.Quoting) (text : List Char) : (place.after text).Quoting := by
  induction text generalizing place with
  | nil => exact h
  | cons c text ih => exact ih (h.step c)

theorem Place.Quoting.detached (h : place.Quoting) (hc : c ∉ ['/', '*', '\\', '\n', '"', '\''])
    (text : List Char) : place.Detached (c :: text) := by
  intro d hd
  obtain rfl := Option.some.inj hd
  simp only [List.mem_cons, List.not_mem_nil, or_false, not_or] at hc
  obtain ⟨hslash, hstar, hescape, hline, hdouble, hsingle⟩ := hc
  obtain ⟨region | _ | quote, _ | _⟩ := place
  case quoted.true =>
    have hquote : c ≠ quote := by
      rintro rfl
      exact (h c rfl).elim hdouble hsingle
    simp [emit, Place.step, fresh, hescape, hline, hquote]
  all_goals simp [emit, Place.step, fresh, opening, hslash, hstar]

theorem left_eq_held (h : text.head? ≠ some '*') :
    place.left text = place.held ++ place.settled.left text := by
  obtain ⟨region | _ | quote, _ | _⟩ := place
  case rules.true =>
    cases text with
    | nil => rfl
    | cons c text =>
        have hc : c ≠ '*' := by simpa using h
        simp [left_cons, step, emit, settled, hc]
  all_goals simp [settled]

theorem left_comment {pending : Bool} (h : text.head? ≠ some '/') :
    left ⟨.comment, pending⟩ text = left ⟨.comment, false⟩ text := by
  cases text with
  | nil => rfl
  | cons c text =>
      have hc : c ≠ '/' := by simpa using h
      simp [left_cons, step, emit, hc]

/-- Comment removal is this reading. -/
theorem withoutComments_eq_left (region : Region) (text : List Char) :
    withoutComments region text = left ⟨region, false⟩ text := by
  fun_induction withoutComments region text with
  | case1 region => cases region <;> rfl
  | case2 rest ih => simp [left_cons, step, emit, opening, ih]
  | case3 c rest hopens ih =>
      by_cases hc : c = '/'
      · subst hc
        have hhead : rest.head? ≠ some '*' := by
          intro hhead
          obtain ⟨other, rfl⟩ := List.head?_eq_some_iff.mp hhead
          exact hopens other rfl rfl
        have hheld : left ⟨.rules, true⟩ rest = '/' :: left ⟨.rules, false⟩ rest := left_eq_held hhead
        simpa [left_cons, step, emit, opening, hheld] using ih
      · rw [left_cons, ih]
        by_cases hquote : c = '"' ∨ c = '\'' <;> simp [step, emit, opening, hc, hquote]
  | case4 rest ih => simp [left_cons, step, emit, ih]
  | case5 rest hends ih => simp [left_cons, step, emit, ih]
  | case6 c rest hends hc ih =>
      rw [left_cons, ih]
      by_cases hstar : c = '*'
      · subst hstar
        have hhead : rest.head? ≠ some '/' := by
          intro hhead
          obtain ⟨other, rfl⟩ := List.head?_eq_some_iff.mp hhead
          exact hends other rfl rfl
        simp [step, emit, left_comment hhead]
      · simp [step, emit, hc, beq_false_of_ne hstar]
  | case7 quote c rest ih => simp [left_cons, step, emit, ih]
  | case8 quote c rest hescape ih =>
      by_cases hc : c = '\\'
      · subst hc
        cases rest with
        | nil => simp [withoutComments, left_cons, step, emit]
        | cons d rest => exact absurd rfl (hescape d rest rfl)
      · rw [left_cons, ih]
        by_cases hends : c = '\n' ∨ c = quote <;> simp [step, emit, hc, hends]

theorem eq_of_mem_held {x : Char} (hx : x ∈ place.held) : x = '/' := by
  obtain ⟨region | _ | quote, _ | _⟩ := place
  case rules.true => exact List.mem_singleton.mp hx
  all_goals exact absurd hx List.not_mem_nil

theorem mem_emit {x : Char} (hx : x ∈ place.emit c) : x = c ∨ x = ' ' ∨ x = '/' := by
  obtain ⟨region | _ | quote, _ | _⟩ := place
  case quoted.false | quoted.true => exact .inl (List.mem_singleton.mp hx)
  all_goals
    simp only [emit] at hx
    split_ifs at hx <;> simp at hx <;> tauto

theorem mem_out {x : Char} (hx : x ∈ place.out text) : x ∈ text ∨ x = ' ' ∨ x = '/' := by
  induction text generalizing place with
  | nil => exact absurd hx List.not_mem_nil
  | cons c text ih =>
      rw [out, List.mem_append] at hx
      rcases hx with hx | hx
      · refine (mem_emit hx).imp_left ?_
        rintro rfl
        exact List.mem_cons_self
      · exact (ih hx).imp_left (List.mem_cons_of_mem c)

theorem mem_left {x : Char} (hx : x ∈ place.left text) : x ∈ text ∨ x = ' ' ∨ x = '/' := by
  rw [left, List.mem_append] at hx
  rcases hx with hx | hx
  · exact mem_out hx
  · exact .inr (.inr (eq_of_mem_held hx))

/-- A place outside of comments, with no slash held back. -/
structure Open (place : Place) : Prop where
  region : place.region ≠ .comment
  held : place.held = []

theorem open_settled (h : place.region ≠ .comment) : Open place.settled := by
  obtain ⟨region | _ | quote, _ | _⟩ := place
  case comment.false | comment.true => exact absurd rfl h
  all_goals exact ⟨by simp [settled], rfl⟩

theorem open_of_not_pending (hregion : place.region ≠ .comment) (hpending : place.pending = false) :
    Open place := by
  refine ⟨hregion, ?_⟩
  obtain ⟨region | _ | quote, pending⟩ := place
  · rw [show pending = false from hpending]
    rfl
  · rfl
  · rfl

theorem held_opening (c : Char) : (opening c).held = if c = '/' then ['/'] else [] := by
  by_cases hc : c = '/'
  · simp [opening, hc]
  · by_cases hquote : c = '"' ∨ c = '\'' <;> simp [opening, hc, hquote]

theorem region_opening (c : Char) : (opening c).region ≠ .comment := by
  rw [opening]
  split_ifs <;> simp

theorem held_step (hc : c ≠ '/') : (place.step c).held = [] := by
  obtain ⟨region | _ | quote, _ | _⟩ := place
  case quoted.true => rfl
  all_goals
    simp only [step]
    split_ifs <;> simp [held_opening, hc]

theorem emit_copies (hregion : place.region ≠ .comment) (hopens : place.held = ['/'] → c ≠ '*') :
    place.emit c ++ (place.step c).held = place.held ++ [c] ∧ (place.step c).region ≠ .comment := by
  have hcopy : (if c = '/' then [] else [c]) ++ (opening c).held = [c] := by
    rw [held_opening]
    by_cases hc : c = '/' <;> simp [hc]
  obtain ⟨region | _ | quote, _ | _⟩ := place
  case comment.false | comment.true => exact absurd rfl hregion
  case rules.false => simpa [emit, step, region_opening] using hcopy
  case rules.true =>
    have hc : c ≠ '*' := hopens rfl
    simpa [emit, step, hc, region_opening] using hcopy
  case quoted.true => simp [emit, step]
  case quoted.false =>
    simp only [emit, step]
    split_ifs <;> simp

/-- A text that opens no comment is copied. -/
theorem left_eq_self (hregion : place.region ≠ .comment)
    (hopens : ¬ "/*".toList <:+: place.held ++ word) :
    place.left word = place.held ++ word ∧ (place.after word).region ≠ .comment := by
  induction word generalizing place with
  | nil => exact ⟨by simp, hregion⟩
  | cons c word ih =>
      have hc : place.held = ['/'] → c ≠ '*' := by
        rintro hheld rfl
        exact hopens ⟨[], word, by rw [hheld]; rfl⟩
      obtain ⟨hcopy, hstep⟩ := emit_copies hregion hc
      have hrest : ¬ "/*".toList <:+: (place.step c).held ++ word := by
        refine fun hpart => hopens (hpart.trans ⟨place.emit c, [], ?_⟩)
        rw [List.append_nil, ← List.append_assoc, hcopy, List.append_assoc, List.singleton_append]
      obtain ⟨hleft, hafter⟩ := ih hstep hrest
      refine ⟨?_, hafter⟩
      rw [left_cons, hleft, ← List.append_assoc, hcopy, List.append_assoc, List.singleton_append]

theorem left_copies (hopen : Open place) (hopens : ¬ "/*".toList <:+: word)
    (hrest : rest.head? ≠ some '*') :
    place.left (word ++ rest) = word ++ (place.after word).settled.left rest ∧
      Open (place.after word).settled := by
  obtain ⟨hleft, hafter⟩ := left_eq_self hopen.region (by rwa [hopen.held, List.nil_append])
  rw [hopen.held, List.nil_append] at hleft
  refine ⟨?_, open_settled hafter⟩
  rw [left_append, left_eq_held hrest, ← List.append_assoc]
  exact congrArg (· ++ _) hleft

theorem left_cons_of_ne (hregion : place.region ≠ .comment) (hopens : place.held = ['/'] → c ≠ '*')
    (hc : c ≠ '/') (rest : List Char) :
    place.left (c :: rest) = place.held ++ c :: (place.step c).left rest ∧ Open (place.step c) := by
  obtain ⟨hcopy, hstep⟩ := emit_copies hregion hopens
  have hheld : (place.step c).held = [] := held_step hc
  rw [hheld, List.append_nil] at hcopy
  exact ⟨by rw [left_cons, hcopy, List.append_assoc, List.singleton_append], hstep, hheld⟩

theorem Open.left_append (hopen : Open place) (hword : '/' ∉ word) (rest : List Char) :
    place.left (word ++ rest) = word ++ (place.after word).left rest ∧ Open (place.after word) := by
  induction word generalizing place with
  | nil => exact ⟨rfl, hopen⟩
  | cons c word ih =>
      rw [List.mem_cons, not_or] at hword
      obtain ⟨hcopy, hstep⟩ := left_cons_of_ne hopen.region (by simp [hopen.held]) (Ne.symm hword.1)
        (word ++ rest)
      obtain ⟨hleft, hafter⟩ := ih hstep hword.2
      refine ⟨?_, hafter⟩
      rw [List.cons_append, hcopy, hopen.held, hleft, List.nil_append, List.cons_append, after_cons]

theorem left_quoted {quote : Char} {pending : Bool} (hword : ∀ x ∈ word, x ≠ quote ∧ x ≠ '\n')
    (rest : List Char) :
    left ⟨.quoted quote, pending⟩ (word ++ rest) =
        word ++ (after ⟨.quoted quote, pending⟩ word).left rest ∧
      (after ⟨.quoted quote, pending⟩ word).region = .quoted quote := by
  induction word generalizing pending with
  | nil => exact ⟨rfl, rfl⟩
  | cons c word ih =>
      obtain ⟨⟨hquote, hline⟩, hrear⟩ := List.forall_mem_cons.mp hword
      obtain ⟨inner, hstep⟩ : ∃ inner, Place.step ⟨.quoted quote, pending⟩ c = ⟨.quoted quote, inner⟩ := by
        cases pending with
        | true => exact ⟨false, rfl⟩
        | false => by_cases hescape : c = '\\' <;> simp [Place.step, hescape, hquote, hline]
      obtain ⟨hleft, hafter⟩ := @ih inner hrear
      rw [List.cons_append, Place.left_cons, after_cons, hstep, hleft]
      exact ⟨rfl, hafter⟩

theorem Open.left_cons (hopen : Open place) (hc : c ≠ '/') (rest : List Char) :
    place.left (c :: rest) = c :: (place.step c).left rest ∧ Open (place.step c) := by
  have hword : '/' ∉ [c] := by simpa using Ne.symm hc
  exact hopen.left_append hword rest

theorem Open.left_slash (hopen : Open place) (text : List Char) : ∃ c rest,
    place.left ('/' :: text) = c :: rest ∧ (c = '/' ∨ c = ' ' ∧ text.head? = some '*') := by
  obtain ⟨region | _ | quote, _ | _⟩ := place
  case rules.true => exact absurd hopen.held (by simp)
  case comment.false | comment.true => exact absurd rfl hopen.region
  case quoted.false | quoted.true => exact ⟨'/', _, Place.left_cons, .inl rfl⟩
  case rules.false =>
    by_cases hhead : text.head? = some '*'
    · obtain ⟨rest, rfl⟩ := List.head?_eq_some_iff.mp hhead
      exact ⟨' ', _, Place.left_cons, .inr ⟨rfl, rfl⟩⟩
    · have hheld : left ⟨.rules, true⟩ text = '/' :: left ⟨.rules, false⟩ text := left_eq_held hhead
      exact ⟨'/', _, hheld, .inl rfl⟩

/-- What is left begins as the text does, but for slashes and the blanks that stand for comments. -/
theorem Open.head_of_left (hopen : Open place) (hleft : place.left text = c :: rest) :
    (∃ behind, text = c :: behind) ∨ c = '/' ∨ (c = ' ' ∧ "/*".toList <+: text) := by
  cases text with
  | nil => simp [hopen.held] at hleft
  | cons d text =>
      by_cases hd : d = '/'
      · subst hd
        obtain ⟨d, other, hother, hd⟩ := hopen.left_slash text
        obtain rfl : d = c := (List.cons.inj (hother.symm.trans hleft)).1
        refine .inr (hd.imp_right fun ⟨hblank, hstar⟩ => ⟨hblank, ?_⟩)
        obtain ⟨behind, rfl⟩ := List.head?_eq_some_iff.mp hstar
        exact ⟨behind, rfl⟩
      · rw [(hopen.left_cons hd text).1] at hleft
        exact .inl ⟨text, by rw [(List.cons.inj hleft).1]⟩

theorem Open.exists_of_left (hopen : Open place) (hword : ∀ x ∈ word, x ≠ '/' ∧ x ≠ ' ')
    (hleft : place.left text = word ++ rest) :
    ∃ behind, text = word ++ behind ∧ rest = (place.after word).left behind := by
  induction word generalizing place text with
  | nil => exact ⟨text, rfl, hleft.symm⟩
  | cons c word ih =>
      obtain ⟨⟨hslash, hblank⟩, hrear⟩ := List.forall_mem_cons.mp hword
      rcases hopen.head_of_left hleft with ⟨text, rfl⟩ | heq | ⟨heq, -⟩
      · obtain ⟨hcopy, hstep⟩ := hopen.left_cons hslash text
        rw [hcopy] at hleft
        obtain ⟨behind, rfl, rfl⟩ := ih hstep hrear (List.cons.inj hleft).2
        exact ⟨behind, rfl, rfl⟩
      · exact absurd heq hslash
      · exact absurd heq hblank

theorem after_settled (hhead : text.head? ≠ some '*') (hopen : Open (place.after text)) :
    place.settled.after text = place.after text := by
  obtain ⟨region | _ | quote, _ | _⟩ := place
  case rules.true =>
    cases text with
    | nil => exact absurd hopen.held (by simp)
    | cons c text =>
        have hc : c ≠ '*' := by simpa using hhead
        simp [settled, step, hc]
  all_goals rfl

/-- Of a text that ends no comment its line breaks are left. -/
theorem out_inside {pending : Bool} (hpending : pending = true → word.head? ≠ some '/')
    (hword : IsInside word) :
    out ⟨.comment, pending⟩ word = breaks word ∧
      (after ⟨.comment, pending⟩ word).region = .comment := by
  induction word generalizing pending with
  | nil => exact ⟨rfl, rfl⟩
  | cons c word ih =>
      have hc : ¬ (pending = true ∧ c = '/') := by
        rintro ⟨hpend, rfl⟩
        exact hpending hpend rfl
      have hstep : step ⟨.comment, pending⟩ c = ⟨.comment, c == '*'⟩ := by simp [step, hc]
      obtain ⟨hout, hafter⟩ := ih (fun hstar => hword.head? (beq_iff_eq.mp hstar)) hword.tail
      refine ⟨?_, by rwa [after_cons, hstep]⟩
      rw [out, hstep, hout, breaks, breaks, List.filter_cons]
      by_cases hbreak : c = '\n' <;> simp [emit, hbreak]

theorem left_unmarked (hword : ∀ x ∈ word, x ≠ '/' ∧ x ≠ '*') (hopen : Open (place.after word))
    (rest : List Char) :
    place.left (word ++ rest) = place.held ++ word ++ (place.after word).left rest := by
  cases word with
  | nil => simp [show place.held = [] from hopen.held]
  | cons c word =>
      obtain ⟨hc, hrear⟩ := List.forall_mem_cons.mp hword
      have hregion : place.region ≠ .comment := by
        intro hregion
        obtain ⟨region, pending⟩ := place
        obtain rfl : region = .comment := hregion
        have hinside : IsInside (c :: word) := fun hpart =>
          (hword '*' (hpart.subset List.mem_cons_self)).2 rfl
        exact hopen.region (out_inside (by simpa using fun _ => hc.1) hinside).2
      obtain ⟨hcopy, hstep⟩ := left_cons_of_ne hregion (fun _ => hc.2) hc.1 (word ++ rest)
      obtain ⟨hleft, -⟩ := hstep.left_append (fun hslash => (hrear '/' hslash).1 rfl) rest
      rw [List.cons_append, hcopy, hleft, List.append_assoc, List.cons_append, after_cons]

end WebBundle.Proofs.StyleReading
