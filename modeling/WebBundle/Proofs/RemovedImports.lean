import WebBundle.Proofs.ImportRules
import WebBundle.Proofs.StyleReading

/-!
Removing the `@import` rules of bundled stylesheets from a text with comments. The rules are sought in the
text as it is, so that a find may begin in a comment or end in one. Where every find begins and ends at the
same place, the text that is left is the one that removal leaves without comments.
-/

namespace WebBundle.Proofs.RemovedImports

open Text Style TextSearch ImportRules StyleReading Place
open WebBundle.Proofs.CallForms (Blank)
open WebBundle.Proofs.CommentRemoval (visible visible_append)
open WebBundle.Proofs.ScriptReading (breaks)

variable {place : Place} {front quote written body stop text rest word : List Char} {c : Char}
variable {bundled : String → Bool} {find : Found Reference} {previous : Option Char}
variable {outlook : Outlook} {parts : List (Piece Reference)}

theorem stops_left {p : Char → Bool} (hopen : Open place) (hslash : text.head? ≠ some '/')
    (h : Stops p text) : Stops p (place.left text) := by
  cases text with
  | nil => simp [hopen.held, Stops]
  | cons c text =>
      have hc : c ≠ '/' := by simpa using hslash
      rw [(hopen.left_cons hc text).1, stops_cons]
      exact stops_cons.mp h

theorem head?_of_stops (h : Stops isRuleChar text) (hc : isRuleChar c = true) :
    text.head? ≠ some c := by
  intro hhead
  exact absurd (h c hhead) (by simp [hc])

theorem stops_isRuleChar_left (hopen : Open place) (h : Stops isRuleChar text) :
    Stops isRuleChar (place.left text) :=
  stops_left hopen (head?_of_stops h (by decide)) h

theorem bare_left (hopen : Open place) (h : Bare text) : Bare (place.left text) := by
  refine ⟨stops_isRuleChar_left hopen h.1, fun q behind hq hleft => ?_⟩
  cases text with
  | nil => simp [hopen.held] at hleft
  | cons c text =>
      have hc : c ≠ '/' := by simpa using head?_of_stops h.1 (by decide)
      obtain ⟨hcopy, hstep⟩ := hopen.left_cons hc text
      rw [hcopy] at hleft
      obtain ⟨rfl, rfl⟩ := List.cons.inj hleft
      exact stops_isRuleChar_left hstep (h.2 c text hq rfl)

theorem exists_left_bare (hopen : Open place) (h : Bare (text.dropWhile isSpace)) :
    ∃ behind, place.left text = text.takeWhile isSpace ++ behind ∧ Stops isSpace behind ∧
      Bare behind := by
  have hblanks : Blank (text.takeWhile isSpace) := fun _ hx => List.mem_takeWhile_imp hx
  obtain ⟨hleft, hopen'⟩ := hopen.left_append (slash_not_mem_blank hblanks) (text.dropWhile isSpace)
  rw [List.takeWhile_append_dropWhile] at hleft
  exact ⟨_, hleft, stops_left hopen' (head?_of_stops h.1 (by decide)) (stops_dropWhile isSpace text),
    bare_left hopen' h⟩

theorem bare_dropWhile_left (hopen : Open place) (h : Bare (text.dropWhile isSpace)) :
    Bare ((place.left text).dropWhile isSpace) := by
  obtain ⟨behind, hleft, hstops, hbare⟩ := exists_left_bare hopen h
  rw [hleft, dropWhile_append_of_stops (fun _ hx => List.mem_takeWhile_imp hx) hstops]
  exact hbare

theorem refers_left (hopen : Open place) (h : Refers quote written rest) :
    Refers quote written (place.left rest) :=
  ⟨h.quote, h.nonempty, h.written, stops_isRuleChar_left hopen h.rest⟩

theorem opens_left (hopen : Open place) (h : Opens front written rest) :
    Opens front written (place.left rest) := by
  cases h with
  | url hne hspaces hblanks hrefers =>
      exact .url hne hspaces hblanks (refers_left hopen hrefers)
  | plain hne hspaces hrefers hbare =>
      refine .plain hne hspaces (refers_left hopen hrefers) fun hquote behind hbehind => ?_
      have hbare := hbare hquote behind hbehind
      cases behind with
      | nil => exact bare_dropWhile_left hopen hbare
      | cons x behind =>
          have hx : isRuleChar x = true := hrefers.written x (by simp [hbehind])
          have hspace : isSpace x = false := isSpace_of_isRuleChar hx
          rw [List.cons_append, List.dropWhile_cons_of_neg (by simp [hspace])] at hbare
          exact absurd hbare.1 (by simp [hx])

theorem exists_ends_append (h : Ends stop rest) (hend : rest = [] → text = []) :
    ∃ blanks behind, Blank blanks ∧ text = blanks ++ behind ∧ Ends (stop ++ blanks) behind := by
  have hnone : Blank [] := by simp [Blank]
  cases h with
  | text => exact ⟨[], [], hnone, hend rfl, .text⟩
  | line => exact ⟨[], text, hnone, rfl, .line⟩
  | blanksLine hblanks => exact ⟨[], text, hnone, rfl, by simpa using .blanksLine hblanks⟩
  | @blanks blanks _ hblanks =>
      have hfirst : ∀ x ∈ text.takeWhile isInlineBlank, isInlineBlank x = true :=
        fun _ hx => List.mem_takeWhile_imp hx
      have hall : ∀ x ∈ blanks ++ text.takeWhile isInlineBlank, isInlineBlank x = true := by
        simpa [or_imp, forall_and] using ⟨hblanks, hfirst⟩
      have hsplit : text = text.takeWhile isInlineBlank ++ text.dropWhile isInlineBlank :=
        List.takeWhile_append_dropWhile.symm
      have hblank : Blank (text.takeWhile isInlineBlank) :=
        fun x hx => isSpace_of_isInlineBlank (hfirst x hx)
      by_cases hbreak : (text.dropWhile isInlineBlank).head? = some '\n'
      · obtain ⟨behind, hbehind⟩ := List.head?_eq_some_iff.mp hbreak
        refine ⟨text.takeWhile isInlineBlank ++ ['\n'], behind, ?_, ?_, ?_⟩
        · simpa [Blank, or_imp, forall_and] using ⟨hblank, by decide⟩
        · rw [List.append_assoc, List.singleton_append, ← hbehind]
          exact hsplit
        · rw [List.cons_append, ← List.append_assoc]
          exact .blanksLine hall
      · exact ⟨_, _, hblank, hsplit, .blanks hall (stops_dropWhile _ _) hbreak⟩

theorem left_reference (hopen : Open place) (hquoting : place.Quoting)
    (hwritten : ∀ x ∈ written, isRuleChar x = true)
    (hopens : place.region = .rules → ¬ "/*".toList <:+: written) (hrest : rest.head? ≠ some '*') :
    place.left (written ++ rest) = written ++ (place.after written).settled.left rest ∧
      Open (place.after written).settled := by
  obtain ⟨region | _ | quote, pending⟩ := place
  · exact left_copies hopen (hopens rfl) hrest
  · exact absurd rfl hopen.region
  · have hmark : isQuote quote = true := by
      rcases hquoting quote rfl with rfl | rfl <;> decide
    have hword : ∀ x ∈ written, x ≠ quote ∧ x ≠ '\n' := by
      intro x hx
      refine ⟨?_, ?_⟩
      · rintro rfl
        exact absurd (hwritten x hx) (by simp [isRuleChar_of_isQuote hmark])
      · rintro rfl
        exact absurd (hwritten '\n' hx) (by decide)
    obtain ⟨hcopy, hregion⟩ := left_quoted hword rest
    refine ⟨?_, open_settled (by rw [hregion]; exact nofun)⟩
    rw [hcopy, left_eq_held hrest]
    generalize after ⟨.quoted quote, pending⟩ written = inner at hregion
    obtain ⟨_, _⟩ := inner
    obtain rfl : _ = Region.quoted quote := hregion
    rfl

/-- Behind a word that is copied, a text that leads back to the place where the word began loses its
comments, and nothing of its end if that holds no comment marks. -/
theorem out_of_return (hopen : Open place) (hinner : Open (place.after word).settled)
    (hcopy : place.left (word ++ (body ++ stop ++ rest)) =
      word ++ (place.after word).settled.left (body ++ stop ++ rest))
    (hhead : (body ++ stop ++ rest).head? ≠ some '*') (hstop : ∀ x ∈ stop, x ≠ '/' ∧ x ≠ '*')
    (hafter : place.after (word ++ (body ++ stop)) = place) :
    ∃ inner, Open inner ∧
      inner.left (body ++ stop ++ rest) = inner.left body ++ stop ++ place.left rest ∧
      place.out (word ++ (body ++ stop)) = word ++ (inner.left body ++ stop) := by
  have hreturn : (place.after word).settled.after (body ++ stop) = place := by
    have hstar : (body ++ stop).head? ≠ some '*' := by
      intro hstar
      rw [List.head?_append, hstar] at hhead
      exact hhead rfl
    rw [Place.after_append] at hafter
    rw [after_settled hstar (by rwa [hafter]), hafter]
  generalize (place.after word).settled = inner at hcopy hinner hreturn
  have htail : inner.left (body ++ stop ++ rest) = inner.left body ++ stop ++ place.left rest := by
    rw [Place.after_append] at hreturn
    have hend := left_unmarked hstop (by rwa [hreturn]) rest
    have hleft : inner.left body = inner.out body ++ (inner.after body).held := rfl
    rw [List.append_assoc, Place.left_append, hend, hreturn, hleft]
    simp only [List.append_assoc]
  refine ⟨inner, hinner, htail, (List.append_left_inj (place.left rest)).mp ?_⟩
  rw [htail, ← List.append_assoc, Place.left_append, hafter] at hcopy
  simpa only [List.append_assoc] using hcopy

/-- A rule whose reference opens no comment and that ends at the place where it begins is found again in
what is left, with the blanks that follow there. -/
theorem importRule_left (hfind : importRule previous outlook (word ++ rest) = some find)
    (hlength : find.length = word.length) (hopen : Open place) (hquoting : place.Quoting)
    (hwritten : (place.after (word.take find.value.offset)).region = .rules →
      ¬ "/*".toList <:+: find.value.written)
    (hafter : place.after word = place) :
    ∃ blanks behind, Blank blanks ∧ place.left rest = blanks ++ behind ∧
      importRule none [] (place.out word ++ blanks ++ behind) =
        some ⟨find.value, (place.out word ++ blanks).length⟩ := by
  obtain ⟨front, written, body, stop, rest', ⟨hopens, hbody, hends⟩, htext, rfl⟩ :=
    importRule_eq_some.mp hfind
  obtain ⟨rfl, rfl⟩ : word = front ++ written ++ (body ++ stop) ∧ rest = rest' :=
    List.append_inj htext hlength.symm
  have hhead : (body ++ stop ++ rest).head? ≠ some '*' := head?_of_stops hopens.stops (by decide)
  have hfront : (front ++ written ++ (body ++ stop)).take front.length = front := by simp
  obtain ⟨hbefore, hmiddle⟩ := hopen.left_append hopens.slash_not_mem (written ++ (body ++ stop ++ rest))
  obtain ⟨hreference, hcopied⟩ := left_reference hmiddle (hquoting.after front) hopens.forall_isRuleChar
    (by rwa [hfront] at hwritten) hhead
  rw [← Place.after_append] at hreference hcopied
  have hcopy : place.left (front ++ written ++ (body ++ stop ++ rest)) =
      front ++ written ++ (place.after (front ++ written)).settled.left (body ++ stop ++ rest) := by
    rw [List.append_assoc front, hbefore, hreference, ← List.append_assoc front]
  obtain ⟨inner, hinner, htail, hout⟩ :=
    out_of_return hopen hcopied hcopy hhead hends.unmarked hafter
  have hend : rest = [] → place.left rest = [] := by
    rintro rfl
    exact hopen.held
  obtain ⟨blanks, behind, hblanks, hrest, hends'⟩ := exists_ends_append hends hend
  refine ⟨blanks, behind, hblanks, hrest, importRule_eq_some.mpr
    ⟨front, written, inner.left body, stop ++ blanks, behind, ⟨?_, ?_, hends'⟩, ?_, ?_⟩⟩
  · have hopens' := opens_left hinner hopens
    rw [htail, hrest] at hopens'
    simpa only [List.append_assoc] using hopens'
  · intro x hx
    rcases mem_left hx with hx | rfl | rfl
    · exact hbody x hx
    · decide
    · decide
  · rw [hout]
    simp only [List.append_assoc]
  · rw [hout]
    simp only [List.append_assoc]

theorem importRule_of_ne (hc : c ≠ '@') : importRule previous outlook (c :: rest) = none := by
  have hmark : (Cursor.start (c :: rest)).literal "@import".toList = none := by
    simp [Cursor.start, Cursor.literal, Ne.symm hc]
  rw [importRule, importReference, hmark]
  rfl

theorem exists_of_left_blank (hopen : Open place) (hmark : ¬ "/*".toList <+: text)
    (hleft : place.left text = c :: rest) (hc : isSpace c = true) : ∃ behind, text = c :: behind := by
  rcases hopen.head_of_left hleft with htext | rfl | ⟨-, hcomment⟩
  · exact htext
  · exact absurd hc (by decide)
  · exact absurd hcomment hmark

/-- Where no rule is found, none is found in what is left, unless a comment follows the mark. -/
theorem importRule_left_eq_none (hopen : Open place) (hmark : ¬ "@import/*".toList <+: '@' :: text)
    (hnone : importRule none [] ('@' :: text) = none) :
    importRule none [] ('@' :: place.left text) = none := by
  rw [Option.eq_none_iff_forall_ne_some]
  intro find hfind
  obtain ⟨front, written, body, stop, rear, ⟨hopens, -, -⟩, hleft, -⟩ := importRule_eq_some.mp hfind
  obtain ⟨x, more, hx, rfl⟩ := hopens.exists_blank
  have hmarked : place.left text =
      "import".toList ++ (x :: more ++ written ++ (body ++ stop) ++ rear) := by
    simpa using hleft
  have hword : ∀ x ∈ "import".toList, x ≠ '/' ∧ x ≠ ' ' := forall_mem_of_all (by decide)
  obtain ⟨behind, rfl, hbehind⟩ := hopen.exists_of_left hword hmarked
  have hslash : '/' ∉ "import".toList := by decide
  obtain ⟨hcopy, hopen'⟩ := hopen.left_append hslash behind
  have hcomment : ¬ "/*".toList <+: behind := fun hpart =>
    hmark ((List.prefix_append_right_inj "@import".toList).mpr hpart)
  obtain ⟨behind, rfl⟩ := exists_of_left_blank hopen' hcomment hbehind.symm hx
  have hspaces : (x :: behind).takeWhile isSpace ≠ [] := by simp [hx]
  have hblanks : Blank ((x :: behind).takeWhile isSpace) := fun _ hx => List.mem_takeWhile_imp hx
  have hbare : Bare ((x :: behind).dropWhile isSpace) := by
    rw [← importRule_eq_none hspaces hblanks (stops_dropWhile isSpace _), List.append_assoc,
      List.takeWhile_append_dropWhile]
    exact hnone
  obtain ⟨other, hother, hstops, hbare'⟩ := exists_left_bare hopen' hbare
  have hagain : importRule none [] ("@import".toList ++ _ ++ other) = none :=
    (importRule_eq_none hspaces hblanks hstops).mpr hbare'
  rw [List.append_assoc, ← hother] at hagain
  rw [hcopy] at hfind
  exact absurd (hagain.symm.trans hfind) (by simp)

theorem piecesFrom_previous {α : Type} {recognize : Recognizer α}
    (hblind : ∀ p q outlook text, recognize p outlook text = recognize q outlook text)
    (p q : Option Char) (covered : Nat) (outlook : Outlook) (text : List Char) :
    piecesFrom recognize p covered outlook text = piecesFrom recognize q covered outlook text := by
  cases text with
  | nil => simp only [piecesFrom]
  | cons c text =>
      cases covered with
      | zero => rw [piecesFrom, piecesFrom, hblind p q]
      | succ covered => rw [piecesFrom, piecesFrom]

/-- Whether a rule with this reference is taken out. -/
def isDropped (bundled : String → Bool) (written : List Char) : Bool :=
  match requestOf written with
  | some request => bundled (String.ofList request)
  | none => false

/-- What stays of a rule. -/
def kept (bundled : String → Bool) (reference : Reference) (text : List Char) : List Char :=
  if isDropped bundled reference.written then [] else text

/-- The text without the rules that are bundled. -/
def removed (bundled : String → Bool) (text : List Char) : List Char :=
  replace importRule [] (kept bundled) text

theorem removeImports_eq (bundled : String → Bool) (css : String) :
    removeImports bundled css = String.ofList (removed bundled css.toList) := by
  refine congrArg (fun substitute => String.ofList (replace importRule [] substitute css.toList))
    (funext fun reference => funext fun text => ?_)
  rw [kept, isDropped]
  cases requestOf reference.written <;> rfl

/-- What stays of a text whose parts are known. -/
def joined (bundled : String → Bool) (parts : List (Piece Reference)) : List Char :=
  parts.flatMap fun
    | .plain c => [c]
    | .found reference text => kept bundled reference text

theorem removed_eq_joined (bundled : String → Bool) (text : List Char) :
    removed bundled text = joined bundled (pieces importRule [] text) := by
  refine congrArg (fun put => (pieces importRule [] text).flatMap put) (funext fun part => ?_)
  cases part <;> rfl

theorem removed_cons (h : importRule none [] (c :: rest) = none) :
    removed bundled (c :: rest) = c :: removed bundled rest := by
  rw [removed_eq_joined, removed_eq_joined, pieces, piecesFrom, h, List.tail_nil,
    piecesFrom_previous (fun _ _ _ _ => rfl) (some c) none]
  rfl

theorem removed_found {value : Reference}
    (h : importRule none [] (word ++ rest) = some ⟨value, word.length⟩) :
    removed bundled (word ++ rest) = kept bundled value word ++ removed bundled rest := by
  obtain ⟨x, word, rfl⟩ := List.exists_cons_of_length_pos (length_of_importRule h).1
  have hcovered : piecesFrom importRule (some x) word.length [] (word ++ rest) =
      piecesFrom importRule (word.getLast?.or (some x)) 0 [] rest :=
    piecesFrom_covered forward_nil (some x) word rest
  rw [removed_eq_joined, removed_eq_joined, pieces, List.cons_append, piecesFrom]
  rw [List.cons_append] at h
  rw [h]
  simp only [List.length_cons, Nat.add_sub_cancel, List.tail_nil, List.take_succ_cons, List.take_left]
  rw [hcovered, piecesFrom_previous (fun _ _ _ _ => rfl) _ none]
  rfl

theorem removed_append (hword : '@' ∉ word) (rest : List Char) :
    removed bundled (word ++ rest) = word ++ removed bundled rest := by
  induction word with
  | nil => rfl
  | cons c word ih =>
      rw [List.mem_cons, not_or] at hword
      rw [List.cons_append, removed_cons (importRule_of_ne (Ne.symm hword.1)), ih hword.2, List.cons_append]

/-- A find that begins and ends at the same place. In a comment it does not end the comment on its way;
elsewhere its reference opens none. -/
def Closed (place : Place) (reference : Reference) (text : List Char) : Prop :=
  place.after text = place.fresh ∧ (place.region = .comment → ¬ "*/".toList <:+: text) ∧
    ((place.fresh.after (text.take reference.offset)).region = .rules →
      ¬ "/*".toList <:+: reference.written)

/-- A rule that is taken out is closed, and no mark comes of what stands before and behind it. One that stays
is closed, or without comments nothing is left of it that could be a rule. -/
def Stands (bundled : String → Bool) (place : Place) (reference : Reference) (text behind : List Char) :
    Prop :=
  if isDropped bundled reference.written then Closed place reference text ∧ place.Detached behind
  else Closed place reference text ∨ '@' ∉ place.out text

/-- Every find of a text stands where it is. -/
def AllStand (bundled : String → Bool) : Place → List (Piece Reference) → Prop
  | _, [] => True
  | place, .plain c :: parts => AllStand bundled (place.step c) parts
  | place, .found reference text :: parts =>
    Stands bundled place reference text (joined bundled parts) ∧
      AllStand bundled (place.after text) parts

instance (place : Place) (reference : Reference) (text : List Char) :
    Decidable (Closed place reference text) :=
  inferInstanceAs (Decidable (_ ∧ (_ → _) ∧ (_ → _)))

instance (bundled : String → Bool) (place : Place) (reference : Reference) (text behind : List Char) :
    Decidable (Stands bundled place reference text behind) :=
  inferInstanceAs (Decidable (if isDropped bundled reference.written then
    Closed place reference text ∧ place.Detached behind
  else Closed place reference text ∨ '@' ∉ place.out text))

instance decidableAllStand (bundled : String → Bool) : (place : Place) → (parts : List (Piece Reference)) →
    Decidable (AllStand bundled place parts)
  | _, [] => inferInstanceAs (Decidable True)
  | place, .plain c :: parts => decidableAllStand bundled (place.step c) parts
  | place, .found reference text :: parts =>
    have := decidableAllStand bundled (place.after text) parts
    inferInstanceAs (Decidable (Stands bundled place reference text (joined bundled parts) ∧
      AllStand bundled (place.after text) parts))

/-- No `@import` rule that is found in a stylesheet cuts through a comment or a string, and no comment
stands where the blanks behind the mark have to. -/
def Uncut (bundled : String → Bool) (css : List Char) : Prop :=
  ¬ "@import/*".toList <:+: css ∧ AllStand bundled ⟨.rules, false⟩ (pieces importRule [] css)

instance (bundled : String → Bool) (css : List Char) : Decidable (Uncut bundled css) :=
  inferInstanceAs (Decidable (_ ∧ _))

theorem mark_not_mem_held : '@' ∉ place.held := fun hx => absurd (eq_of_mem_held hx) (by decide)

theorem mark_not_mem_blank (h : Blank word) : '@' ∉ word := fun hx => absurd (h '@' hx) (by decide)

theorem removed_left_cons (hmark : ¬ "@import/*".toList <+: c :: rest)
    (hnone : importRule none [] (c :: rest) = none) :
    removed bundled (place.left (c :: rest)) =
      place.emit c ++ removed bundled ((place.step c).left rest) := by
  by_cases hplain : '@' ∈ place.emit c
  · obtain rfl : c = '@' := by
      rcases mem_emit hplain with h | h | h
      · exact h.symm
      · exact absurd h (by decide)
      · exact absurd h (by decide)
    have hregion : place.region ≠ .comment := by
      rintro hregion
      obtain ⟨region, pending⟩ := place
      obtain rfl : region = .comment := hregion
      exact absurd hplain List.not_mem_nil
    obtain ⟨hcopy, hopen⟩ := left_cons_of_ne hregion (fun _ => show '@' ≠ '*' by decide) (by decide) rest
    have hemit : place.emit '@' = place.held ++ ['@'] := by
      rw [left_cons] at hcopy
      refine (List.append_left_inj ((place.step '@').left rest)).mp ?_
      rw [hcopy, List.append_assoc, List.singleton_append]
    rw [hcopy, hemit, removed_append mark_not_mem_held,
      removed_cons (importRule_left_eq_none hopen hmark hnone), List.append_assoc,
      List.singleton_append]
  · rw [left_cons, removed_append hplain]

theorem visible_blank (h : Blank text) : visible text = [] := by
  rw [visible, List.filter_eq_nil_iff]
  exact fun x hx => by simp [h x hx]

theorem visible_kept_append (h : Blank rest) (reference : Reference) :
    visible (kept bundled reference (text ++ rest)) = visible (kept bundled reference text) := by
  rw [kept, kept]
  split
  · rfl
  · rw [visible_append, visible_blank h, List.append_nil]

theorem exists_mark (hfind : importRule previous outlook text = some find) : ∃ rest, text = '@' :: rest := by
  obtain ⟨front, written, body, stop, rest, hrule, rfl, -⟩ := importRule_eq_some.mp hfind
  obtain ⟨x, more, -, rfl⟩ := hrule.opens.exists_blank
  exact ⟨_, rfl⟩

theorem visible_removed_left (hclosed : Closed place find.value word) (hpending : place.pending = false)
    (hquoting : place.Quoting) (hfind : importRule previous outlook (word ++ rest) = some find)
    (hlength : find.length = word.length) :
    visible (removed bundled (place.left (word ++ rest))) =
      visible (kept bundled find.value (place.out word)) ++
        visible (removed bundled (place.left rest)) := by
  have hfresh : place.fresh = place := by rw [fresh, ← hpending]
  obtain ⟨hafter, hinside, hwritten⟩ := hclosed
  rw [hfresh] at hafter hwritten
  rw [left_append, hafter]
  by_cases hregion : place.region = .comment
  · -- Of the find itself only line breaks are left.
    have hout : place.out word = breaks word := by
      obtain ⟨region, pending⟩ := place
      obtain rfl : region = .comment := hregion
      obtain rfl : pending = false := hpending
      exact (out_inside (by simp) (hinside rfl)).1
    have hbreaks : Blank (breaks word) := by
      intro x hx
      obtain rfl : x = '\n' := by simpa using List.of_mem_filter hx
      decide
    rw [hout, removed_append (mark_not_mem_blank hbreaks), visible_append, visible_blank hbreaks, kept]
    split
    · rfl
    · rw [visible_blank hbreaks]
  · -- The find is a rule of what is left, which takes blanks along that were comments.
    have hopen : Open place := open_of_not_pending hregion hpending
    obtain ⟨blanks, behind, hblanks, hbehind, hagain⟩ :=
      importRule_left hfind hlength hopen hquoting hwritten hafter
    rw [hbehind, ← List.append_assoc, removed_found hagain, visible_append,
      visible_kept_append hblanks, removed_append (mark_not_mem_blank hblanks), visible_append,
      visible_blank hblanks, List.nil_append]

theorem visible_left_kept (hdetached : place.Detached (c :: word))
    (hafter : place.after (c :: word) = place.fresh) (reference : Reference)
    (htext : isDropped bundled reference.written = true → place.Detached text) :
    visible (place.left (kept bundled reference (c :: word) ++ text)) =
      visible place.held ++ (visible (kept bundled reference (place.fresh.out (c :: word))) ++
        visible (place.fresh.left text)) := by
  rw [kept, kept]
  split
  · next hdropped =>
      rw [List.nil_append, (htext hdropped).left, visible_append]
      rfl
  · rw [left_append, hafter, hdetached.out, visible_append, visible_append, List.append_assoc]

/-- Of a find that stands the same is left before and behind the removal of comments, if this is so of what
stands behind it. -/
theorem visible_left_found (hfind : importRule previous outlook (word ++ rest) = some find)
    (hlength : find.length = word.length) (hquoting : place.Quoting)
    (hstands : Stands bundled place find.value word text)
    (hrest : visible ((place.after word).left text) =
      visible (removed bundled ((place.after word).left rest))) :
    visible (place.left (kept bundled find.value word ++ text)) =
      visible (removed bundled (place.left (word ++ rest))) := by
  have hcases : (Closed place find.value word ∧
        (isDropped bundled find.value.written = true → place.Detached text)) ∨
      (isDropped bundled find.value.written = false ∧ '@' ∉ place.out word) := by
    rw [Stands] at hstands
    split at hstands
    · exact .inl ⟨hstands.1, fun _ => hstands.2⟩
    · next hkept => exact hstands.imp (fun h => ⟨h, (absurd · hkept)⟩) (⟨by simpa using hkept, ·⟩)
  rcases hcases with ⟨hclosed, htext⟩ | ⟨hkept, hmark⟩
  · obtain ⟨more, hmore⟩ := exists_mark hfind
    obtain ⟨x, word, rfl⟩ := List.exists_cons_of_length_pos (hlength ▸ (length_of_importRule hfind).1)
    obtain rfl : x = '@' := (List.cons.inj hmore).1
    have hdetached (text : List Char) : place.Detached ('@' :: text) :=
      hquoting.detached (by decide) text
    have hfresh : Closed place.fresh find.value ('@' :: word) :=
      ⟨(hdetached word).after ▸ hclosed.1, hclosed.2⟩
    rw [hclosed.1] at hrest
    rw [visible_left_kept (hdetached word) hclosed.1 _ htext, hrest, List.cons_append,
      (hdetached _).left, removed_append mark_not_mem_held, visible_append, ← List.cons_append,
      visible_removed_left hfresh rfl hquoting hfind hlength]
  · rw [kept, hkept, if_neg Bool.false_ne_true, left_append, left_append, removed_append hmark,
      visible_append, visible_append, hrest]

theorem visible_left_joined (hcuts : Cuts importRule (fun _ => []) previous text parts)
    (hquoting : place.Quoting) (hmarks : ¬ "@import/*".toList <:+: text)
    (hstand : AllStand bundled place parts) :
    visible (place.left (joined bundled parts)) = visible (removed bundled (place.left text)) := by
  induction hcuts generalizing place with
  | done =>
      have hremoved : removed bundled (place.held ++ []) = place.held ++ [] :=
        removed_append mark_not_mem_held []
      rw [List.append_nil] at hremoved
      exact congrArg visible hremoved.symm
  | @plain previous c rest parts hnone hrest ih =>
      have hrear : ¬ "@import/*".toList <:+: rest := fun hpart =>
        hmarks (hpart.trans (List.suffix_cons c rest).isInfix)
      rw [removed_left_cons (fun hpart => hmarks hpart.isInfix) hnone, visible_append,
        ← ih (hquoting.step c) hrear hstand, ← visible_append]
      exact congrArg visible left_cons
  | @found previous find word rest parts hfind hlength hrest ih =>
      obtain ⟨hstands, hstand⟩ := hstand
      have hrear : ¬ "@import/*".toList <:+: rest := fun hpart =>
        hmarks (hpart.trans (List.suffix_append word rest).isInfix)
      exact visible_left_found hfind hlength hquoting hstands (ih (hquoting.after word) hrear hstand)

/-- Taking bundled rules out of a stylesheet and taking comments out of it can be done in any order, if no
rule that is found cuts through a comment or a string: up to blanks the same is left. -/
theorem stripComments_removeImports (bundled : String → Bool) (css : String)
    (h : Uncut bundled css.toList) :
    visible (stripComments (removeImports bundled css)).toList =
      visible (removeImports bundled (stripComments css)).toList := by
  obtain ⟨hmarks, hstand⟩ := h
  have hcuts : Cuts importRule (fun _ => []) none css.toList (pieces importRule [] css.toList) :=
    cuts_piecesFrom forward_nil length_of_importRule none css.toList
  simp only [stripComments, removeImports_eq, String.toList_ofList, withoutComments_eq_left]
  rw [removed_eq_joined]
  exact visible_left_joined hcuts quoting_rules hmarks hstand

/-- A rule is taken out whose reference looks like a comment and that has one behind it; one in a comment
stays, although the find runs on behind the comment. -/
theorem stripComments_removeImports_themed :
    let bundled : String → Bool := fun request => request == "./a/*.css"
    let css := "/* @import \"b\" */ .b\x7b\x7d\n@import \"a/*.css\" /* first */;\n.c\x7b\x7d"
    Uncut bundled css.toList ∧
      visible (stripComments (removeImports bundled css)).toList =
        visible (removeImports bundled (stripComments css)).toList ∧
      stripComments (removeImports bundled css) = "  .b\x7b\x7d\n.c\x7b\x7d" :=
  ⟨by decide +kernel, stripComments_removeImports _ _ (by decide +kernel), by decide +kernel⟩

/-- A rule that is found in a comment and runs on behind it takes the end of the comment with it, so that
the rest of the stylesheet becomes part of the comment. -/
theorem exists_rest_swallowed : ¬ ∀ (bundled : String → Bool) (css : String),
    visible (stripComments (removeImports bundled css)).toList =
      visible (removeImports bundled (stripComments css)).toList := by
  intro h
  have hsame := h (fun request => request == "./base.css")
    "@import \"./base.css\"; /* was @import \"./base.css\" */ .a\x7b\x7d"
  revert hsame
  decide +kernel

end WebBundle.Proofs.RemovedImports
