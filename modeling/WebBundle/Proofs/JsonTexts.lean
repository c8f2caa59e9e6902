import Mathlib.Tactic.SplitIfs
import WebBundle.Json.Printer
import WebBundle.Json.Reader
import WebBundle.Proofs.TextSearch

namespace WebBundle.Proofs.JsonTexts

open Text Json TextSearch

theorem isDigit_of_mem_toDigits {c : Char} {n : Nat} (h : c ∈ Nat.toDigits 10 n) :
    Json.isDigit c = true := by
  have hc := Nat.isDigit_of_mem_toDigits (by decide) (by decide) h
  simpa [Json.isDigit, Char.isDigit, Char.le_def] using hc

theorem head?_toDigits_ne {n : Nat} (hn : n ≠ 0) : (Nat.toDigits 10 n).head? ≠ some '0' := by
  induction n using Nat.strongRecOn with
  | ind n ih =>
      rcases Nat.lt_or_ge n 10 with hlt | hge
      · rw [Nat.toDigits_of_lt_base hlt]
        have hall : ∀ n < 10, n ≠ 0 → [n.digitChar].head? ≠ some '0' := by decide
        exact hall n hlt hn
      · have hfront := ih (n / 10) (by omega) (by omega)
        obtain ⟨c, rest, hcons⟩ :=
          List.exists_cons_of_ne_nil (Nat.toDigits_ne_nil (n := n / 10) (b := 10))
        rw [Nat.toDigits_of_base_le (by decide) hge, hcons]
        rwa [hcons] at hfront

theorem le_ofDigitChars (digits : List Char) (start : Nat) :
    start ≤ Nat.ofDigitChars 10 digits start := by
  induction digits generalizing start with
  | nil => exact Nat.le_refl _
  | cons c rest ih =>
      rw [Nat.ofDigitChars_cons]
      have := ih (10 * start + (c.toNat - '0'.toNat))
      omega

theorem readWhole_digits {digits : List Char} (h : Nat.ofDigitChars 10 digits 0 < Nat.pow 2 64) :
    readWhole digits = (⟨Nat.ofDigitChars 10 digits 0, 0⟩, false) := by
  suffices hfold : ∀ start, Nat.ofDigitChars 10 digits start < Nat.pow 2 64 →
      digits.foldl
        (fun read c =>
          if !read.2 && fits read.1.significand (digitValue c) then
            (⟨read.1.significand * 10 + digitValue c, 0⟩, false)
          else (⟨read.1.significand, read.1.exponent + 1⟩, true)) ((⟨start, 0⟩ : Scaled), false) =
        (⟨Nat.ofDigitChars 10 digits start, 0⟩, false) from hfold 0 h
  clear h
  induction digits with
  | nil => intro start _; rfl
  | cons c rest ih =>
      intro start h
      rw [Nat.ofDigitChars_cons] at h ⊢
      have hstep : start * 10 + digitValue c = 10 * start + (c.toNat - '0'.toNat) := by
        rw [Nat.mul_comm]
        rfl
      have hfits : fits start (digitValue c) = true := by
        rw [fits, decide_eq_true_eq, hstep]
        exact Nat.lt_of_le_of_lt (le_ofDigitChars rest _) h
      rw [List.foldl_cons]
      simp only [Bool.not_false, hfits, Bool.and_self, if_true]
      rw [hstep]
      exact ih _ h

/-- What may stand behind a value: a comma, a closing bracket or the end. -/
def Ends (rest : List Char) : Prop := ∀ c ∈ rest.head?, c = ',' ∨ c = ']' ∨ c = '}'

theorem Ends.stops {p : Char → Bool} {rest : List Char} (h : Ends rest)
    (hp : [',', ']', '}'].all (!p ·) = true) : Stops p rest := by
  intro c hc
  rcases h c hc with rfl | rfl | rfl <;> simp_all

theorem one_eq_none {p : Char → Bool} {c : Cursor} (h : Stops p c.rest) : c.one p = none := by
  obtain ⟨n, rest⟩ := c
  cases rest with
  | nil => rfl
  | cons x rest => simp [Cursor.one, stops_cons.mp h]

/-- The sign in front of a number. -/
def sign (negative : Bool) : List Char := if negative then ['-'] else []

theorem head?_toDigits_append (n : Nat) (rest : List Char) :
    ∃ c, (Nat.toDigits 10 n ++ rest).head? = some c ∧ Json.isDigit c = true := by
  obtain ⟨c, digits, hcons⟩ := List.exists_cons_of_ne_nil (Nat.toDigits_ne_nil (n := n) (b := 10))
  refine ⟨c, by rw [hcons]; rfl, isDigit_of_mem_toDigits (n := n) ?_⟩
  rw [hcons]
  exact List.mem_cons_self

theorem optional_sign (negative : Bool) (n : Nat) (rest : List Char) :
    ((Cursor.start (sign negative ++ (Nat.toDigits 10 n ++ rest))).rest.head? == some '-') =
        negative ∧
      (Cursor.start (sign negative ++ (Nat.toDigits 10 n ++ rest))).optional (· == '-') =
        ⟨(sign negative).length, Nat.toDigits 10 n ++ rest⟩ := by
  cases negative with
  | true => exact ⟨rfl, rfl⟩
  | false =>
      obtain ⟨c, hc, hdigit⟩ := head?_toDigits_append n rest
      have hne : c ≠ '-' := by
        rintro rfl
        exact absurd hdigit (by decide)
      have hstops : Stops (· == '-') (Nat.toDigits 10 n ++ rest) := by
        intro x hx
        obtain rfl : c = x := Option.some.inj (hc.symm.trans hx)
        simpa using hne
      constructor
      · simp [Cursor.start, sign, hc, hne]
      · rw [Cursor.optional, one_eq_none hstops]
        rfl

theorem number_written {n : Nat} {rest : List Char} (hn : n < Nat.pow 2 64) (hrest : Ends rest)
    (negative : Bool) :
    number (Cursor.start (sign negative ++ (Nat.toDigits 10 n ++ rest))) =
      some (wholeNumber negative ⟨n, 0⟩ false,
        ⟨(sign negative ++ Nat.toDigits 10 n).length, rest⟩) := by
  obtain ⟨hnegative, hoptional⟩ := optional_sign negative n rest
  have hdigits : ∀ c ∈ Nat.toDigits 10 n, Json.isDigit c = true := fun c => isDigit_of_mem_toDigits
  have hpass : Passes ⟨(sign negative).length, Nat.toDigits 10 n ++ rest⟩ (Nat.toDigits 10 n)
      ⟨(sign negative ++ Nat.toDigits 10 n).length, rest⟩ :=
    ⟨rfl, by rw [List.length_append]⟩
  have hstops : Stops Json.isDigit rest := hrest.stops (by decide)
  have hrun := run_eq hdigits hpass hstops
  have hsome := some1_eq_some.mpr ⟨_, Nat.toDigits_ne_nil, hdigits, hstops, hpass⟩
  have hzero : (decide ((Nat.toDigits 10 n).head? = some '0') &&
      decide ((Nat.toDigits 10 n).length > 1)) = false := by
    by_cases hn : n = 0
    · subst hn
      decide
    · simp [head?_toDigits_ne hn]
  have hwhole : readWhole (Nat.toDigits 10 n) = (⟨n, 0⟩, false) := by
    rw [readWhole_digits (by rwa [Nat.ofDigitChars_ten_toDigits]), Nat.ofDigitChars_ten_toDigits]
  have hpoint : Cursor.one (· == '.') ⟨(sign negative ++ Nat.toDigits 10 n).length, rest⟩ = none :=
    one_eq_none (hrest.stops (by decide))
  have hexponent : Cursor.one (fun x => x == 'e' || x == 'E')
      ⟨(sign negative ++ Nat.toDigits 10 n).length, rest⟩ = none :=
    one_eq_none (hrest.stops (by decide))
  simp [number, hnegative, hoptional, hrun, hsome, hzero, hwhole, hpoint, hexponent,
    -List.length_append]

/-- An integer that is read as an integer. -/
def Fits (n : Int) : Prop := -9223372036854775808 ≤ n ∧ n < 18446744073709551616

theorem number_integer {n : Int} (hn : Fits n) {rest : List Char} (hrest : Ends rest) :
    number (Cursor.start ((toString n).toList ++ rest)) =
      some (some (.integer n), ⟨(toString n).toList.length, rest⟩) := by
  obtain ⟨hlow, hhigh⟩ := hn
  cases n with
  | ofNat m =>
      have htext : (toString (Int.ofNat m)).toList = sign false ++ Nat.toDigits 10 m :=
        Nat.toList_repr
      have hm : m < Nat.pow 2 64 := by
        have : (Int.ofNat m) < 18446744073709551616 := hhigh
        simp only [Int.ofNat_eq_natCast] at this
        show m < 18446744073709551616
        omega
      rw [htext, List.append_assoc, number_written hm hrest]
      rfl
  | negSucc m =>
      have htext : (toString (Int.negSucc m)).toList = sign true ++ Nat.toDigits 10 (m + 1) := by
        simp [toString, Int.repr, sign]
      have hm : m + 1 ≤ 9223372036854775808 := by omega
      have hlt : m + 1 < Nat.pow 2 64 := by
        show m + 1 < 18446744073709551616
        omega
      have hfits : m + 1 ≤ Nat.pow 2 63 := hm
      rw [htext, List.append_assoc, number_written hlt hrest]
      simp [wholeNumber, hfits, Int.negSucc_eq]

theorem hexUnit?_control {n : Nat} (hn : n < 32) :
    hexUnit? '0' '0' (hexDigit (n / 16)) (hexDigit (n % 16)) = some n := by
  have hall : ∀ n < 32, hexUnit? '0' '0' (hexDigit (n / 16)) (hexDigit (n % 16)) = some n := by
    decide
  exact hall n hn

theorem stringBody_escapeChar (taken : Nat) (done rest : List Char) (c : Char) :
    stringBody taken (some done) (escapeChar c ++ rest) =
      stringBody (taken + (escapeChar c).length) (some (c :: done)) rest := by
  have hletter : ∀ x y : Char, x ≠ 'u' → simpleEscape? x = some y →
      stringBody taken (some done) ('\\' :: x :: rest) =
        stringBody (taken + 2) (some (y :: done)) rest := by
    intro x y hx hy
    rw [stringBody]
    · simp [hy]
    · rintro _ _ _ _ _ rfl
      exact absurd rfl hx
  have hchar : ∀ {n : Nat}, c.toNat = n → c = Char.ofNat n := by
    rintro n rfl
    exact (Char.ofNat_toNat c).symm
  rw [escapeChar]
  split_ifs with hquote hslash hback hfeed hbreak hreturn htab hcontrol
  · exact hletter '"' c (by decide) (by rw [hquote]; decide)
  · exact hletter '\\' c (by decide) (by rw [hslash]; decide)
  · exact hletter 'b' c (by decide) (by rw [hchar hback]; decide)
  · exact hletter 'f' c (by decide) (by rw [hchar hfeed]; decide)
  · exact hletter 'n' c (by decide) (by rw [hbreak]; decide)
  · exact hletter 'r' c (by decide) (by rw [hreturn]; decide)
  · exact hletter 't' c (by decide) (by rw [htab]; decide)
  · have hleading : isLeadingSurrogate c.toNat = false := by simp [isLeadingSurrogate]; omega
    have htrailing : isTrailingSurrogate c.toNat = false := by simp [isTrailingSurrogate]; omega
    simp only [List.cons_append, List.nil_append]
    rw [stringBody, hexUnit?_control hcontrol]
    simp [hleading, htrailing, Char.ofNat_toNat]
  · rw [List.singleton_append, stringBody]
    · simp [hquote, hslash, hcontrol]
    all_goals simp [hslash]

theorem stringBody_escaped (taken : Nat) (done text rest : List Char) :
    stringBody taken (some done) (text.flatMap escapeChar ++ '"' :: rest) =
      some (some (text.reverse ++ done), taken + (text.flatMap escapeChar).length + 1) := by
  induction text generalizing taken done with
  | nil =>
      rw [List.flatMap_nil, List.nil_append, stringBody]
      · simp
      all_goals simp
  | cons c text ih =>
      rw [List.flatMap_cons, List.append_assoc, stringBody_escapeChar, ih]
      simp [Nat.add_assoc]

theorem tokensFrom_covered (done : List Token) (word rest : List Char) :
    tokensFrom word.length done (word ++ rest) = tokensFrom 0 done rest := by
  induction word with
  | nil => rfl
  | cons c word ih => simpa [tokensFrom] using ih

theorem tokensFrom_token {c : Char} {w rest : List Char} {token : Token}
    (hblank : isBlank c = false) (h : token? (c :: (w ++ rest)) = some (token, w.length + 1))
    (done : List Token) :
    tokensFrom 0 done (c :: (w ++ rest)) = tokensFrom 0 (token :: done) rest := by
  rw [tokensFrom]
  simp [hblank, h, tokensFrom_covered]

theorem tokensFrom_mark {c : Char} {token : Token} (hblank : isBlank c = false)
    (h : ∀ rest, token? (c :: rest) = some (token, 1)) (done : List Token) (rest : List Char) :
    tokensFrom 0 done (c :: rest) = tokensFrom 0 (token :: done) rest :=
  tokensFrom_token (w := []) hblank (h rest) done

theorem tokensFrom_string (text : List Char) (done : List Token) (rest : List Char) :
    tokensFrom 0 done (quoteChars text ++ rest) =
      tokensFrom 0 (.string (some (String.ofList text)) :: done) rest := by
  have hbody := stringBody_escaped 1 [] text rest
  rw [List.append_nil] at hbody
  rw [quoteChars, List.cons_append]
  refine tokensFrom_token (by decide) ?_ done
  rw [List.append_assoc, List.singleton_append]
  simp [token?, hbody, Nat.add_comm]

theorem head_toString (n : Int) :
    ∃ c w, (toString n).toList = c :: w ∧ (c = '-' ∨ Json.isDigit c = true) := by
  cases n with
  | ofNat m =>
      obtain ⟨c, w, hcons⟩ := List.exists_cons_of_ne_nil (Nat.toDigits_ne_nil (n := m) (b := 10))
      have hc : c ∈ Nat.toDigits 10 m := hcons ▸ List.mem_cons_self
      exact ⟨c, w, Nat.toList_repr.trans hcons, .inr (isDigit_of_mem_toDigits hc)⟩
  | negSucc m =>
      exact ⟨'-', Nat.toDigits 10 (m + 1), by simp [toString, Int.repr], .inl rfl⟩

theorem tokensFrom_integer {n : Int} (hn : Fits n) {rest : List Char} (hrest : Ends rest)
    (done : List Token) :
    tokensFrom 0 done ((toString n).toList ++ rest) =
      tokensFrom 0 (.scalar (some (.integer n)) :: done) rest := by
  obtain ⟨c, w, htext, hc⟩ := head_toString n
  have hnumber := number_integer hn hrest
  rw [htext, List.cons_append] at hnumber
  have hne : ∀ x ∈ ['{', '}', '[', ']', ',', ':', '"', ' ', '\n', '\t', '\r'], c ≠ x := by
    rintro x hx rfl
    rcases hc with rfl | hc
    · simp at hx
    · have hall : ∀ x ∈ ['{', '}', '[', ']', ',', ':', '"', ' ', '\n', '\t', '\r'],
          Json.isDigit x = false := forall_mem_of_all (by decide)
      rw [hall c hx] at hc
      exact Bool.noConfusion hc
  simp only [List.mem_cons, List.not_mem_nil, or_false, forall_eq_or_imp, forall_eq] at hne
  rw [htext, List.cons_append]
  refine tokensFrom_token ?_ ?_ done
  · simp [isBlank, hne]
  · have hopen : (decide (c = '-') || Json.isDigit c) = true := by simpa using hc
    simp [token?, hne, hopen, hnumber]

theorem tokensFrom_word {word : List Char} {value : Json} (done : List Token) (rest : List Char)
    (h : word = "null".toList ∧ value = .null ∨ word = "true".toList ∧ value = .bool true ∨
      word = "false".toList ∧ value = .bool false) :
    tokensFrom 0 done (word ++ rest) = tokensFrom 0 (.scalar (some value) :: done) rest := by
  rcases h with ⟨rfl, rfl⟩ | ⟨rfl, rfl⟩ | ⟨rfl, rfl⟩
  · exact tokensFrom_token (c := 'n') (w := ['u', 'l', 'l']) (by decide) rfl done
  · exact tokensFrom_token (c := 't') (w := ['r', 'u', 'e']) (by decide) rfl done
  · exact tokensFrom_token (c := 'f') (w := ['a', 'l', 's', 'e']) (by decide) rfl done

mutual

/-- A value that its text keeps, with arrays and objects that nest at most `depth` deep: it has no
doubles, and its integers are read as integers. -/
def Storable : (depth : Nat) → Json → Prop
  | _, .integer n => Fits n
  | _, .float _ => False
  | 0, .array _ => False
  | 0, .object _ => False
  | depth + 1, .array items => StorableItems depth items
  | depth + 1, .object fields => StorableFields depth fields
  | _, _ => True

def StorableItems : (depth : Nat) → List Json → Prop
  | _, [] => True
  | depth, item :: rest => Storable depth item ∧ StorableItems depth rest

def StorableFields : (depth : Nat) → List (String × Json) → Prop
  | _, [] => True
  | depth, (_, value) :: rest => Storable depth value ∧ StorableFields depth rest

end

mutual

def tokens : Json → List Token
  | .string text => [.string (some text)]
  | .array items => .openArray :: (itemTokens true items ++ [.closeArray])
  | .object fields => .openObject :: (fieldTokens true fields ++ [.closeObject])
  | value => [.scalar (some value)]

def itemTokens : (first : Bool) → List Json → List Token
  | _, [] => []
  | first, item :: rest =>
    (if first then [] else [.comma]) ++ tokens item ++ itemTokens false rest

def fieldTokens : (first : Bool) → List (String × Json) → List Token
  | _, [] => []
  | first, (key, value) :: rest =>
    (if first then [] else [.comma]) ++ .string (some key) :: .colon :: tokens value ++
      fieldTokens false rest

end

theorem ends_items (items : List Json) (rest : List Char) :
    Ends (compactItems false items ++ ']' :: rest) := by
  intro c hc
  cases items with
  | nil =>
      obtain rfl : ']' = c := Option.some.inj hc
      exact .inr (.inl rfl)
  | cons item items =>
      obtain rfl : ',' = c := Option.some.inj hc
      exact .inl rfl

theorem ends_fields (fields : List (String × Json)) (rest : List Char) :
    Ends (compactFields false fields ++ '}' :: rest) := by
  intro c hc
  cases fields with
  | nil =>
      obtain rfl : '}' = c := Option.some.inj hc
      exact .inr (.inr rfl)
  | cons field fields =>
      obtain rfl : ',' = c := Option.some.inj hc
      exact .inl rfl

theorem tokensFrom_comma (first : Bool) (done : List Token) (rest : List Char) :
    tokensFrom 0 done ((if first then [] else [',']) ++ rest) =
      tokensFrom 0 ((if first then [] else [.comma]) ++ done) rest := by
  cases first with
  | true => rfl
  | false => exact tokensFrom_mark (by decide) (fun _ => rfl) done rest

mutual

theorem tokensFrom_compact (depth : Nat) (value : Json) (h : Storable depth value)
    (done : List Token) (rest : List Char) (hrest : Ends rest) :
    tokensFrom 0 done (compactChars value ++ rest) =
      tokensFrom 0 ((tokens value).reverse ++ done) rest := by
  match depth, value with
  | _, .null => exact tokensFrom_word done rest (.inl ⟨rfl, rfl⟩)
  | _, .bool true => exact tokensFrom_word done rest (.inr (.inl ⟨rfl, rfl⟩))
  | _, .bool false => exact tokensFrom_word done rest (.inr (.inr ⟨rfl, rfl⟩))
  | _, .integer n =>
      -- Only a number depends on what is behind it.
      rw [Storable] at h
      exact tokensFrom_integer h hrest done
  | _, .float _ => simp [Storable] at h
  | _, .string text =>
      have hstring := tokensFrom_string text.toList done rest
      rwa [String.ofList_toList] at hstring
  | 0, .array _ => simp [Storable] at h
  | 0, .object _ => simp [Storable] at h
  | depth + 1, .array items =>
      rw [Storable] at h
      rw [compactChars, List.cons_append, List.append_assoc, List.singleton_append,
        tokensFrom_mark (by decide) (fun _ => rfl), tokensFrom_items depth true items h,
        tokensFrom_mark (by decide) (fun _ => rfl)]
      simp [tokens]
  | depth + 1, .object fields =>
      rw [Storable] at h
      rw [compactChars, List.cons_append, List.append_assoc, List.singleton_append,
        tokensFrom_mark (by decide) (fun _ => rfl), tokensFrom_fields depth true fields h,
        tokensFrom_mark (by decide) (fun _ => rfl)]
      simp [tokens]

theorem tokensFrom_items (depth : Nat) (first : Bool) (items : List Json)
    (h : StorableItems depth items) (done : List Token) (rest : List Char) :
    tokensFrom 0 done (compactItems first items ++ ']' :: rest) =
      tokensFrom 0 ((itemTokens first items).reverse ++ done) (']' :: rest) := by
  match items with
  | [] => simp [compactItems, itemTokens]
  | item :: items =>
      rw [StorableItems] at h
      rw [compactItems, List.append_assoc, List.append_assoc, tokensFrom_comma,
        tokensFrom_compact depth item h.1 _ _ (ends_items items rest),
        tokensFrom_items depth false items h.2]
      cases first <;> simp [itemTokens]

theorem tokensFrom_fields (depth : Nat) (first : Bool) (fields : List (String × Json))
    (h : StorableFields depth fields) (done : List Token) (rest : List Char) :
    tokensFrom 0 done (compactFields first fields ++ '}' :: rest) =
      tokensFrom 0 ((fieldTokens first fields).reverse ++ done) ('}' :: rest) := by
  match fields with
  | [] => simp [compactFields, fieldTokens]
  | (key, value) :: fields =>
      rw [StorableFields] at h
      have hstring := fun done rest => tokensFrom_string key.toList done rest
      simp only [String.ofList_toList] at hstring
      simp only [compactFields, List.append_assoc, List.cons_append]
      rw [tokensFrom_comma, hstring, tokensFrom_mark (by decide) (fun _ => rfl),
        tokensFrom_compact depth value h.1 _ _ (ends_fields fields rest),
        tokensFrom_fields depth false fields h.2]
      cases first <;> simp [fieldTokens]

end

theorem tokens?_compact {depth : Nat} {value : Json} (h : Storable depth value) :
    tokens? (compactChars value) = some (tokens value) := by
  have hread := tokensFrom_compact depth value h [] [] (by simp [Ends])
  rw [List.append_nil, List.append_nil] at hread
  rw [tokens?, hread, tokensFrom, List.reverse_reverse]

mutual

/-- A value as it is written. -/
def written : Json → Written
  | .array items => .array (writtenItems items)
  | .object fields => .object (writtenFields fields)
  | value => .scalar (some value)

def writtenItems : List Json → List Written
  | [] => []
  | item :: rest => written item :: writtenItems rest

def writtenFields : List (String × Json) → List (Option String × Written)
  | [] => []
  | (key, value) :: rest => (some key, written value) :: writtenFields rest

end

/-- The state in which a value may come, with some of the values around it open. -/
def Ready (s : State) : Prop := s.expected = .value ∨ s.expected = .valueOrEnd

theorem step_of_ready {s : State} (hs : Ready s) {token : Token} (h : token ≠ .closeArray) :
    s.step token = s.readValue token := by
  obtain ⟨opened, expected, whole⟩ := s
  rcases hs with h' | h'
  · obtain rfl : expected = .value := h'
    simp [State.step]
  · obtain rfl : expected = .valueOrEnd := h'
    cases token <;> simp_all [State.step]

theorem complete_congr {s s' : State} (h : s.opened = s'.opened) (value : Written) :
    s.complete value = s'.complete value := by
  rw [State.complete, State.complete, h]

/-- Inside an array, before its first item or behind another one. -/
def inArray (first : Bool) (items : List Written) (outer : List Open) : State :=
  ⟨.array items :: outer, if first then .valueOrEnd else .separator, none⟩

def inObject (first : Bool) (fields : List (Option String × Written)) (outer : List Open) : State :=
  ⟨.object fields :: outer, if first then .keyOrEnd else .separator, none⟩

theorem run_append (s : State) (front rear : List Token) :
    s.run (front ++ rear) = (s.run front).bind fun next => next.run rear := by
  induction front generalizing s with
  | nil => rfl
  | cons token front ih =>
      rw [List.cons_append, State.run, State.run]
      cases hstep : s.step token with
      | none => rfl
      | some next => exact ih next

mutual

theorem run_value (value : Json) (s : State) (hs : Ready s) :
    s.run (tokens value) = s.complete (written value) := by
  match value with
  | .array items =>
      rw [tokens, State.run, step_of_ready hs (by simp)]
      show State.run (inArray true [] s.opened) (itemTokens true items ++ [.closeArray]) = _
      rw [run_items, written]
      exact complete_congr rfl _
  | .object fields =>
      rw [tokens, State.run, step_of_ready hs (by simp)]
      show State.run (inObject true [] s.opened) (fieldTokens true fields ++ [.closeObject]) = _
      rw [run_fields, written]
      exact complete_congr rfl _
  | .string text => simp [tokens, State.run, step_of_ready hs, State.readValue, written]
  | .null | .bool _ | .integer _ | .float _ =>
      simp [tokens, State.run, step_of_ready hs, State.readValue, written]

theorem run_items (items : List Json) (first : Bool) (done : List Written) (outer : List Open) :
    (inArray first done outer).run (itemTokens first items ++ [.closeArray]) =
      State.complete ⟨outer, .nothing, none⟩ (.array (done.reverse ++ writtenItems items)) := by
  match items with
  | [] =>
      cases first <;>
        simp [itemTokens, State.run, inArray, State.step, State.closeArray, writtenItems]
  | item :: items =>
      have hready : ∃ s : State, Ready s ∧ s.opened = .array done :: outer ∧
          ∀ rest, (inArray first done outer).run
            ((if first then [] else [.comma]) ++ rest) = s.run rest := by
        cases first with
        | true => exact ⟨inArray true done outer, .inr rfl, rfl, fun _ => rfl⟩
        | false => exact ⟨⟨.array done :: outer, .value, none⟩, .inl rfl, rfl, fun _ => rfl⟩
      obtain ⟨s, hs, hopened, hcomma⟩ := hready
      rw [itemTokens, List.append_assoc, List.append_assoc, hcomma, run_append, run_value item s hs]
      have hcomplete : s.complete (written item) =
          some (inArray false (written item :: done) outer) := by
        rw [State.complete, hopened]
        rfl
      rw [hcomplete, Option.bind_some, run_items items false]
      simp [writtenItems]

theorem run_fields (fields : List (String × Json)) (first : Bool)
    (done : List (Option String × Written)) (outer : List Open) :
    (inObject first done outer).run (fieldTokens first fields ++ [.closeObject]) =
      State.complete ⟨outer, .nothing, none⟩ (.object (done.reverse ++ writtenFields fields)) := by
  match fields with
  | [] =>
      cases first <;>
        simp [fieldTokens, State.run, inObject, State.step, State.closeObject, writtenFields]
  | (key, value) :: fields =>
      have hkey : ∀ rest, (inObject first done outer).run
          ((if first then [] else [.comma]) ++ .string (some key) :: .colon :: rest) =
            State.run ⟨.field (some key) done :: outer, .value, none⟩ rest := by
        cases first <;> exact fun _ => rfl
      rw [fieldTokens]
      simp only [List.append_assoc, List.cons_append]
      rw [hkey, run_append, run_value value _ (.inl rfl)]
      have hcomplete : State.complete ⟨.field (some key) done :: outer, .value, none⟩
          (written value) = some (inObject false ((some key, written value) :: done) outer) := rfl
      rw [hcomplete, Option.bind_some, run_fields fields false]
      simp [writtenFields]

end

theorem written?_compact {depth : Nat} {value : Json} (h : Storable depth value) :
    written? value.compact = some (written value) := by
  have hrun := run_value value State.initial (.inl rfl)
  rw [written?, compact, String.toList_ofList, tokens?_compact h]
  simp only [Option.bind_eq_bind, Option.bind_some, hrun]
  rfl

mutual

theorem value?_written (depth : Nat) (value : Json) (h : Storable depth value) :
    (written value).value? depth = some value := by
  match depth, value with
  | _, .null | _, .bool _ | _, .integer _ | _, .string _ => simp [written, Written.value?]
  | _, .float _ => simp [Storable] at h
  | 0, .array _ => simp [Storable] at h
  | 0, .object _ => simp [Storable] at h
  | depth + 1, .array items =>
      rw [Storable] at h
      rw [written, Written.value?, values?_written depth items h, Option.map_some]
  | depth + 1, .object fields =>
      rw [Storable] at h
      rw [written, Written.value?, fields?_written depth fields h, Option.map_some]

theorem values?_written (depth : Nat) (items : List Json) (h : StorableItems depth items) :
    Written.values? depth (writtenItems items) = some items := by
  match items with
  | [] => rfl
  | item :: items =>
      rw [StorableItems] at h
      rw [writtenItems, Written.values?, value?_written depth item h.1,
        values?_written depth items h.2]
      rfl

theorem fields?_written (depth : Nat) (fields : List (String × Json))
    (h : StorableFields depth fields) :
    Written.fields? depth (writtenFields fields) = some fields := by
  match fields with
  | [] => rfl
  | (key, value) :: fields =>
      rw [StorableFields] at h
      rw [writtenFields, Written.fields?, value?_written depth value h.1,
        fields?_written depth fields h.2]
      rfl

end

/-- A value is read from its text as it was. -/
theorem parse?_compact {value : Json} (h : Storable nestingLimit value) :
    parse? value.compact = some value := by
  rw [parse?, written?_compact h, Option.bind_some, value?_written _ _ h]

end WebBundle.Proofs.JsonTexts
