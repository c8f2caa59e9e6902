import Mathlib.Data.List.TakeWhile
import WebBundle.Text.Cursor
import WebBundle.Text.Search

namespace WebBundle.Proofs.TextSearch

open Text

section Texts

variable {p : Char → Prop} [DecidablePred p] {word : List Char}

theorem forall_mem_of_all (h : word.all (p ·) = true) : ∀ x ∈ word, p x := by simpa using h

theorem forall_getLast?_of_all (h : word.getLast?.all (p ·) = true) : ∀ x ∈ word.getLast?, p x := by
  intro x hx
  rw [Option.mem_def.mp hx] at h
  simpa using h

end Texts

section Moves

variable {p : Char → Bool} {word rest : List Char} {c d : Cursor}

/-- One cursor stands behind the other, with a text between them. -/
def Passes (c : Cursor) (word : List Char) (d : Cursor) : Prop :=
  c.rest = word ++ d.rest ∧ d.taken = c.taken + word.length

theorem Passes.trans {first second : List Char} {e : Cursor} (h : Passes c first d)
    (h' : Passes d second e) : Passes c (first ++ second) e := by
  obtain ⟨hrest, htaken⟩ := h
  obtain ⟨hrest', htaken'⟩ := h'
  refine ⟨?_, ?_⟩
  · rw [hrest, hrest', List.append_assoc]
  · rw [htaken', htaken, List.length_append, Nat.add_assoc]

theorem passes_append {first second : List Char} {e : Cursor} :
    Passes c (first ++ second) e ↔ ∃ d, Passes c first d ∧ Passes d second e := by
  constructor
  · rintro ⟨hrest, htaken⟩
    refine ⟨⟨c.taken + first.length, second ++ e.rest⟩, ⟨?_, rfl⟩, rfl, ?_⟩
    · rw [hrest, List.append_assoc]
    · rw [htaken, List.length_append, Nat.add_assoc]
  · rintro ⟨d, hfirst, hsecond⟩
    exact hfirst.trans hsecond

theorem Passes.length_eq (h : Passes c word d) :
    d.taken + d.rest.length = c.taken + c.rest.length := by
  rw [h.1, h.2, List.length_append, Nat.add_assoc]

/-- A text goes on, if at all, with a character outside a class. -/
def Stops (p : Char → Bool) (text : List Char) : Prop := ∀ x ∈ text.head?, p x = false

@[simp] theorem stops_cons {x : Char} : Stops p (x :: rest) ↔ p x = false := by simp [Stops]

theorem takeWhile_append_of_stops (hword : ∀ x ∈ word, p x = true) (hrest : Stops p rest) :
    (word ++ rest).takeWhile p = word := by
  rw [List.takeWhile_append_of_pos hword]
  cases rest with
  | nil => simp
  | cons x rest => simp [stops_cons.mp hrest]

theorem dropWhile_append_of_stops (hword : ∀ x ∈ word, p x = true) (hrest : Stops p rest) :
    (word ++ rest).dropWhile p = rest := by
  rw [List.dropWhile_append_of_pos hword]
  cases rest with
  | nil => rfl
  | cons x rest => simp [stops_cons.mp hrest]

theorem stops_dropWhile (p : Char → Bool) (text : List Char) : Stops p (text.dropWhile p) := by
  have hhead := List.head?_dropWhile_not p text
  intro x hx
  rw [Option.mem_def] at hx
  rw [hx] at hhead
  exact hhead

theorem run_eq (hword : ∀ x ∈ word, p x = true) (hpass : Passes c word d) (hrest : Stops p d.rest) :
    c.run p = word := by
  rw [Cursor.run, hpass.1, takeWhile_append_of_stops hword hrest]

theorem skip_eq (hword : ∀ x ∈ word, p x = true) (hpass : Passes c word d)
    (hrest : Stops p d.rest) :
    c.skip p = d := by
  obtain ⟨htext, htaken⟩ := hpass
  rw [Cursor.skip, htext, takeWhile_append_of_stops hword hrest,
    dropWhile_append_of_stops hword hrest,
    ← htaken]

theorem passes_skip (p : Char → Bool) (c : Cursor) : Passes c (c.run p) (c.skip p) :=
  ⟨List.takeWhile_append_dropWhile.symm, rfl⟩

theorem forall_mem_run (p : Char → Bool) (c : Cursor) : ∀ x ∈ c.run p, p x = true :=
  fun _ hx => List.mem_takeWhile_imp hx

theorem stops_skip (p : Char → Bool) (c : Cursor) : Stops p (c.skip p).rest :=
    stops_dropWhile p c.rest

theorem one_eq_some : c.one p = some d ↔ ∃ x, p x = true ∧ Passes c [x] d := by
  obtain ⟨n, text⟩ := c
  obtain ⟨m, rest⟩ := d
  cases text with
  | nil => simp [Cursor.one, Passes]
  | cons y text =>
      by_cases hy : p y = true
      · simp only [Cursor.one, hy, if_true, Passes, Option.some.injEq, Cursor.mk.injEq,
          List.cons_append, List.nil_append, List.cons.injEq, List.length_cons, List.length_nil]
        constructor
        · rintro ⟨rfl, rfl⟩
          exact ⟨y, hy, ⟨rfl, rfl⟩, rfl⟩
        · rintro ⟨x, -, ⟨-, rfl⟩, rfl⟩
          exact ⟨rfl, rfl⟩
      · refine iff_of_false (by simp [Cursor.one, hy]) ?_
        rintro ⟨x, hx, htext, -⟩
        exact hy ((List.cons.inj htext).1 ▸ hx)

theorem literal_eq_some : c.literal word = some d ↔ Passes c word d := by
  induction word generalizing c with
  | nil =>
      obtain ⟨n, text⟩ := c
      obtain ⟨m, rest⟩ := d
      simp [Cursor.literal, Passes, and_comm, eq_comm]
  | cons x word ih =>
      obtain ⟨n, text⟩ := c
      cases text with
      | nil => simp [Cursor.literal, Passes]
      | cons y text =>
          by_cases hxy : x = y
          · subst hxy
            have hstep : Cursor.literal (x :: word) ⟨n, x :: text⟩ =
                Cursor.literal word ⟨n + 1, text⟩ := by
              simp [Cursor.literal]
            rw [hstep, ih]
            simp [Passes, Nat.add_right_comm, Nat.add_assoc]
          · simp [Cursor.literal, Passes, hxy, Ne.symm hxy]

theorem some1_eq_some :
    c.some1 p = some d ↔ ∃ word, word ≠ [] ∧ (∀ x ∈ word, p x = true) ∧ Stops p d.rest ∧
      Passes c word d := by
  rw [Cursor.some1, Option.map_eq_some_iff]
  constructor
  · rintro ⟨e, hone, rfl⟩
    obtain ⟨x, hx, hpass⟩ := one_eq_some.mp hone
    refine ⟨x :: e.run p, by simp, ?_, stops_skip p e, hpass.trans (passes_skip p e)⟩
    simpa [hx] using forall_mem_run p e
  · rintro ⟨word, hne, hall, hrest, hpass⟩
    obtain ⟨x, word, rfl⟩ := List.exists_cons_of_ne_nil hne
    obtain ⟨hx, hword⟩ := List.forall_mem_cons.mp hall
    have hfirst : Passes c [x] ⟨c.taken + 1, word ++ d.rest⟩ := ⟨hpass.1, rfl⟩
    refine ⟨_, one_eq_some.mpr ⟨x, hx, hfirst⟩, skip_eq hword ⟨rfl, ?_⟩ hrest⟩
    rw [hpass.2, List.length_cons, Nat.add_right_comm, Nat.add_assoc]

end Moves

section Outlooks

variable {σ : Type} {before : Char → List Char → σ → σ} {last : σ} {goesOn : σ → Bool}

/-- What is known before a text. -/
def known (before : Char → List Char → σ → σ) (last : σ) : List Char → σ
  | [] => last
  | c :: rest => before c rest (known before last rest)

theorem outlook_cons (c : Char) (rest : List Char) : Outlook.of before last goesOn (c :: rest) =
    goesOn (known before last (c :: rest)) :: Outlook.of before last goesOn rest := by
  have hfold : ∀ text : List Char, text.foldr
      (fun c (rest, known, outlook) =>
        (c :: rest, before c rest known, goesOn (before c rest known) :: outlook))
      (([], last, [goesOn last]) : List Char × σ × Outlook) =
        (text, known before last text, Outlook.of before last goesOn text) := by
    intro text
    induction text with
    | nil => rfl
    | cons d text ih =>
        simp only [Outlook.of, List.foldr_cons] at ih ⊢
        rw [ih]
        rfl
  have h := hfold rest
  simp only [Outlook.of, List.foldr_cons] at h ⊢
  rw [h]
  rfl

theorem drop_outlook (front rear : List Char) :
    (Outlook.of before last goesOn (front ++ rear)).drop front.length =
      Outlook.of before last goesOn rear := by
  induction front with
  | nil => rfl
  | cons c front ih => simpa [outlook_cons] using ih

theorem allows_outlook (front rear : List Char) :
    (Outlook.of before last goesOn (front ++ rear)).allows front.length =
      goesOn (known before last rear) := by
  rw [Outlook.allows, drop_outlook]
  cases rear with
  | nil => rfl
  | cons c rear => simp [outlook_cons]

end Outlooks

section Finds

variable {α : Type} {recognize : Recognizer α} {look : List Char → Outlook} {text : List Char}

/-- What is known of the rest of a text does not depend on what was passed. -/
def Forward (look : List Char → Outlook) : Prop :=
  ∀ front rear, (look (front ++ rear)).drop front.length = look rear

theorem forward_outlook {σ : Type} (before : Char → List Char → σ → σ) (last : σ)
    (goesOn : σ → Bool) :
    Forward (Outlook.of before last goesOn) := drop_outlook

theorem forward_nil : Forward fun _ => [] := fun _ _ => List.drop_nil

theorem Forward.tail (hlook : Forward look) (c : Char) (rest : List Char) :
    (look (c :: rest)).tail = look rest := by
  rw [← List.drop_one]
  exact hlook [c] rest

theorem getLast?_cons_or (c : Char) (front : List Char) (previous : Option Char) :
    (c :: front).getLast?.or previous = front.getLast?.or (some c) := by
  rw [List.getLast?_cons]
  cases front.getLast? <;> rfl

theorem piecesFrom_covered (hlook : Forward look) (previous : Option Char) (word rest : List Char) :
    piecesFrom recognize previous word.length (look (word ++ rest)) (word ++ rest) =
      piecesFrom recognize (word.getLast?.or previous) 0 (look rest) rest := by
  induction word generalizing previous with
  | nil => rfl
  | cons c word ih =>
      rw [List.length_cons, List.cons_append, piecesFrom, hlook.tail, ih, getLast?_cons_or]

/-- A search leaves every character plain, if and only if nowhere something is recognized. -/
theorem forall_plain_iff (hlook : Forward look) (previous : Option Char) :
    (∀ part ∈ piecesFrom recognize previous 0 (look text) text, ∃ c, part = .plain c) ↔
      ∀ front c rear, text = front ++ c :: rear →
        recognize (front.getLast?.or previous) (look (c :: rear)) (c :: rear) = none := by
  induction text generalizing previous with
  | nil => simp [piecesFrom]
  | cons c rest ih =>
      rw [piecesFrom]
      cases hhere : recognize previous (look (c :: rest)) (c :: rest) with
      | some find =>
          refine iff_of_false (by simp) fun h => ?_
          have hnone : recognize previous (look (c :: rest)) (c :: rest) = none := h [] c rest rfl
          exact absurd (hhere.symm.trans hnone) (by simp)
      | none =>
          simp only [hlook.tail, List.forall_mem_cons, Piece.plain.injEq, exists_eq', true_and, ih]
          constructor
          · intro h front d rear htext
            rcases List.cons_eq_append_iff.mp htext with ⟨rfl, heq⟩ | ⟨front, rfl, heq⟩
            · obtain ⟨rfl, rfl⟩ := List.cons.inj heq
              exact hhere
            · rw [getLast?_cons_or]
              exact h front d rear heq
          · intro h front d rear htext
            rw [← getLast?_cons_or]
            exact h (c :: front) d rear (by rw [htext, List.cons_append])

theorem findsFrom_eq_nil_iff (n : Nat) (parts : List (Piece α)) :
    findsFrom n parts = [] ↔ ∀ part ∈ parts, ∃ c, part = .plain c := by
  induction parts generalizing n with
  | nil => simp [findsFrom]
  | cons part parts ih =>
      cases part with
      | plain c => simp [findsFrom, ih]
      | found value text => simp [findsFrom]

theorem finds_eq_nil_iff (hlook : Forward look) : finds recognize (look text) text = [] ↔
    ∀ front c rear, text = front ++ c :: rear →
      recognize front.getLast? (look (c :: rear)) (c :: rear) = none := by
  rw [finds, pieces, findsFrom_eq_nil_iff, forall_plain_iff hlook]
  simp only [Option.or_none]

theorem piecesFrom_eq_map_plain {previous : Option Char} {outlook : Outlook}
    (h : ∀ part ∈ piecesFrom recognize previous 0 outlook text, ∃ c, part = .plain c) :
    piecesFrom recognize previous 0 outlook text = text.map .plain := by
  induction text generalizing previous outlook with
  | nil => rfl
  | cons c rest ih =>
      rw [piecesFrom] at h ⊢
      cases hhere : recognize previous outlook (c :: rest) with
      | some find => simp [hhere] at h
      | none =>
          simp only [hhere, List.forall_mem_cons] at h
          exact congrArg (Piece.plain c :: ·) (ih h.2)

theorem replace_eq_self {outlook : Outlook} (substitute : α → List Char → List Char)
    (h : finds recognize outlook text = []) : replace recognize outlook substitute text = text := by
  rw [finds, findsFrom_eq_nil_iff] at h
  rw [replace, pieces, piecesFrom_eq_map_plain h, List.flatMap_map]
  exact List.flatMap_singleton' text

/-- How a search cuts a text: a character where nothing is recognized stands alone, and behind a
find the search goes on with its last character before it. -/
inductive Cuts (recognize : Recognizer α) (look : List Char → Outlook) :
    Option Char → List Char → List (Piece α) → Prop where
  | done {previous : Option Char} : Cuts recognize look previous [] []
  | plain {previous : Option Char} {c : Char} {rest : List Char} {parts : List (Piece α)}
      (hnone : recognize previous (look (c :: rest)) (c :: rest) = none)
      (hrest : Cuts recognize look (some c) rest parts) :
      Cuts recognize look previous (c :: rest) (.plain c :: parts)
  | found {previous : Option Char} {find : Found α} {word rest : List Char} {parts : List (Piece α)}
      (hfind : recognize previous (look (word ++ rest)) (word ++ rest) = some find)
      (hlength : find.length = word.length)
      (hrest : Cuts recognize look word.getLast? rest parts) :
      Cuts recognize look previous (word ++ rest) (.found find.value word :: parts)

/-- Every search cuts its text so, if finds are neither empty nor longer than the text. -/
theorem cuts_piecesFrom (hlook : Forward look)
    (hfinds : ∀ {previous text find}, recognize previous (look text) text = some find →
      0 < find.length ∧ find.length ≤ text.length) (previous : Option Char) (text : List Char) :
    Cuts recognize look previous text (piecesFrom recognize previous 0 (look text) text) := by
  induction hn : text.length using Nat.strong_induction_on generalizing previous text with
  | _ n ih =>
      cases text with
      | nil => exact .done
      | cons c rest =>
          rw [piecesFrom, hlook.tail]
          cases hhere : recognize previous (look (c :: rest)) (c :: rest) with
          | none => exact .plain hhere (ih rest.length (by simp [← hn]) _ _ rfl)
          | some find =>
              obtain ⟨hpos, hle⟩ := hfinds hhere
              obtain ⟨k, hk⟩ : ∃ k, find.length = k + 1 := ⟨find.length - 1, by omega⟩
              have hsplit : rest = rest.take k ++ rest.drop k := (List.take_append_drop k rest).symm
              have hword : (c :: rest).take find.length = c :: rest.take k := by
                rw [hk, List.take_succ_cons]
              have hlength : (rest.take k).length = k := by
                rw [List.length_take, Nat.min_eq_left]
                simpa [hk] using hle
              have hbehind : piecesFrom recognize (some c) k (look rest) rest =
                  piecesFrom recognize (c :: rest.take k).getLast? 0 (look (rest.drop k))
                    (rest.drop k) := by
                have hcovered : piecesFrom recognize (some c) (rest.take k).length
                    (look (rest.take k ++ rest.drop k)) (rest.take k ++ rest.drop k) = _ :=
                  piecesFrom_covered hlook (some c) (rest.take k) (rest.drop k)
                rw [← hsplit, hlength] at hcovered
                rw [hcovered, ← getLast?_cons_or c (rest.take k) none, Option.or_none]
              have hshort : (rest.drop k).length < n := by
                rw [← hn, List.length_drop, List.length_cons]
                omega
              have hrest := ih (rest.drop k).length hshort (c :: rest.take k).getLast? _ rfl
              have hcut : (c :: rest) = (c :: rest.take k) ++ rest.drop k := by
                rw [List.cons_append, ← hsplit]
              dsimp only
              rw [hword, hk, Nat.add_sub_cancel, hbehind]
              rw [hcut] at hhere ⊢
              exact .found hhere (by rw [hk, List.length_cons, hlength]) hrest

end Finds

end WebBundle.Proofs.TextSearch
