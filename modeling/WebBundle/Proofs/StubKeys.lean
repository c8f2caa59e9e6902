import WebBundle.Graph.Discovery
import WebBundle.Proofs.ModuleNames

namespace WebBundle.Proofs.StubKeys

open WebBundle.Discovery
open WebBundle.Proofs.ModuleNames

theorem append_cons_inj {α : Type} {a : α} {before before' after after' : List α} (h : a ∉ before)
    (h' : a ∉ before') (heq : before ++ a :: after = before' ++ a :: after') :
    before = before' ∧ after = after' := by
  induction before generalizing before' with
  | nil =>
      cases before' with
      | nil => exact ⟨rfl, (List.cons.inj heq).2⟩
      | cons first rest => exact absurd (List.mem_cons.mpr (.inl (List.cons.inj heq).1)) h'
  | cons first rest ih =>
      cases before' with
      | nil => exact absurd (List.mem_cons.mpr (.inl (List.cons.inj heq).1.symm)) h
      | cons first' rest' =>
          rw [List.cons_append, List.cons_append] at heq
          obtain ⟨rfl, htail⟩ := List.cons.inj heq
          obtain ⟨rfl, rfl⟩ := ih (fun hmem => h (List.mem_cons_of_mem _ hmem))
            (fun hmem => h' (List.mem_cons_of_mem _ hmem)) htail
          exact ⟨rfl, rfl⟩

theorem append_cons_inj' {α : Type} {a : α} {before before' after after' : List α} (h : a ∉ after)
    (h' : a ∉ after') (heq : before ++ a :: after = before' ++ a :: after') :
    before = before' ∧ after = after' := by
  have hreverse := congrArg List.reverse heq
  simp only [List.reverse_append, List.reverse_cons, List.append_assoc, List.singleton_append]
    at hreverse
  obtain ⟨hafter, hbefore⟩ := append_cons_inj (fun hmem => h (List.mem_reverse.mp hmem))
    (fun hmem => h' (List.mem_reverse.mp hmem)) hreverse
  exact ⟨List.reverse_injective hbefore, List.reverse_injective hafter⟩

theorem digitChar_inj : ∀ a < 16, ∀ b < 16, Nat.digitChar a = Nat.digitChar b → a = b := by
  decide

theorem brace_ne_digitChar : ∀ a < 16, '}' ≠ Nat.digitChar a := by
  decide

theorem brace_notMem_hexNumber (n : Nat) : '}' ∉ Text.hexNumber n := by
  induction n using Nat.strong_induction_on with
  | h n ih =>
      rw [Text.hexNumber, Nat.toDigits_eq_if (by omega)]
      split
      · next hlt => exact fun hmem => brace_ne_digitChar n hlt (List.mem_singleton.mp hmem)
      · next hge =>
          rw [List.mem_append, List.mem_singleton, not_or]
          exact ⟨ih (n / 16) (by omega), brace_ne_digitChar _ (Nat.mod_lt _ (by omega))⟩

theorem hexNumber_injective {n n' : Nat} (h : Text.hexNumber n = Text.hexNumber n') : n = n' := by
  induction n using Nat.strong_induction_on generalizing n' with
  | h n ih =>
      simp only [Text.hexNumber] at h ih
      rw [Nat.toDigits_eq_if (by omega), Nat.toDigits_eq_if (n := n') (by omega)] at h
      split at h
      · next hlt =>
          split at h
          · next hlt' => exact digitChar_inj n hlt n' hlt' (List.singleton_inj.mp h)
          · obtain ⟨hnil, -⟩ := List.append_inj' ((List.nil_append _).trans h) rfl
            exact absurd hnil.symm Nat.toDigits_ne_nil
      · next hge =>
          split at h
          · obtain ⟨hnil, -⟩ := List.append_inj' (h.trans (List.nil_append _).symm) rfl
            exact absurd hnil Nat.toDigits_ne_nil
          · obtain ⟨hdiv, hmod⟩ := List.append_inj' h rfl
            have hdiv := ih (n / 16) (by omega) hdiv
            have hmod := digitChar_inj _ (Nat.mod_lt n (by omega)) _ (Nat.mod_lt n' (by omega))
              (List.singleton_inj.mp hmod)
            omega

/-- The character that is written as a backslash and another one. -/
def escaped (c : Char) : Char :=
  if c = '0' then '\x00' else if c = 't' then '\t' else if c = 'r' then '\r'
  else if c = 'n' then '\n' else c

theorem quotedChar_cases (c : Char) : (Text.quotedChar c = [c] ∧ c ≠ '\\') ∨
    (∃ letter, Text.quotedChar c = ['\\', letter] ∧ letter ≠ 'u' ∧ c = escaped letter) ∨
    Text.quotedChar c = '\\' :: 'u' :: '{' :: (Text.hexNumber c.toNat ++ ['}']) := by
  rw [Text.quotedChar]
  split
  · exact .inr (.inl ⟨'0', rfl, by decide, ‹_›⟩)
  split
  · exact .inr (.inl ⟨'t', rfl, by decide, ‹_›⟩)
  split
  · exact .inr (.inl ⟨'r', rfl, by decide, ‹_›⟩)
  split
  · exact .inr (.inl ⟨'n', rfl, by decide, ‹_›⟩)
  split
  · next hc =>
      refine .inr (.inl ⟨c, rfl, ?_, ?_⟩) <;> rcases hc with rfl | rfl <;> decide
  split
  · exact .inr (.inr rfl)
  · next hc _ => exact .inl ⟨rfl, fun heq => hc (.inr heq)⟩

theorem quotedChar_append_inj {c c' : Char} {rest rest' : List Char}
    (h : Text.quotedChar c ++ rest = Text.quotedChar c' ++ rest') : c = c' ∧ rest = rest' := by
  rcases quotedChar_cases c with ⟨heq, hne⟩ | ⟨letter, heq, hne, hc⟩ | heq <;>
    rcases quotedChar_cases c' with ⟨heq', hne'⟩ | ⟨letter', heq', hne', hc'⟩ | heq' <;>
    simp only [heq, heq', List.cons_append, List.nil_append, List.append_assoc, List.cons.injEq,
      true_and] at h
  · exact h
  · exact absurd h.1 hne
  · exact absurd h.1 hne
  · exact absurd h.1.symm hne'
  · obtain ⟨rfl, rfl⟩ := h
    exact ⟨hc.trans hc'.symm, rfl⟩
  · exact absurd h.1 hne
  · exact absurd h.1.symm hne'
  · exact absurd h.1.symm hne'
  · obtain ⟨hnumber, hrest⟩ :=
      append_cons_inj (brace_notMem_hexNumber _) (brace_notMem_hexNumber _) h
    exact ⟨Char.toNat_inj.mp (hexNumber_injective hnumber), hrest⟩

theorem quotedChar_ne_nil (c : Char) : Text.quotedChar c ≠ [] := by
  rcases quotedChar_cases c with ⟨heq, -⟩ | ⟨letter, heq, -, -⟩ | heq <;> rw [heq] <;>
    exact List.cons_ne_nil _ _

theorem flatMap_quotedChar_injective {text text' : List Char}
    (h : text.flatMap Text.quotedChar = text'.flatMap Text.quotedChar) : text = text' := by
  induction text generalizing text' with
  | nil =>
      cases text' with
      | nil => rfl
      | cons c rest =>
          rw [List.flatMap_nil, List.flatMap_cons] at h
          exact absurd (List.append_eq_nil_iff.mp h.symm).1 (quotedChar_ne_nil c)
  | cons c rest ih =>
      cases text' with
      | nil =>
          rw [List.flatMap_nil, List.flatMap_cons] at h
          exact absurd (List.append_eq_nil_iff.mp h).1 (quotedChar_ne_nil c)
      | cons c' rest' =>
          rw [List.flatMap_cons, List.flatMap_cons] at h
          obtain ⟨rfl, hrest⟩ := quotedChar_append_inj h
          rw [ih hrest]

theorem quoted_injective {text text' : String} (h : Text.quoted text = Text.quoted text') :
    text = text' := by
  have hlist := String.ofList_injective h
  have hinner := (List.append_inj' hlist rfl).1
  exact String.toList_inj.mp (flatMap_quotedChar_injective (List.append_cancel_left hinner))

theorem externalModule_key_injective {specifier specifier' global global' : String}
    (h : (externalModule specifier global).key = (externalModule specifier' global').key) :
    specifier = specifier' := by
  have hlist := congrArg String.toList h
  simp only [externalModule, String.toList_append] at hlist
  exact quoted_injective (String.toList_inj.mp (List.append_cancel_left hlist))

theorem externalModule_key_ne_ignored (specifier global specifier' : String) (directory : Path) :
    (externalModule specifier global).key ≠ (ignoredModule specifier' directory).key := by
  intro h
  have hlist := congrArg String.toList h
  simp only [externalModule, ignoredModule, String.toList_append, List.append_assoc] at hlist
  have hfirst : 'e' = 'i' := (List.cons.inj hlist).1
  exact absurd hfirst (by decide)

/-- What a query begins with that is put behind another one. -/
def joint (query : Option String) : Char := if query.isSome then '&' else '?'

theorem toList_sideKey (context path : Path) (query : Option String) (index : Nat) :
    (path.moduleKey context (some (sideQuery query index))).toList =
      (path.moduleKey context query).toList ++
        joint query :: ("side".toList ++ '=' :: (toString index).toList) := by
  rw [toList_moduleKey, toList_moduleKey]
  cases query with
  | none => simp [behind, sideQuery, joint, String.toList_append]
  | some query => simp [behind, sideQuery, joint, String.toList_append]

theorem equals_notMem_toString (index : Nat) : '=' ∉ (toString index).toList := by
  rw [Nat.toString_eq_ofList_toDigits, String.toList_ofList]
  intro hmem
  exact absurd (Nat.isDigit_of_mem_toDigits (by omega) (by omega) hmem) (by decide)

/-- Two side artifacts with one key belong to files with one key, and have one number. -/
theorem sideKey_injective {context path path' : Path} {query query' : Option String}
    {index index' : Nat} (h : path.moduleKey context (some (sideQuery query index)) =
      path'.moduleKey context (some (sideQuery query' index'))) :
    path.moduleKey context query = path'.moduleKey context query' ∧ index = index' := by
  have hlist := congrArg String.toList h
  rw [toList_sideKey, toList_sideKey] at hlist
  simp only [← List.cons_append, ← List.append_assoc] at hlist
  obtain ⟨hkey, hindex⟩ :=
    append_cons_inj' (equals_notMem_toString index) (equals_notMem_toString index') hlist
  refine ⟨String.toList_inj.mp (List.append_inj' hkey rfl).1, ?_⟩
  rw [Nat.toString_eq_ofList_toDigits, Nat.toString_eq_ofList_toDigits, String.toList_ofList,
    String.toList_ofList] at hindex
  rw [← Nat.ofDigitChars_ten_toDigits (n := index), hindex, Nat.ofDigitChars_ten_toDigits]

end WebBundle.Proofs.StubKeys
