import Mathlib.Data.List.Basic
import WebBundle.Transform.Chain

namespace WebBundle.Proofs.ChainIdentity

/-- The characters that stand between the parts of an identity. -/
def marks : List Char := ['@', '>', '?']

/-- A transform that is named without marks. -/
structure Plain (t : Transform) : Prop where
  name : ∀ mark ∈ marks, mark ∉ t.name.toList
  version : ∀ mark ∈ marks, mark ∉ t.version.toList

variable {s t : Stage} {chain first second : Chain}

theorem toList_identity (s : Stage) : s.identity.toList = s.transform.name.toList ++
    '@' :: (s.transform.version.toList ++ if s.optional then ['?'] else []) := by
  rw [Stage.identity, Transform.identity]
  split <;> simp

theorem not_mem_identity (hs : Plain s.transform) : '>' ∉ s.identity.toList := by
  have hname := hs.name '>' (by decide)
  have hversion := hs.version '>' (by decide)
  rw [toList_identity]
  split <;> simp [hname, hversion]

theorem version_and_mark {version version' : List Char} {optional optional' : Bool}
    (h : '?' ∉ version) (h' : '?' ∉ version')
    (heq : (version ++ if optional then ['?'] else []) =
      version' ++ if optional' then ['?'] else []) :
    version = version' ∧ optional = optional' := by
  cases optional <;> cases optional'
  · simpa using heq
  · refine absurd ?_ h
    simp at heq
    simp [heq]
  · refine absurd ?_ h'
    simp at heq
    simp [← heq]
  · simpa using heq

theorem parts_of_identity (hs : Plain s.transform) (ht : Plain t.transform)
    (h : s.identity = t.identity) : s.transform.name = t.transform.name ∧
      s.transform.version = t.transform.version ∧ s.optional = t.optional := by
  have heq := congrArg String.toList h
  rw [toList_identity, toList_identity] at heq
  have hat : '@' ∉ s.transform.version.toList ++ if s.optional then ['?'] else [] := by
    have hversion := hs.version '@' (by decide)
    split <;> simp [hversion]
  obtain ⟨hname, -, hrest⟩ :=
    (List.append_cons_inj_of_notMem (hs.name '@' (by decide)) hat).mp heq
  obtain ⟨hversion, hoptional⟩ :=
    version_and_mark (hs.version '?' (by decide)) (ht.version '?' (by decide)) hrest
  exact ⟨String.toList_inj.mp hname, String.toList_inj.mp hversion, hoptional⟩

theorem toList_chain_identity (chain : Chain) : chain.identity.toList =
    ['>'].intercalate (chain.executionOrder.map fun s => s.identity.toList) := by
  rw [Chain.identity, String.toList_intercalate, List.map_map]
  rfl

theorem splitOn_identity (hplain : ∀ s ∈ chain.declared, Plain s.transform)
    (hne : chain.declared ≠ []) : chain.identity.toList.splitOn '>' =
      chain.executionOrder.map fun s => s.identity.toList := by
  rw [toList_chain_identity]
  refine List.splitOn_intercalate '>' ?_ (by simpa [Chain.executionOrder] using hne)
  intro text htext
  obtain ⟨s, hs, rfl⟩ := List.mem_map.mp htext
  exact not_mem_identity (hplain s (List.mem_reverse.mp hs))

theorem eq_of_map_eq {α β : Type} {f : α → β} : {list other : List α} →
    (∀ a ∈ list, ∀ b ∈ other, f a = f b → a = b) → list.map f = other.map f → list = other
  | [], other, _, h => (List.map_eq_nil_iff.mp h.symm).symm
  | a :: list, other, hinj, h => by
      obtain ⟨b, rest, rfl, hb, hrest⟩ := List.map_eq_cons_iff.mp h.symm
      obtain rfl := hinj a (by simp) b (by simp) hb.symm
      rw [eq_of_map_eq (fun a ha b hb => hinj a (by simp [ha]) b (by simp [hb])) hrest.symm]

/-- Chains that are not empty are the same if their identities are, provided that the transforms
of one name and version are the same. -/
theorem chain_eq_of_identity (hfirst : ∀ s ∈ first.declared, Plain s.transform)
    (hsecond : ∀ t ∈ second.declared, Plain t.transform)
    (hsame : ∀ s ∈ first.declared, ∀ t ∈ second.declared, s.transform.name = t.transform.name →
      s.transform.version = t.transform.version → s.transform = t.transform)
    (hne : first.declared ≠ []) (hne' : second.declared ≠ [])
    (h : first.identity = second.identity) : first = second := by
  have hstages : first.executionOrder = second.executionOrder := by
    refine eq_of_map_eq (f := fun s => s.identity.toList) ?_ ?_
    · intro s hs t ht heq
      have hs := List.mem_reverse.mp hs
      have ht := List.mem_reverse.mp ht
      obtain ⟨hname, hversion, hoptional⟩ :=
        parts_of_identity (hfirst s hs) (hsecond t ht) (String.toList_inj.mp heq)
      have htransform := hsame s hs t ht hname hversion
      cases s
      cases t
      simp_all
    · rw [← splitOn_identity hfirst hne, h, splitOn_identity hsecond hne']
  have hdeclared : first.declared = second.declared := List.reverse_inj.mp hstages
  cases first
  cases second
  simpa using hdeclared

end WebBundle.Proofs.ChainIdentity
