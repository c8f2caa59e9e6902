import WebBundle.Proofs.ModuleReach

namespace WebBundle.Proofs.StaticClosure

open Relation
open WebBundle.Proofs.ModuleReach
open WebBundle.Proofs.Reachability

variable {next : Nat → List Nat} {size rounds rounds' root node other : Nat} {frontier reached found : IdSet}
  {s s' : List Nat × IdSet}

theorem lt_of_mem_next (hnext : ∀ n, size ≤ n → next n = []) (h : other ∈ next node) : node < size := by
  by_contra hout
  rw [hnext node (Nat.not_lt.mp hout)] at h
  exact List.not_mem_nil h

/-- With more rounds than there are nodes left to reach, a search does not come to its bound: any number of
further rounds finds the same. Nodes beyond `size` have no successors, and need no round. -/
theorem spread_eq_of_le (hnext : ∀ n, size ≤ n → next n = []) (hle : rounds ≤ rounds')
    (hrounds : (∃ n ∈ frontier, n < size) → (remaining size (· ∈ reached)).card < rounds) :
    Digraph.spread next rounds' frontier reached = Digraph.spread next rounds frontier reached := by
  induction rounds generalizing rounds' frontier reached with
  | zero =>
      cases rounds' with
      | zero => rfl
      | succ rounds' =>
          have hempty : (fresh next frontier reached).isEmpty = true := by
            apply Reachability.isEmpty_iff.mpr
            intro b hb
            obtain ⟨⟨a, ha, hab⟩, -⟩ := mem_fresh.mp hb
            exact Nat.not_lt_zero _ (hrounds ⟨a, ha, lt_of_mem_next hnext hab⟩)
          rw [spread_succ, if_pos hempty, Digraph.spread]
  | succ rounds ih =>
      obtain ⟨rounds', rfl⟩ : ∃ more, rounds' = more + 1 := ⟨rounds' - 1, by omega⟩
      rw [spread_succ, spread_succ]
      split
      · rfl
      · apply ih (Nat.le_of_succ_le_succ hle)
        rintro ⟨b, hb, hlt⟩
        obtain ⟨⟨a, ha, hab⟩, -⟩ := mem_fresh.mp hb
        have hbound := hrounds ⟨a, ha, lt_of_mem_next hnext hab⟩
        have hless := card_remaining_round hlt hb
        omega

section Rounds

variable {g : Digraph} (hnext : ∀ n, g.size ≤ n → g.next n = [])

include hnext

theorem spread_eq_reach (hle : g.size ≤ rounds) :
    Digraph.spread g.next rounds (.ofList [root]) (.ofList [root]) = g.reach root := by
  apply spread_eq_of_le hnext hle
  rintro ⟨n, hn, hlt⟩
  have hless : (remaining g.size (· ∈ IdSet.ofList [root])).card <
      (remaining g.size fun _ => False).card :=
    card_remaining_lt (fun _ => False.elim) hlt not_false hn
  exact Nat.lt_of_lt_of_le hless card_remaining_le_size

theorem exists_bound (root : Nat) :
    ∃ bound, g.size ≤ bound ∧ root < bound ∧ ∀ a, ∀ b ∈ g.next a, b < bound := by
  obtain ⟨bound, hbound⟩ :=
    Finset.exists_nat_subset_range (root :: (List.range g.size).flatMap g.next).toFinset
  have hlt : ∀ b ∈ root :: (List.range g.size).flatMap g.next, b < bound := fun b hb =>
    Finset.mem_range.mp (hbound (List.mem_toFinset.mpr hb))
  refine ⟨max g.size bound, Nat.le_max_left .., ?_, fun a b hb => ?_⟩
  · exact Nat.lt_of_lt_of_le (hlt root List.mem_cons_self) (Nat.le_max_right ..)
  · have ha : a < g.size := lt_of_mem_next hnext hb
    have hmem : b ∈ (List.range g.size).flatMap g.next :=
      List.mem_flatMap.mpr ⟨a, List.mem_range.mpr ha, hb⟩
    exact Nat.lt_of_lt_of_le (hlt b (List.mem_cons_of_mem _ hmem)) (Nat.le_max_right ..)

theorem mem_reach_iff_edges : node ∈ g.reach root ↔ ReflTransGen (Edge g) root node := by
  obtain ⟨bound, hsize, hroot, hclosed⟩ := exists_bound hnext root
  have hwide := mem_reach_iff (g := ⟨bound, g.next⟩) (m := node) (fun a _ => hclosed a) hroot
  rw [← spread_eq_reach hnext hsize]
  exact hwide

end Rounds

/-- One step of a search with the stack of what it still has to look at and the set of what it found. The node
on top goes away. If it was not found before, it is now, and those of its successors that were not found go
on the stack, the last one topmost. -/
inductive Step (next : Nat → List Nat) : List Nat × IdSet → List Nat × IdSet → Prop where
  | skip {node : Nat} {stack : List Nat} {found : IdSet} (h : node ∈ found) :
      Step next (node :: stack, found) (stack, found)
  | find {node : Nat} {stack : List Nat} {found : IdSet} (h : node ∉ found) :
      Step next (node :: stack, found)
        ((next node).reverse.filter (· ∉ found.insert node) ++ stack, found.insert node)

theorem exists_step (next : Nat → List Nat) (node : Nat) (stack : List Nat) (found : IdSet) :
    ∃ s, Step next (node :: stack, found) s := by
  by_cases h : node ∈ found
  · exact ⟨_, .skip h⟩
  · exact ⟨_, .find h⟩

/-- No search goes on for ever. A step that finds a node with successors leaves fewer of them to find; any
other one leaves fewer nodes on the stack. -/
theorem wellFounded_step (hnext : ∀ n, size ≤ n → next n = []) :
    WellFounded fun later earlier => Step next earlier later := by
  let rank (s : List Nat × IdSet) : Nat × Nat := ((remaining size (· ∈ s.2)).card, s.1.length)
  have hrank : ∀ {earlier later}, Step next earlier later →
      Prod.Lex (· < ·) (· < ·) (rank later) (rank earlier) := by
    intro earlier later hstep
    cases hstep with
    | skip => exact .right _ (Nat.lt_succ_self _)
    | @find node stack found hnew =>
        have hkeep : ∀ n, n ∈ found → n ∈ found.insert node := fun n hn => IdSet.mem_insert.mpr (.inr hn)
        rcases Nat.lt_or_ge node size with hlt | hout
        · exact .left _ _ (card_remaining_lt hkeep hlt hnew (IdSet.mem_insert.mpr (.inl rfl)))
        · have hle : (remaining size (· ∈ found.insert node)).card ≤ (remaining size (· ∈ found)).card :=
            card_remaining_le hkeep
          apply Prod.lex_def.mpr
          refine (Nat.lt_or_eq_of_le hle).imp_right fun heq => ⟨heq, ?_⟩
          rw [hnext node hout]
          exact Nat.lt_succ_self _
  exact Subrelation.wf hrank (InvImage.wf rank (WellFounded.prod_lex Nat.lt_wfRel.wf Nat.lt_wfRel.wf))

/-- A search knows the nodes that it found and those that it still has to look at. -/
def Known (s : List Nat × IdSet) (node : Nat) : Prop := node ∈ s.1 ∨ node ∈ s.2

/-- What holds of a search all along: it knows the root and the successors of what it found, and nothing to
which the root does not lead. -/
structure Searching (next : Nat → List Nat) (root : Nat) (s : List Nat × IdSet) : Prop where
  root_known : Known s root
  followed : ∀ node ∈ s.2, ∀ target ∈ next node, Known s target
  led : ∀ node, Known s node → ReflTransGen (fun a b => b ∈ next a) root node

theorem Step.known (hstep : Step next s s') (hknown : Known s node) : Known s' node := by
  cases hstep with
  | skip hold =>
      rcases hknown with htop | hfound
      · rcases List.mem_cons.mp htop with rfl | hstack
        · exact .inr hold
        · exact .inl hstack
      · exact .inr hfound
  | find =>
      rcases hknown with htop | hfound
      · rcases List.mem_cons.mp htop with rfl | hstack
        · exact .inr (IdSet.mem_insert.mpr (.inl rfl))
        · exact .inl (List.mem_append_right _ hstack)
      · exact .inr (IdSet.mem_insert.mpr (.inr hfound))

theorem Searching.step (h : Searching next root s) (hstep : Step next s s') : Searching next root s' := by
  have hkept : ∀ n, Known s n → Known s' n := fun n => hstep.known
  cases hstep with
  | skip =>
      refine ⟨hkept root h.root_known, fun n hn target htarget => ?_, fun n hn => ?_⟩
      · exact hkept target (h.followed n hn target htarget)
      · exact h.led n (hn.imp_left (List.mem_cons_of_mem _))
  | @find node stack found hnew =>
      refine ⟨hkept root h.root_known, fun n hn target htarget => ?_, fun n hn => ?_⟩
      · rcases IdSet.mem_insert.mp hn with rfl | hold
        · by_cases hfound : target ∈ found.insert n
          · exact .inr hfound
          · exact .inl (List.mem_append_left _ (by simpa [hfound] using htarget))
        · exact hkept target (h.followed n hold target htarget)
      · have hnode := h.led node (.inl List.mem_cons_self)
        rcases hn with hstack | hfound
        · rcases List.mem_append.mp hstack with hpushed | hstack
          · exact hnode.tail (List.mem_reverse.mp (List.mem_of_mem_filter hpushed))
          · exact h.led n (.inl (List.mem_cons_of_mem _ hstack))
        · rcases IdSet.mem_insert.mp hfound with rfl | hold
          · exact hnode
          · exact h.led n (.inr hold)

theorem searching_of_steps (h : ReflTransGen (Step next) ([root], ∅) s) : Searching next root s := by
  induction h with
  | refl =>
      refine ⟨.inl List.mem_cons_self, fun n hn => absurd hn (IdSet.not_mem_empty n), fun n hn => ?_⟩
      obtain rfl := List.mem_singleton.mp (hn.resolve_right (IdSet.not_mem_empty n))
      exact .refl
  | tail _ hstep ih => exact ih.step hstep

theorem Searching.mem_found_iff (h : Searching next root ([], found)) :
    node ∈ found ↔ ReflTransGen (fun a b => b ∈ next a) root node := by
  constructor
  · exact fun hnode => h.led node (.inr hnode)
  · intro hled
    induction hled with
    | refl => exact h.root_known.resolve_left List.not_mem_nil
    | tail _ hnext ih => exact (h.followed _ ih _ hnext).resolve_left List.not_mem_nil

theorem steps_to_end (hnext : ∀ n, size ≤ n → next n = [])
    (hfound : ∀ n, n ∈ found ↔ ReflTransGen (fun a b => b ∈ next a) root n)
    (h : ReflTransGen (Step next) ([root], ∅) s) : ReflTransGen (Step next) s ([], found) := by
  induction s using (wellFounded_step hnext).induction with
  | h s ih =>
      obtain ⟨stack, found'⟩ := s
      cases stack with
      | nil =>
          have heq : found' = found := IdSet.ext fun n =>
            (searching_of_steps h).mem_found_iff.trans (hfound n).symm
          rw [heq]
      | cons node stack =>
          obtain ⟨later, hstep⟩ := exists_step next node stack found'
          exact .head hstep (ih later hstep (h.tail hstep))

variable {g : ModuleGraph}

theorem next_eq_nil (kind : ImportKind) {id : ModuleId} (h : g.size ≤ id) :
    (g.ofKind kind).next id = [] := by
  rw [next_ofKind, ModuleGraph.get, List.getD_eq_getElem?_getD, List.getElem?_eq_none h]
  rfl

/-- For every module graph and every root, the static closure holds what static imports lead to from the root,
in any number of steps, and nothing else; in a well-formed graph these are modules. The bound on its rounds
is never what ends it. A search with a stack ends as well, whatever cycles there are: none goes on for ever,
and from wherever one has come to it leads to the empty stack and to the closure. -/
theorem staticClosure_is_reached (g : ModuleGraph) (root : ModuleId) :
    (∀ id, id ∈ g.staticClosure root ↔ ReflTransGen (Imports g .static) root id) ∧
    (WellFormed g → root < g.size → ∀ id ∈ g.staticClosure root, id < g.size) ∧
    (∀ rounds, g.size ≤ rounds →
      Digraph.spread (g.ofKind .static).next rounds (.ofList [root]) (.ofList [root]) =
        g.staticClosure root) ∧
    (WellFounded fun later earlier => Step (g.ofKind .static).next earlier later) ∧
    ∀ s, ReflTransGen (Step (g.ofKind .static).next) ([root], ∅) s →
      ReflTransGen (Step (g.ofKind .static).next) s ([], g.staticClosure root) := by
  have hnext : ∀ id, (g.ofKind .static).size ≤ id → (g.ofKind .static).next id = [] := fun id =>
    next_eq_nil .static
  have hreach : ∀ id, id ∈ g.staticClosure root ↔ ReflTransGen (Edge (g.ofKind .static)) root id :=
    fun id => mem_reach_iff_edges hnext
  refine ⟨fun id => ?_, fun hg hroot id => mem_staticClosure_lt hg hroot, fun rounds => spread_eq_reach hnext,
    wellFounded_step hnext, fun s => steps_to_end hnext hreach⟩
  rw [hreach, edge_ofKind]

/-- An entry leads to two scripts that import each other; one of them imports a third one on demand. -/
def circle : ModuleGraph where
  modules := [
    { key := "./entry.js", path := ⟨"/p/entry.js"⟩, origin := .source
      dependencies := [⟨"./a", 1, .static⟩] },
    { key := "./a.js", path := ⟨"/p/a.js"⟩, origin := .source
      dependencies := [⟨"./b", 2, .static⟩, ⟨"./c", 3, .dynamic⟩] },
    { key := "./b.js", path := ⟨"/p/b.js"⟩, origin := .source
      dependencies := [⟨"./a", 1, .static⟩] },
    { key := "./c.js", path := ⟨"/p/c.js"⟩, origin := .source }]
  entries := [("entry", 0)]

theorem staticClosure_is_reached_circle :
    WellFormed circle ∧ 0 < circle.size ∧ circle.size ≤ 9 ∧
      (∀ id, ReflTransGen (Imports circle .static) 0 id ↔ id ∈ [0, 1, 2]) ∧
      (∀ id ∈ circle.staticClosure 0, id < circle.size) ∧
      Digraph.spread (circle.ofKind .static).next 9 (.ofList [0]) (.ofList [0]) = .ofList [0, 1, 2] ∧
      ReflTransGen (Step (circle.ofKind .static).next) ([0], ∅) ([], .ofList [0, 1, 2]) := by
  have hgraph : WellFormed circle := ⟨by decide, by decide⟩
  have hclosure : circle.staticClosure 0 = .ofList [0, 1, 2] := by decide +kernel
  obtain ⟨hreached, hmodules, hrounds, -, hsearch⟩ := staticClosure_is_reached circle 0
  refine ⟨hgraph, by decide, by decide, fun id => ?_, hmodules hgraph (by decide), ?_, ?_⟩
  · rw [← hreached, hclosure, IdSet.mem_ofList]
  · rw [hrounds 9 (by decide), hclosure]
  · exact hclosure ▸ hsearch _ .refl

end WebBundle.Proofs.StaticClosure
