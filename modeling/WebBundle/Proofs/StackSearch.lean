import WebBundle.Proofs.DepthFirstOrder

namespace WebBundle.Proofs.StackSearch

open Relation
open WebBundle.Proofs.DepthFirstOrder

variable {next next' : Nat → List Nat} {walk walk' : Digraph.Walk} {nodes nodes' stack before : List Nat}
  {node : Nat}

/-- One step of a search with a stack and the walk so far. A node on top that was not entered is entered and
stays; those of its successors that were not entered go on top of it, the first one topmost. A node on
top that was entered goes away, and is left unless it was left before. -/
inductive Step (next : Nat → List Nat) : List Nat × Digraph.Walk → List Nat × Digraph.Walk → Prop where
  | enter {walk : Digraph.Walk} {node : Nat} {stack : List Nat} (h : node ∉ walk.entered) :
      Step next (node :: stack, walk)
        ((next node).filter (· ∉ node :: walk.entered) ++ node :: stack,
          { walk with entered := node :: walk.entered })
  | leave {walk : Digraph.Walk} {node : Nat} {stack : List Nat} (h : node ∈ walk.entered)
      (hleft : node ∉ walk.left) :
      Step next (node :: stack, walk) (stack, { walk with left := node :: walk.left })
  | drop {walk : Digraph.Walk} {node : Nat} {stack : List Nat} (h : node ∈ walk.entered)
      (hleft : node ∈ walk.left) : Step next (node :: stack, walk) (stack, walk)

/-- A search with a stack takes one walk to another one: each of some nodes that was not entered is put on
the empty stack, and the search goes on until the stack is empty again. -/
inductive ByStack (next : Nat → List Nat) : Digraph.Walk → List Nat → Digraph.Walk → Prop where
  | done {walk : Digraph.Walk} : ByStack next walk [] walk
  | seen {walk walk' : Digraph.Walk} {node : Nat} {rest : List Nat} (h : node ∈ walk.entered)
      (hrest : ByStack next walk rest walk') : ByStack next walk (node :: rest) walk'
  | search {walk inner walk' : Digraph.Walk} {node : Nat} {rest : List Nat} (h : node ∉ walk.entered)
      (hsteps : ReflTransGen (Step next) ([node], walk) ([], inner))
      (hrest : ByStack next inner rest walk') : ByStack next walk (node :: rest) walk'

theorem extends_of_searches (h : Searches next walk nodes walk') (hleft : ∀ n ∈ walk.left, n ∈ walk.entered) :
    Extends walk walk' ∧ ∀ n ∈ walk'.left, n ∈ walk'.entered := by
  induction h with
  | done => exact ⟨Extends.refl _, hleft⟩
  | seen _ _ ih => exact ih hleft
  | @visit walk inner walk' node rest hfresh _ _ ihNext ihRest =>
      obtain ⟨hinner, hinnerLeft⟩ := ihNext fun n hn => List.mem_cons_of_mem node (hleft n hn)
      have hopen : ∀ other, IsOpen inner other ↔ other = node ∨ IsOpen walk other := fun other =>
        (hinner.isOpen_iff other).trans (isOpen_enter fun hn => hfresh (hleft node hn))
      obtain ⟨hrest, hrestLeft⟩ := ihRest (List.forall_mem_cons.mpr ⟨((hopen node).mpr (.inl rfl)).1,
        hinnerLeft⟩)
      refine ⟨Extends.trans ⟨fun n hn => ?_, fun other => isOpen_leave hfresh hopen⟩ hrest, hrestLeft⟩
      exact hinner.entered n (List.mem_cons_of_mem node hn)

/-- A list has the elements of another in their order, each once or several times in a row. -/
inductive Repeats : List Nat → List Nat → Prop where
  | nil : Repeats [] []
  | cons (node count : Nat) {rest rest' : List Nat} (h : Repeats rest rest') :
      Repeats (node :: rest) (List.replicate (count + 1) node ++ rest')

theorem searches_replicate (h : Searches next walk nodes walk') (hnode : node ∈ walk.entered) (count : Nat) :
    Searches next walk (List.replicate count node ++ nodes) walk' := by
  induction count with
  | zero => exact h
  | succ count ih => exact .seen hnode ih

theorem searches_repeats (h : Searches next walk nodes walk')
    (hleft : ∀ n ∈ walk.left, n ∈ walk.entered) (hnext : ∀ node, Repeats (next node) (next' node))
    (hnodes : Repeats nodes nodes') : Searches next' walk nodes' walk' := by
  induction h generalizing nodes' with
  | done =>
      cases hnodes
      exact .done
  | seen hnode _ ih =>
      cases hnodes with
      | cons _ count hrest => exact searches_replicate (ih hleft hrest) hnode (count + 1)
  | @visit walk inner walk' node rest hfresh hinner _ ihNext ihRest =>
      cases hnodes with
      | cons _ count hrest =>
          have hleft' : ∀ n ∈ walk.left, n ∈ node :: walk.entered := fun n hn =>
            List.mem_cons_of_mem node (hleft n hn)
          obtain ⟨hextends, hinnerLeft⟩ := extends_of_searches hinner hleft'
          have hentered : node ∈ inner.entered := hextends.entered node List.mem_cons_self
          have hrest' := ihRest (List.forall_mem_cons.mpr ⟨hentered, hinnerLeft⟩) hrest
          exact .visit hfresh (ihNext hleft' (hnext node)) (searches_replicate hrest' hentered count)

/-- What stands on top of a stack because it had not been entered at some time is searched in turn. Since
then nothing was opened that is still open, so a node on top that was entered was left as well. -/
theorem steps_of_searches (h : Searches next walk nodes walk') (hleft : ∀ n ∈ walk.left, n ∈ walk.entered)
    (hbefore : ∀ n ∈ before, n ∈ walk.entered) (hopen : ∀ n, IsOpen walk n → n ∈ before) :
    ReflTransGen (Step next) (nodes.filter (· ∉ before) ++ stack, walk) (stack, walk') := by
  induction h generalizing before stack with
  | done => exact .refl
  | @seen walk _ node _ hnode _ ih =>
      by_cases hold : node ∈ before
      · rw [List.filter_cons_of_neg (by simpa using hold)]
        exact ih hleft hbefore hopen
      · rw [List.filter_cons_of_pos (by simpa using hold)]
        have hnodeLeft : node ∈ walk.left := by
          by_contra hout
          exact hold (hopen node ⟨hnode, hout⟩)
        exact .head (.drop hnode hnodeLeft) (ih hleft hbefore hopen)
  | @visit walk inner walk' node rest hfresh hinner _ ihNext ihRest =>
      have hleft' : ∀ n ∈ walk.left, n ∈ node :: walk.entered := fun n hn =>
        List.mem_cons_of_mem node (hleft n hn)
      have hnodeLeft : node ∉ walk.left := fun hn => hfresh (hleft node hn)
      obtain ⟨hextends, hinnerLeft⟩ := extends_of_searches hinner hleft'
      have hopen' : ∀ other, IsOpen inner other ↔ other = node ∨ IsOpen walk other := fun other =>
        (hextends.isOpen_iff other).trans (isOpen_enter hnodeLeft)
      have hnode : IsOpen inner node := (hopen' node).mpr (.inl rfl)
      rw [List.filter_cons_of_pos (by simpa using fun hn => hfresh (hbefore node hn)), List.cons_append]
      refine .head (.enter hfresh) ((ihNext hleft' (fun n hn => hn) fun n hn => hn.1).trans ?_)
      refine .head (.leave hnode.1 hnode.2) (ihRest ?_ ?_ ?_)
      · exact List.forall_mem_cons.mpr ⟨hnode.1, hinnerLeft⟩
      · exact fun n hn => hextends.entered n (List.mem_cons_of_mem node (hbefore n hn))
      · exact fun n hn => hopen n ((isOpen_leave hfresh hopen').mp hn)

/-- A search takes the walk that it takes with a stack. -/
theorem byStack_of_searches (h : Searches next walk nodes walk') (hleft : ∀ n ∈ walk.left, n ∈ walk.entered)
    (hopen : ∀ n, ¬ IsOpen walk n) : ByStack next walk nodes walk' := by
  induction nodes generalizing walk with
  | nil =>
      cases h
      exact .done
  | cons node rest ih =>
      cases h with
      | seen hnode hrest => exact .seen hnode (ih hrest hleft hopen)
      | @visit _ inner _ _ _ hfresh hinner hrest =>
          have hone : Searches next walk [node] { inner with left := node :: inner.left } :=
            .visit hfresh hinner .done
          obtain ⟨hextends, hleft'⟩ := extends_of_searches hone hleft
          have hsteps : ReflTransGen (Step next) ([node].filter (· ∉ ([] : List Nat)) ++ [], walk)
              ([], { inner with left := node :: inner.left }) :=
            steps_of_searches hone hleft (by simp) fun n hn => absurd hn (hopen n)
          exact .search hfresh (by simpa using hsteps)
            (ih hrest hleft' fun n hn => hopen n ((hextends.isOpen_iff n).mp hn))

end WebBundle.Proofs.StackSearch
