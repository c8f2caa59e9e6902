import WebBundle.Rules.RuleSet

namespace WebBundle.Proofs.ChainComposition

open Chain

/-- What two runs made, the second on the primary artifact of the first. -/
def followedBy (done next : ChainOutput) : ChainOutput where
  primary := next.primary
  side := done.side ++ next.side
  skipped := done.skipped ++ next.skipped

/-- Runs a chain on what another one made. -/
def continueWith (path : Path) (cancelled : Bool) (chain : Chain) (done : ChainOutput) :
    Except ChainError ChainOutput :=
  (chain.execute done.primary path cancelled).map (followedBy done)

/-- Runs chains from the last to the first, each on the primary artifact of the one behind it. -/
def runBack (path : Path) (cancelled : Bool) : List Chain → Artifact → Except ChainError ChainOutput
  | [], input => .ok { primary := input }
  | chain :: rest, input => (runBack path cancelled rest input).bind (continueWith path cancelled chain)

variable {path : Path} {cancelled : Bool} {first second : List Stage} {stage : Stage} {chain : Chain}
  {input : Artifact} {done next output : ChainOutput} {error : ChainError}

theorem followedBy_primary (done : ChainOutput) : followedBy done { primary := done.primary } = done := by
  simp only [followedBy, List.append_nil]

theorem runStages_append : runStages path cancelled (first ++ second) done =
    (runStages path cancelled first done).bind (runStages path cancelled second) := by
  induction first generalizing done with
  | nil => rfl
  | cons stage rest ih =>
      rw [List.cons_append, runStages, runStages]
      cases runStage path cancelled done stage with
      | error error => rfl
      | ok next => exact ih

theorem runStage_followedBy : runStage path cancelled (followedBy done next) stage =
    (runStage path cancelled next stage).map (followedBy done) := by
  rw [runStage, runStage, followedBy]
  cases cancelled with
  | true => rfl
  | false =>
      cases @Transform.apply stage.transform path next.primary with
      | ok out => simp only [Except.map, followedBy, List.append_assoc, Bool.false_eq_true, if_false]
      | error e =>
          cases stage.optional with
          | true => simp only [Except.map, followedBy, List.append_assoc, Bool.false_eq_true, if_false,
              if_true]
          | false => rfl

theorem runStages_followedBy {stages : List Stage} : runStages path cancelled stages (followedBy done next) =
    (runStages path cancelled stages next).map (followedBy done) := by
  induction stages generalizing next with
  | nil => rfl
  | cons stage rest ih =>
      rw [runStages, runStages, runStage_followedBy]
      cases runStage path cancelled next stage with
      | error error => rfl
      | ok output => exact ih

theorem runStages_executionOrder :
    runStages path cancelled chain.executionOrder done = continueWith path cancelled chain done := by
  rw [continueWith, execute, ← runStages_followedBy, followedBy_primary]

theorem execute_append (a b : Chain) : Chain.execute ⟨a.declared ++ b.declared⟩ input path cancelled =
    (b.execute input path cancelled).bind (continueWith path cancelled a) := by
  have horder : Chain.executionOrder ⟨a.declared ++ b.declared⟩ =
      b.executionOrder ++ a.executionOrder := List.reverse_append
  have hafter : runStages path cancelled a.executionOrder = continueWith path cancelled a :=
    funext fun done => runStages_executionOrder
  rw [execute, horder, runStages_append, hafter]
  rfl

theorem execute_flatten (chains : List Chain) :
    Chain.execute ⟨chains.flatMap Chain.declared⟩ input path cancelled = runBack path cancelled chains input := by
  induction chains with
  | nil => rfl
  | cons chain rest ih => rw [List.flatMap_cons, execute_append chain ⟨_⟩, ih, runBack]

/-- A chain stops at a stage that is not optional and refuses what all stages declared after it, none of
which stopped, have made of the input. -/
def StopsAt (chain : Chain) (input : Artifact) (path : Path) (error : ChainError) : Prop :=
  ∃ earlier stage later output reason, chain.declared = earlier ++ stage :: later ∧
    Chain.execute ⟨later⟩ input path = .ok output ∧ stage.optional = false ∧
    @Transform.apply stage.transform path output.primary = .error reason ∧
    error = .stage stage.transform.name reason

theorem runStage_eq_error : runStage path false done stage = .error error ↔
    stage.optional = false ∧ ∃ reason, @Transform.apply stage.transform path done.primary = .error reason ∧
      error = .stage stage.transform.name reason := by
  rw [runStage]
  cases @Transform.apply stage.transform path done.primary with
  | ok out => simp
  | error reason => cases stage.optional <;> simp [eq_comm]

theorem runStages_eq_error {stages : List Stage} : runStages path false stages done = .error error ↔
    ∃ before stage after output, stages = before ++ stage :: after ∧
      runStages path false before done = .ok output ∧ runStage path false output stage = .error error := by
  constructor
  · intro h
    induction stages generalizing done with
    | nil => exact absurd h nofun
    | cons first rest ih =>
        rw [runStages] at h
        cases hfirst : runStage path false done first with
        | error reason =>
            rw [hfirst] at h
            obtain rfl := Except.error.inj h
            exact ⟨[], first, rest, done, rfl, rfl, hfirst⟩
        | ok next =>
            rw [hfirst] at h
            obtain ⟨before, stage, after, output, rfl, hbefore, hstage⟩ := ih h
            refine ⟨first :: before, stage, after, output, rfl, ?_, hstage⟩
            rw [runStages, hfirst]
            exact hbefore
  · rintro ⟨before, stage, after, output, rfl, hbefore, hstage⟩
    have hgo : (Except.ok output).bind (runStages path false (stage :: after)) =
        runStages path false (stage :: after) output := rfl
    rw [runStages_append, hbefore, hgo, runStages, hstage]

theorem execute_eq_error : chain.execute input path = .error error ↔ StopsAt chain input path error := by
  rw [execute, runStages_eq_error, StopsAt]
  constructor
  · rintro ⟨before, stage, after, output, horder, hbefore, hstage⟩
    obtain ⟨hoptional, reason, hreason, rfl⟩ := runStage_eq_error.mp hstage
    refine ⟨after.reverse, stage, before.reverse, output, reason, ?_, ?_, hoptional, hreason, rfl⟩
    · rw [← List.reverse_inj, ← executionOrder, horder]
      simp
    · rw [execute, executionOrder, List.reverse_reverse]
      exact hbefore
  · rintro ⟨earlier, stage, later, output, reason, hdeclared, hlater, hoptional, hreason, rfl⟩
    refine ⟨later.reverse, stage, earlier.reverse, output, ?_, hlater, ?_⟩
    · rw [executionOrder, hdeclared]
      simp
    · exact runStage_eq_error.mpr ⟨hoptional, reason, hreason, rfl⟩

/-- The rules that are said to match, in declared order. -/
def matchedRules (s : RuleSet) (found : RuleMatch) : List Rule := found.rules.filterMap (s.rules[·]?)

/-- The rules in front of the first exclusive one, and that one. -/
def upToExclusive (rules : List Rule) : List Rule :=
  rules.takeWhile (!·.exclusive) ++ (rules.find? (·.exclusive)).toList

def chainOf (rule : Rule) : Chain := ⟨rule.stages⟩

variable {s : RuleSet} {found : RuleMatch}

theorem filterMap_matching (before rules : List Rule) :
    ((RuleSet.matching path before.length rules).map (·.1)).filterMap ((before ++ rules)[·]?) =
      (RuleSet.matching path before.length rules).map (·.2) := by
  induction rules generalizing before with
  | nil => rfl
  | cons rule rest ih =>
      have hrest : ((RuleSet.matching path (before.length + 1) rest).map (·.1)).filterMap
            ((before ++ rule :: rest)[·]?) =
          (RuleSet.matching path (before.length + 1) rest).map (·.2) := by
        have hmoved := ih (before ++ [rule])
        rwa [List.length_append, List.append_assoc] at hmoved
      have hget : (before ++ rule :: rest)[before.length]? = some rule := by simp
      rw [RuleSet.matching]
      split
      · rw [List.map_cons, List.map_cons, List.filterMap_cons_some hget]
        split
        · rfl
        · rw [hrest]
      · exact hrest

theorem upToExclusive_cons (rule : Rule) (rules : List Rule) :
    upToExclusive (rule :: rules) = rule :: if rule.exclusive then [] else upToExclusive rules := by
  cases h : rule.exclusive with
  | true => simp [upToExclusive, h]
  | false => simp [upToExclusive, h]

theorem map_matching (index : Nat) (rules : List Rule) : (RuleSet.matching path index rules).map (·.2) =
    upToExclusive (rules.filter fun rule => rule.test.matchesPath path) := by
  induction rules generalizing index with
  | nil => rfl
  | cons rule rest ih =>
      rw [RuleSet.matching]
      split
      · next hmatch =>
          rw [List.filter_cons, if_pos hmatch, upToExclusive_cons, List.map_cons]
          split
          · rfl
          · rw [ih]
      · next hmatch => rw [List.filter_cons, if_neg hmatch, ih]

theorem declared_of_matchPath? (h : s.matchPath? path = some found) :
    found.rules = (RuleSet.matching path 0 s.rules).map (·.1) ∧
      found.chain.declared =
        if RuleSet.matching path 0 s.rules = [] then ((s.knownType path).map (·.2)).getD []
        else (RuleSet.matching path 0 s.rules).flatMap fun entry => entry.2.stages := by
  rw [RuleSet.matchPath?] at h
  split at h
  · next type htype =>
      -- a rule that declares a type is a rule that matches
      have hne : RuleSet.matching path 0 s.rules ≠ [] := by
        intro hnil
        rw [hnil] at htype
        exact absurd htype nofun
      obtain rfl := Option.some.inj h
      exact ⟨rfl, (if_neg hne).symm⟩
  · split at h
    · next type implied hknown =>
        obtain rfl := Option.some.inj h
        refine ⟨rfl, ?_⟩
        simp [hknown, List.isEmpty_iff]
    · next hknown =>
        have hstages : (RuleSet.matching path 0 s.rules).flatMap (fun entry => entry.2.stages) =
            if RuleSet.matching path 0 s.rules = [] then ((s.knownType path).map (·.2)).getD []
            else (RuleSet.matching path 0 s.rules).flatMap fun entry => entry.2.stages := by
          split
          · next hnil => rw [hnil, hknown]; rfl
          · rfl
        split at h
        · obtain rfl := Option.some.inj h
          exact ⟨rfl, hstages⟩
        · split at h
          · obtain rfl := Option.some.inj h
            exact ⟨rfl, hstages⟩
          · exact absurd h nofun

/-- A rule is among those that matched exactly if its test takes the path and no exclusive one before it
does. -/
theorem matchedRules_eq (h : s.matchPath? path = some found) :
    matchedRules s found = upToExclusive (s.rules.filter fun rule => rule.test.matchesPath path) := by
  rw [matchedRules, (declared_of_matchPath? h).1, ← map_matching 0]
  exact filterMap_matching [] s.rules

theorem chain_of_matched (h : s.matchPath? path = some found) (hne : found.rules ≠ []) :
    found.chain = ⟨((matchedRules s found).map chainOf).flatMap Chain.declared⟩ := by
  obtain ⟨hrules, hdeclared⟩ := declared_of_matchPath? h
  have hmatching : RuleSet.matching path 0 s.rules ≠ [] := by
    rintro hnil
    exact hne (by rw [hrules, hnil, List.map_nil])
  rw [if_neg hmatching] at hdeclared
  rw [matchedRules_eq h, ← map_matching 0, List.flatMap_map, List.flatMap_map]
  exact congrArg Chain.mk hdeclared

theorem chain_of_unmatched (h : s.matchPath? path = some found) (hnil : found.rules = []) :
    found.chain = ⟨((s.knownType path).map (·.2)).getD []⟩ := by
  obtain ⟨hrules, hdeclared⟩ := declared_of_matchPath? h
  have hmatching : RuleSet.matching path 0 s.rules = [] := by
    rwa [hrules, List.map_eq_nil_iff] at hnil
  rw [if_pos hmatching] at hdeclared
  exact congrArg Chain.mk hdeclared

/-- Two rules that match every file: the first sets stylesheets apart, the second may read JSON. -/
def sheetRules : RuleSet where
  rules := [⟨.empty, [⟨.extractCss, false⟩], some .style, none, false, none⟩,
    ⟨.empty, [⟨.json, true⟩], none, none, true, none⟩]
  json := none
  copyUnknown := false

def sheetMatch : RuleMatch := ⟨⟨[⟨.extractCss, false⟩, ⟨.json, true⟩]⟩, .style, [0, 1]⟩

/-- A chain declared as one followed by another runs the second and then the first on what the second made:
the primary artifact is that of the last run, what the second set apart and skipped stands in front. A chain
fails exactly if, from its last stage on, a stage that is not optional refuses, with the error of the first
that does. The rules of a file are those whose test takes its path, up to the first exclusive one; its chain
runs theirs from the last to the first, or is implied by its extension if there is none. -/
theorem execute_composes (a b chain : Chain) (input : Artifact) (cancelled : Bool) (error : ChainError)
    (s : RuleSet) (path : Path) :
    Chain.execute ⟨a.declared ++ b.declared⟩ input path cancelled =
        (b.execute input path cancelled).bind (fun done =>
          (a.execute done.primary path cancelled).map fun next =>
            ⟨next.primary, done.side ++ next.side, done.skipped ++ next.skipped⟩) ∧
      (chain.execute input path = .error error ↔ StopsAt chain input path error) ∧
      ∀ found, s.matchPath? path = some found →
        matchedRules s found = upToExclusive (s.rules.filter fun rule => rule.test.matchesPath path) ∧
        (found.rules ≠ [] → found.chain.execute input path cancelled =
          runBack path cancelled ((matchedRules s found).map chainOf) input) ∧
        (found.rules = [] → found.chain = ⟨((s.knownType path).map (·.2)).getD []⟩) := by
  refine ⟨execute_append a b, execute_eq_error, fun found h =>
    ⟨matchedRules_eq h, fun hne => ?_, chain_of_unmatched h⟩⟩
  rw [chain_of_matched h hne]
  exact execute_flatten _

theorem execute_composes_sheet : sheetRules.matchPath? ⟨"/p/a.css"⟩ = some sheetMatch ∧
    sheetMatch.rules ≠ [] ∧ sheetMatch.chain.execute ⟨.style, .empty⟩ ⟨"/p/a.css"⟩ =
      .ok ⟨.ofText .script "", [⟨.style, .empty⟩], [⟨"json", "parse error"⟩]⟩ := by
  obtain ⟨-, -, hrules⟩ := execute_composes ⟨[]⟩ ⟨[]⟩ ⟨[]⟩ ⟨.style, .empty⟩ false .cancelled sheetRules
    ⟨"/p/a.css"⟩
  have hmatch : sheetRules.matchPath? ⟨"/p/a.css"⟩ = some sheetMatch := rfl
  have hne : sheetMatch.rules ≠ [] := nofun
  exact ⟨hmatch, hne, ((hrules sheetMatch hmatch).2.1 hne).trans rfl⟩

/-- No rule matches a JSON document, yet its chain does not leave it as it is. -/
theorem unmatched_document_read : let s : RuleSet := ⟨[], some .json, false⟩
    ∃ found, s.matchPath? ⟨"/p/a.json"⟩ = some found ∧ found.rules = [] ∧
      found.chain.execute ⟨.script, .empty⟩ ⟨"/p/a.json"⟩ ≠
        runBack ⟨"/p/a.json"⟩ false ((matchedRules s found).map chainOf) ⟨.script, .empty⟩ := by
  refine ⟨⟨⟨[{ transform := .json }]⟩, .javascript, []⟩, rfl, rfl, ?_⟩
  have hrefused : Chain.execute ⟨[{ transform := .json }]⟩ ⟨.script, .empty⟩ ⟨"/p/a.json"⟩ =
      .error (.stage "json" .notJson) := rfl
  rw [hrefused]
  exact nofun

end WebBundle.Proofs.ChainComposition
