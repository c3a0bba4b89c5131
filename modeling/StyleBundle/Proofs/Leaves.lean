import StyleBundle.Proofs.Outcome
import StyleBundle.State.Extract

/-!
# StyleBundle.Proofs.Leaves

Nested rules as a flat list. The leaves of a style sheet are the rules that hold no others, in the
order of the source, each with the wrappers around it: the media and container rules that enclose
it, the outermost first. A leaf is reached if every media rule around it has a query that can apply.

`extractAll_leaves`: to extract rules is to extract the leaves that are reached, one after the
other, each in the context that its wrappers make. `extractAll_invariant` draws from it that a
property of states that every leaf keeps is kept by any extraction, and `extractAll_ok` that an
extraction does not fail if no leaf does.
-/

namespace StyleBundle

/-- A rule that encloses others. -/
inductive Wrapper where
  | media (queries : List MediaQuery)
  | container (name : Option String) (condition : String)
  deriving DecidableEq, Inhabited, Repr

namespace Wrapper

/-- Whether what is inside can be reached: a media rule needs a query that can apply. -/
def isOpen : Wrapper → Bool
  | .media queries => queries.any MediaQuery.isApplicable
  | .container _ _ => true

/-- The media queries of a wrapper that can apply. -/
def applicable : Wrapper → List MediaQuery
  | .media queries => queries.filter MediaQuery.isApplicable
  | .container _ _ => []

/-- The condition of a wrapper on a container. -/
def conditions : Wrapper → List ContainerQuery
  | .media _ => []
  | .container name condition => [{ name, condition := some condition }]

end Wrapper

/-- The context that wrappers make, the outermost first. -/
def Context.ofWrappers (wrappers : List Wrapper) : Context where
  media := wrappers.flatMap Wrapper.applicable
  containers := wrappers.flatMap Wrapper.conditions

/-- A rule that holds no others. -/
inductive LeafRule where
  | style (b : StyleBlock)
  | keyframes (k : Keyframes)
  | directive (d : Directive)
  | unknown (kind : String)
  deriving DecidableEq, Inhabited, Repr

/-- A rule that holds no others, and the wrappers around it. -/
structure Leaf where
  wrappers : List Wrapper
  rule : LeafRule
  deriving DecidableEq, Inhabited, Repr

mutual

/-- The leaves of a rule inside some wrappers. -/
def Rule.leaves (wrappers : List Wrapper) : Rule → List Leaf
  | .media queries rules => Rule.leavesAll (wrappers ++ [.media queries]) rules
  | .container name condition rules =>
    Rule.leavesAll (wrappers ++ [.container name condition]) rules
  | .style b => [{ wrappers, rule := .style b }]
  | .keyframes k => [{ wrappers, rule := .keyframes k }]
  | .directive d => [{ wrappers, rule := .directive d }]
  | .unknown kind => [{ wrappers, rule := .unknown kind }]

/-- The leaves of rules, in the order of the rules. -/
def Rule.leavesAll (wrappers : List Wrapper) : List Rule → List Leaf
  | [] => []
  | r :: rest => Rule.leaves wrappers r ++ Rule.leavesAll wrappers rest

end

namespace Leaf

def isReached (l : Leaf) : Bool := l.wrappers.all Wrapper.isOpen

def context (l : Leaf) : Context := .ofWrappers l.wrappers

/-- Extracts a leaf in its context. -/
def perform (c : Settings) (s : State) (l : Leaf) : Outcome :=
  match l.rule with
  | .style b => s.addBlock c l.context b
  | .keyframes k => s.addKeyframes c k
  | .directive d => s.addDirective d
  | .unknown kind => { state := s, notes := [.skippedKind kind] }

end Leaf

/-- The leaves of a style sheet that are reached. -/
def Sheet.reached (rules : List Rule) : List Leaf := (Rule.leavesAll [] rules).filter Leaf.isReached

/-! ## Wrappers and contexts -/

theorem Context.ofWrappers_append (wrappers : List Wrapper) (f : Wrapper) :
    Context.ofWrappers (wrappers ++ [f]) =
      (Context.ofWrappers wrappers).extend f.applicable f.conditions := by
  simp [ofWrappers, extend]

theorem Wrapper.media_closed {queries : List MediaQuery}
    (h : queries.filter MediaQuery.isApplicable = []) : (Wrapper.media queries).isOpen = false := by
  simpa [isOpen, List.filter_eq_nil_iff] using h

theorem Wrapper.media_open {queries : List MediaQuery}
    (h : queries.filter MediaQuery.isApplicable ≠ []) : (Wrapper.media queries).isOpen = true := by
  simpa [isOpen, List.filter_eq_nil_iff] using h

mutual

/-- The wrappers around a rule are around its leaves. -/
theorem Rule.frames_of_mem_leaves {wrappers : List Wrapper} {l : Leaf} :
    ∀ {r : Rule}, l ∈ r.leaves wrappers → wrappers <+: l.wrappers
  | .media queries rules, h => by
    rw [leaves] at h
    exact (List.prefix_append _ _).trans (Rule.frames_of_mem_leavesAll h)
  | .container name condition rules, h => by
    rw [leaves] at h
    exact (List.prefix_append _ _).trans (Rule.frames_of_mem_leavesAll h)
  | .style b, h => by
    rw [leaves] at h
    cases List.mem_singleton.mp h
    exact List.prefix_rfl
  | .keyframes k, h => by
    rw [leaves] at h
    cases List.mem_singleton.mp h
    exact List.prefix_rfl
  | .directive d, h => by
    rw [leaves] at h
    cases List.mem_singleton.mp h
    exact List.prefix_rfl
  | .unknown kind, h => by
    rw [leaves] at h
    cases List.mem_singleton.mp h
    exact List.prefix_rfl

theorem Rule.frames_of_mem_leavesAll {wrappers : List Wrapper} {l : Leaf} :
    ∀ {rules : List Rule}, l ∈ Rule.leavesAll wrappers rules → wrappers <+: l.wrappers
  | [], h => by rw [leavesAll] at h; cases h
  | r :: rest, h => by
    rw [leavesAll] at h
    rcases List.mem_append.mp h with h | h
    · exact Rule.frames_of_mem_leaves h
    · exact Rule.frames_of_mem_leavesAll h

end

/-- Inside a wrapper that is not open no leaf is reached. -/
theorem Rule.none_reached {wrappers : List Wrapper} (h : wrappers.all Wrapper.isOpen = false)
    (rules : List Rule) : (Rule.leavesAll wrappers rules).filter Leaf.isReached = [] := by
  rw [List.filter_eq_nil_iff]
  intro l hl hreached
  obtain ⟨inner, hinner⟩ := Rule.frames_of_mem_leavesAll hl
  rw [Leaf.isReached, ← hinner, List.all_append, h] at hreached
  cases hreached

/-! ## Extraction leaf by leaf -/

section Walk

variable {c : Settings}

theorem each_leaf {wrappers : List Wrapper} (hopen : wrappers.all Wrapper.isOpen = true) (s : State)
    (rule : LeafRule) :
    Outcome.each (Leaf.perform c) s ([{ wrappers, rule }].filter Leaf.isReached) =
      Leaf.perform c s { wrappers, rule } := by
  have hreached : Leaf.isReached { wrappers, rule } = true := hopen
  rw [List.filter_cons_of_pos hreached, List.filter_nil, Outcome.each_one]

mutual

/-- The walk through one rule, by induction on the rule. All wrappers around it are open, and the
context is the one they make. -/
theorem extract_leaves {wrappers : List Wrapper} (hopen : wrappers.all Wrapper.isOpen = true)
    (s : State) :
    ∀ r : Rule, (s.extract c (.ofWrappers wrappers) r).silent =
      (Outcome.each (Leaf.perform c) s ((r.leaves wrappers).filter Leaf.isReached)).silent
  | .style b => by rw [State.extract, Rule.leaves, each_leaf hopen]; rfl
  | .keyframes k => by rw [State.extract, Rule.leaves, each_leaf hopen]; rfl
  | .directive d => by rw [State.extract, Rule.leaves, each_leaf hopen]; rfl
  | .unknown kind => by rw [State.extract, Rule.leaves, each_leaf hopen]; rfl
  | .container name condition rules => by
    have hinner : (wrappers ++ [Wrapper.container name condition]).all Wrapper.isOpen = true := by
      simp [hopen, Wrapper.isOpen]
    rw [State.extract, Rule.leaves, ← extractAll_leaves_inside hinner s rules,
      Context.ofWrappers_append]
    rfl
  | .media queries rules => by
    rw [State.extract, Rule.leaves]
    split
    · rename_i hnone
      have hinner : (wrappers ++ [Wrapper.media queries]).all Wrapper.isOpen = false := by
        simp [Wrapper.media_closed hnone]
      rw [Rule.none_reached hinner]
      rfl
    · rename_i hsome
      have hinner : (wrappers ++ [Wrapper.media queries]).all Wrapper.isOpen = true := by
        simp [hopen, Wrapper.media_open hsome]
      rw [← extractAll_leaves_inside hinner s rules, Context.ofWrappers_append]
      rfl

theorem extractAll_leaves_inside {wrappers : List Wrapper}
    (hopen : wrappers.all Wrapper.isOpen = true) (s : State) :
    ∀ rules : List Rule, (s.extractAll c (.ofWrappers wrappers) rules).silent =
      (Outcome.each (Leaf.perform c) s
        ((Rule.leavesAll wrappers rules).filter Leaf.isReached)).silent
  | [] => by rw [State.extractAll, Rule.leavesAll]; rfl
  | r :: rest => by
    rw [State.extractAll, Rule.leavesAll, List.filter_append, Outcome.each_append]
    apply Outcome.silent_andThen
    · exact extract_leaves hopen s r
    · intro s'
      exact extractAll_leaves_inside hopen s' rest

end

end Walk

/-- To extract rules is to extract the leaves that are reached, one after the other. -/
theorem extractAll_leaves (c : Settings) (s : State) (rules : List Rule) :
    (s.extractAll c {} rules).silent =
      (Outcome.each (Leaf.perform c) s (Sheet.reached rules)).silent :=
  @extractAll_leaves_inside c [] rfl s rules

theorem extractAll_invariant {P : State → Prop} {c : Settings} {rules : List Rule}
    (hstep : ∀ s, ∀ l ∈ Sheet.reached rules, P s → P (Leaf.perform c s l).state) {s : State}
    (hs : P s) : P (s.extractAll c {} rules).state := by
  rw [(Outcome.silent_eq_iff.mp (extractAll_leaves c s rules)).1]
  exact Outcome.each_invariant hstep hs

theorem extractAll_ok {P : State → Prop} {c : Settings} {rules : List Rule}
    (hstep : ∀ s, ∀ l ∈ Sheet.reached rules, P s →
      (Leaf.perform c s l).failure = none ∧ P (Leaf.perform c s l).state) {s : State} (hs : P s) :
    (s.extractAll c {} rules).failure = none := by
  rw [(Outcome.silent_eq_iff.mp (extractAll_leaves c s rules)).2]
  exact Outcome.each_ok hstep hs

end StyleBundle
