import Mathlib
import StyleBundle.Options

/-!
# StyleBundle.Proofs.Grammar

The grammar of selectors.

    selector = space* run (space+ run)* space*
    run      = simple+
    simple   = "." name | ":" name | "*" | attribute in square brackets

* `Simple.Spells`, `Simple.SpellsAll`, `Selector.Spells`: how selectors are written.
* `Compound.ofRun`: what a run asks of its element.
* `Compound.listOfTokens?_eq_some_iff`: reading accepts the selectors of the grammar and nothing
  else, and gives one compound for each run.
-/

namespace StyleBundle

/-- A simple selector: a condition on an element, or `*`, which every element meets. -/
inductive Simple where
  | className (name : String)
  | root
  | pseudoClass (name : String)
  | attr (a : Attribute)
  | universal
  deriving DecidableEq, Repr

namespace Simple

/-- What a colon and a name are. -/
def ofColon (name : String) : Simple :=
  if Text.lower name = "root" then .root else .pseudoClass (Text.lower name)

def className? : Simple → Option String
  | .className name => some name
  | _ => none

def pseudoClass? : Simple → Option String
  | .pseudoClass name => some name
  | _ => none

def attr? : Simple → Option Attribute
  | .attr a => some a
  | _ => none

inductive Spells : List Token → Simple → Prop where
  | className (p q : Position) (name : String) :
      Spells [.atom p (.literal "."), .atom q (.ident name)] (.className name)
  | colon (p q : Position) (name : String) :
      Spells [.atom p (.literal ":"), .atom q (.ident name)] (ofColon name)
  | universal (p : Position) : Spells [.atom p (.literal "*")] .universal
  | attr (p : Position) {content : List Token} {a : Attribute} :
      Attribute.ofTokens? content = some a → Spells [.block p .square content] (.attr a)

/-- How simple selectors on one element are written, one right after the other. -/
inductive SpellsAll : List Token → List Simple → Prop where
  | nil : SpellsAll [] []
  | snoc {ts us : List Token} {run : List Simple} {s : Simple} :
      SpellsAll ts run → Spells us s → SpellsAll (ts ++ us) (run ++ [s])

theorem SpellsAll.eq_nil {ts : List Token} {run : List Simple} (h : SpellsAll ts run)
    (hrun : run = []) : ts = [] := by
  cases h with
  | nil => rfl
  | snoc _ _ => simp at hrun

end Simple

def Token.AreSpaces (ts : List Token) : Prop :=
  ∀ t ∈ ts, ∃ p text, t = .atom p (.whitespace text)

theorem Token.areSpaces_nil : AreSpaces [] := List.forall_mem_nil _

namespace Selector

/-- Runs of simple selectors with white space between them, and perhaps behind the last. -/
inductive SpellsRuns : List Token → List (List Simple) → Prop where
  | last {ts after : List Token} {run : List Simple} :
      Simple.SpellsAll ts run → run ≠ [] → Token.AreSpaces after → SpellsRuns (ts ++ after) [run]
  | more {ts between rest : List Token} {run : List Simple} {runs : List (List Simple)} :
      Simple.SpellsAll ts run → run ≠ [] → Token.AreSpaces between → between ≠ [] →
      SpellsRuns rest runs → SpellsRuns (ts ++ between ++ rest) (run :: runs)

def Spells (ts : List Token) (runs : List (List Simple)) : Prop :=
  ∃ before rest, ts = before ++ rest ∧ Token.AreSpaces before ∧ SpellsRuns rest runs

theorem Spells.ne_nil {ts : List Token} {runs : List (List Simple)} (h : Spells ts runs) :
    runs ≠ [] := by
  obtain ⟨before, rest, -, -, hrest⟩ := h
  cases hrest <;> simp

end Selector

namespace Compound

/-- The conditions of a run, sorted by their kind. -/
def ofRun (run : List Simple) : Compound where
  classes := run.filterMap Simple.className?
  pseudoClasses := run.filterMap Simple.pseudoClass?
  attributes := run.filterMap Simple.attr?
  root := run.contains .root
  universal := run.contains .universal

/-- Every simple selector leaves a trace in the compound. -/
theorem isEmpty_ofRun (run : List Simple) : (ofRun run).isEmpty = run.isEmpty := by
  cases run with
  | nil => rfl
  | cons s rest =>
    cases s <;>
      simp [isEmpty, ofRun, Simple.className?, Simple.pseudoClass?, Simple.attr?]

theorem isEmpty_ofRun_of_ne_nil {run : List Simple} (h : run ≠ []) :
    (ofRun run).isEmpty = false := by
  rw [isEmpty_ofRun, List.isEmpty_eq_false_iff]
  exact h

def add (c : Compound) : Simple → Compound
  | .className name => c.addClass name
  | .root => { c with root := true }
  | .pseudoClass name => { c with pseudoClasses := c.pseudoClasses ++ [name] }
  | .attr a => c.addAttribute a
  | .universal => { c with universal := true }

theorem ofRun_snoc (run : List Simple) (s : Simple) : ofRun (run ++ [s]) = (ofRun run).add s := by
  cases s <;> simp [ofRun, add, addClass, addAttribute, List.filterMap_cons, Simple.className?,
    Simple.pseudoClass?, Simple.attr?]

theorem addPseudoClass_eq (c : Compound) (name : String) :
    c.addPseudoClass name = c.add (.ofColon name) := by
  unfold addPseudoClass Simple.ofColon
  simp only
  split <;> rfl

/-! ## Reading what is written -/

theorem readFrom_simple {ts : List Token} {s : Simple} (h : Simple.Spells ts s)
    (done : List Compound) (run : List Simple) (rest : List Token) :
    readFrom done (ofRun run) (ts ++ rest) = readFrom done (ofRun (run ++ [s])) rest := by
  rw [ofRun_snoc]
  cases h with
  | className p q name => rfl
  | colon p q name =>
    rw [← addPseudoClass_eq]
    rfl
  | universal p => rfl
  | attr p ha => simp [readFrom, ha, add]

theorem readFrom_all {ts : List Token} {run : List Simple} (h : Simple.SpellsAll ts run)
    (done : List Compound) (rest : List Token) :
    readFrom done {} (ts ++ rest) = readFrom done (ofRun run) rest := by
  induction h generalizing rest with
  | nil => rfl
  | snoc _ hs ih => rw [List.append_assoc, ih, readFrom_simple hs]

theorem readFrom_spaces {before : List Token} (h : Token.AreSpaces before) (done : List Compound)
    (rest : List Token) : readFrom done {} (before ++ rest) = readFrom done {} rest := by
  induction before with
  | nil => rfl
  | cons t before ih =>
    obtain ⟨p, text, rfl⟩ := h t List.mem_cons_self
    have hbefore : Token.AreSpaces before := fun u hu => h u (List.mem_cons_of_mem _ hu)
    rw [List.cons_append, readFrom, if_pos (by rfl), ih hbefore]

/-- White space behind a compound closes it. -/
theorem readFrom_close {between : List Token} (h : Token.AreSpaces between) (hne : between ≠ [])
    (done : List Compound) {run : List Simple} (hrun : run ≠ []) (rest : List Token) :
    readFrom done (ofRun run) (between ++ rest) = readFrom (done ++ [ofRun run]) {} rest := by
  obtain ⟨t, between', rfl⟩ := List.exists_cons_of_ne_nil hne
  obtain ⟨p, text, rfl⟩ := h t List.mem_cons_self
  have hbetween : Token.AreSpaces between' := fun u hu => h u (List.mem_cons_of_mem _ hu)
  rw [List.cons_append, readFrom, if_neg (by simp [isEmpty_ofRun_of_ne_nil hrun]),
    readFrom_spaces hbetween]

theorem readFrom_last {after : List Token} (h : Token.AreSpaces after) (done : List Compound)
    {run : List Simple} (hrun : run ≠ []) :
    readFrom done (ofRun run) after = some (done ++ [ofRun run]) := by
  by_cases hne : after = []
  · simp [hne, readFrom, finish, isEmpty_ofRun_of_ne_nil hrun]
  · have hclose := readFrom_close h hne done hrun []
    rw [List.append_nil] at hclose
    rw [hclose]
    simp [readFrom, finish, isEmpty]

theorem readFrom_runs {ts : List Token} {runs : List (List Simple)}
    (h : Selector.SpellsRuns ts runs) (done : List Compound) :
    readFrom done {} ts = some (done ++ runs.map ofRun) := by
  induction h generalizing done with
  | last hrun hne hafter =>
    rw [readFrom_all hrun, readFrom_last hafter done hne]
    rfl
  | more hrun hne hbetween hsome _ ih =>
    rw [List.append_assoc, readFrom_all hrun, readFrom_close hbetween hsome done hne, ih]
    simp

theorem listOfTokens?_of_spells {ts : List Token} {runs : List (List Simple)}
    (h : Selector.Spells ts runs) : listOfTokens? ts = some (runs.map ofRun) := by
  obtain ⟨before, rest, rfl, hbefore, hrest⟩ := h
  rw [listOfTokens?, readFrom_spaces hbefore, readFrom_runs hrest, List.nil_append]

end Compound

/-! ## Nothing else is read -/

namespace Selector

theorem Spells.space {ts : List Token} {runs : List (List Simple)} (h : Spells ts runs)
    (p : Position) (text : String) : Spells (.atom p (.whitespace text) :: ts) runs := by
  obtain ⟨before, rest, rfl, hbefore, hrest⟩ := h
  refine ⟨.atom p (.whitespace text) :: before, rest, rfl, ?_, hrest⟩
  exact List.forall_mem_cons.mpr ⟨⟨p, text, rfl⟩, hbefore⟩

theorem spells_last {ts after : List Token} {run : List Simple} (hrun : Simple.SpellsAll ts run)
    (hne : run ≠ []) (hafter : Token.AreSpaces after) : Spells (ts ++ after) [run] :=
  ⟨[], ts ++ after, rfl, Token.areSpaces_nil, .last hrun hne hafter⟩

theorem Spells.cons {ts rest : List Token} {run : List Simple} {runs : List (List Simple)}
    (h : Spells rest runs) (hrun : Simple.SpellsAll ts run) (hne : run ≠ []) (p : Position)
    (text : String) : Spells (ts ++ .atom p (.whitespace text) :: rest) (run :: runs) := by
  obtain ⟨before, rest, rfl, hbefore, hrest⟩ := h
  have hbetween : Token.AreSpaces (.atom p (.whitespace text) :: before) :=
    List.forall_mem_cons.mpr ⟨⟨p, text, rfl⟩, hbefore⟩
  refine ⟨[], _, rfl, Token.areSpaces_nil, ?_⟩
  simpa using SpellsRuns.more hrun hne hbetween (List.cons_ne_nil _ _) hrest

end Selector

namespace Compound

theorem finish_ofRun (done : List Compound) (run : List Simple) {cs : List Compound}
    (h : finish done (ofRun run) = some cs) :
    run ≠ [] ∧ cs = done ++ [ofRun run] ∨ run = [] ∧ cs = done ∧ done ≠ [] := by
  unfold finish at h
  rw [isEmpty_ofRun] at h
  cases run with
  | nil =>
    simp only [List.isEmpty_nil, if_true] at h
    split at h
    · cases h
    · rename_i hdone
      cases h
      exact .inr ⟨rfl, rfl, by simpa using hdone⟩
  | cons s rest => exact .inl ⟨List.cons_ne_nil _ _, by simpa using h.symm⟩

/-- What is read after `done` when the present compound is the run that `front` spells: a selector,
or nothing but white space. -/
theorem spells_of_readFrom {done : List Compound} {current : Compound} {ts : List Token}
    {cs : List Compound} (h : readFrom done current ts = some cs) {run : List Simple}
    {front : List Token} (hrun : Simple.SpellsAll front run) (hcurrent : current = ofRun run) :
    (∃ runs, Selector.Spells (front ++ ts) runs ∧ cs = done ++ runs.map ofRun) ∨
      Token.AreSpaces ts ∧ run = [] ∧ cs = done ∧ done ≠ [] := by
  -- A simple selector moves from the rest to the run, so the run is not empty any more.
  have hsimple {done : List Compound} {us rest front : List Token} {run : List Simple} {s : Simple}
      (h : (∃ runs, Selector.Spells ((front ++ us) ++ rest) runs ∧ cs = done ++ runs.map ofRun) ∨
        Token.AreSpaces rest ∧ run ++ [s] = [] ∧ cs = done ∧ done ≠ []) :
      ∃ runs, Selector.Spells (front ++ (us ++ rest)) runs ∧ cs = done ++ runs.map ofRun := by
    rcases h with h | ⟨-, hnil, -⟩
    · rwa [List.append_assoc] at h
    · simp at hnil
  fun_induction readFrom done current ts generalizing run front with
  | case1 done current =>
    subst hcurrent
    rcases finish_ofRun done run h with ⟨hne, rfl⟩ | ⟨hnil, hcs⟩
    · exact .inl ⟨[run], Selector.spells_last hrun hne Token.areSpaces_nil, rfl⟩
    · exact .inr ⟨Token.areSpaces_nil, hnil, hcs⟩
  | case2 done current p text rest hempty ih =>
    subst hcurrent
    have hnil : run = [] := by simpa [isEmpty_ofRun] using hempty
    have hfront : front = [] := hrun.eq_nil hnil
    rcases ih h hrun rfl with ⟨runs, hruns, hcs⟩ | ⟨hrest, -, hcs⟩
    · subst hfront
      exact .inl ⟨runs, hruns.space p text, hcs⟩
    · exact .inr ⟨List.forall_mem_cons.mpr ⟨⟨p, text, rfl⟩, hrest⟩, hnil, hcs⟩
  | case3 done current p text rest hempty ih =>
    subst hcurrent
    have hne : run ≠ [] := by simpa [isEmpty_ofRun] using hempty
    left
    rcases ih h .nil rfl with ⟨runs, hruns, rfl⟩ | ⟨hrest, -, rfl, -⟩
    · exact ⟨run :: runs, hruns.cons hrun hne p text, by simp⟩
    · refine ⟨[run], Selector.spells_last hrun hne ?_, by simp⟩
      exact List.forall_mem_cons.mpr ⟨⟨p, text, rfl⟩, hrest⟩
  | case4 done current p rest ih =>
    subst hcurrent
    have hadd := (ofRun_snoc run .universal).symm
    exact .inl (hsimple (ih h (hrun.snoc (.universal p)) hadd))
  | case5 done current p q name rest ih =>
    subst hcurrent
    have hadd := (ofRun_snoc run (.className name)).symm
    exact .inl (hsimple (ih h (hrun.snoc (.className p q name)) hadd))
  | case6 done current p q name rest ih =>
    subst hcurrent
    have hadd : (ofRun run).addPseudoClass name = ofRun (run ++ [.ofColon name]) := by
      rw [ofRun_snoc, addPseudoClass_eq]
    exact .inl (hsimple (ih h (hrun.snoc (.colon p q name)) hadd))
  | case7 done current p content rest a ha ih =>
    subst hcurrent
    have hadd := (ofRun_snoc run (.attr a)).symm
    exact .inl (hsimple (ih h (hrun.snoc (.attr p ha)) hadd))
  | case8 => cases h
  | case9 => cases h

/-- Reading accepts the selectors of the grammar and gives one compound for each run. -/
theorem listOfTokens?_eq_some_iff {ts : List Token} {cs : List Compound} :
    listOfTokens? ts = some cs ↔ ∃ runs, Selector.Spells ts runs ∧ cs = runs.map ofRun := by
  constructor
  · intro h
    rcases spells_of_readFrom h .nil rfl with hruns | ⟨-, -, -, hnil⟩
    · exact hruns
    · exact absurd rfl hnil
  · rintro ⟨runs, hruns, rfl⟩
    exact listOfTokens?_of_spells hruns

end Compound

end StyleBundle
