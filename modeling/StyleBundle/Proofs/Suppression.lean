import StyleBundle.Proofs.Compilation
import StyleBundle.Proofs.Parts
import StyleBundle.Proofs.RuleSet

/-!
# StyleBundle.Proofs.Suppression

Ignoring warnings changes warnings and nothing else. Two runs over the same sheet are compared, one
that ignores the warnings of some properties and one that keeps them all. At every moment the first
state is the second one with these warnings taken out (`State.suppress`). So the two run alike, and
the bundle of the first is that of the second with the warnings taken out, less the rule sets that
have nothing left to say.

* `buildRule_suppress`, `Animation.ofKeyframes_outspoken`: what a rule keeps, and that animations
  have no warnings.
* `perform_suppress`: one leaf.
* `extractAll_suppress`: whole sheets.
* `RuleSet.ofTable_suppress`: rule sets.
* `compile_ignore`: whole compilations.
-/

namespace StyleBundle

/-! ## Taking warnings out -/

section

variable (p : String → Bool)

/-- Warnings without those of some properties. -/
def Warning.suppress (ws : Option (List Warning)) : Option (List Warning) :=
  nonempty ((ws.getD []).filter fun w => !p w.property)

def StyleRule.suppress (r : StyleRule) : StyleRule :=
  { r with warnings := Warning.suppress p r.warnings }

def Table.suppress (t : Table (List StyleRule)) : Table (List StyleRule) :=
  t.map fun e => (e.1, e.2.map (StyleRule.suppress p))

def State.suppress (s : State) : State := { s with rules := s.rules.suppress p }

def RuleSet.suppress (s : RuleSet) : RuleSet :=
  { s with warnings := Warning.suppress p s.warnings }

/-- A bundle without the warnings of some properties, and without the rule sets that have nothing
else to say. -/
def Bundle.suppress (b : Bundle) : Bundle :=
  { b with
    rules := (b.rules.map fun e => (e.1, e.2.suppress p)).filter fun e =>
      e.2.normal.isSome || e.2.important.isSome || e.2.warnings.isSome }

end

/-- The same settings, with every warning kept. -/
def Settings.outspoken (c : Settings) : Settings := { c with ignores := fun _ => false }

/-! ## Rules -/

theorem extended_none {α : Type} (xs : List α) : extended none xs = nonempty xs := by
  cases xs <;> rfl

theorem Instruction.warnings_suppress (p : String → Bool) (i : Instruction) :
    i.warnings p = (i.warnings fun _ => false).filter fun w => !p w.property := by
  cases i with
  | warn w => cases h : p w.property <;> simp [warnings, h]
  | _ => rfl

section Rules

variable (c : Settings)

theorem Part.step_outspoken {k : Part} (h : k ≠ .warnings) (table : Relocations) :
    k.step (c.buildContext table) = k.step (c.outspoken.buildContext table) := by
  cases k with
  | warnings => exact absurd rfl h
  | _ => rfl

theorem StyleRule.content_suppress {p : String → Bool} {k : Part} (h : k ≠ .warnings)
    (r : StyleRule) : (r.suppress p).content k = r.content k := by
  cases k with
  | warnings => exact absurd rfl h
  | _ => rfl

/-- Of the parts of a rule only the warnings depend on what is ignored. -/
theorem StyleRule.ofInstructions_suppress (table : Relocations) (specificity : Specificity)
    (is : List Instruction) :
    ofInstructions (c.buildContext table) specificity is =
      (ofInstructions (c.outspoken.buildContext table) specificity is).suppress c.ignores := by
  have hcontent (k : Part) :
      (ofInstructions (c.buildContext table) specificity is).content k =
        ((ofInstructions (c.outspoken.buildContext table) specificity is).suppress
          c.ignores).content k := by
    by_cases hk : k = .warnings
    · subst hk
      simp only [content, ofInstructions, suppress, Warning.suppress, Draft.run_warnings,
        extended_none, getD_nonempty, List.filter_flatMap]
      congr 2
      funext i
      exact Instruction.warnings_suppress c.ignores i
    · rw [content_suppress hk]
      unfold ofInstructions
      rw [Draft.run_content, Draft.run_content, Part.step_outspoken c hk]
  have hparts := eq_of_content hcontent { specificity }
  have houtspoken := ofInstructions_withHead (c.outspoken.buildContext table) specificity is
  rw [ofInstructions_withHead] at hparts
  exact hparts.trans (congrArg (StyleRule.suppress c.ignores) houtspoken)

theorem buildRule_suppress (table : Relocations) (read : Declaration → List Instruction)
    (specificity : Specificity) (ds : List Declaration) :
    (buildRule (c.buildContext table) read specificity ds).rule =
      (buildRule (c.outspoken.buildContext table) read specificity ds).rule.suppress c.ignores :=
  StyleRule.ofInstructions_suppress c table specificity (ds.flatMap read)

theorem SheetBlock.rules_suppress (order : Nat) (b : SheetBlock) :
    b.rules c order = (b.rules c.outspoken order).map (StyleRule.suppress c.ignores) := by
  have hrule (important : Bool) : b.rule? c order important =
      (b.rule? c.outspoken order important).map (StyleRule.suppress c.ignores) := by
    unfold SheetBlock.rule? SheetBlock.built
    split
    · rfl
    · rw [buildRule_suppress]
      rfl
  unfold SheetBlock.rules
  rw [hrule, hrule, List.map_append, Option.toList_map, Option.toList_map]

end Rules

/-! ## Animations -/

section Keyframes

variable (c : Settings) (read : Declaration → List Instruction) (order : Int)

theorem RawFrame.rule_suppress (k : Keyframe) :
    (RawFrame.rule (c.buildContext []) read order k).result =
      (RawFrame.rule (c.outspoken.buildContext []) read order k).result.map
        (StyleRule.suppress c.ignores) := by
  unfold RawFrame.rule
  simp only [bind, Noted.bind, Noted.ofExcept]
  cases Specificity.ofTiers Specificity.frameImportance 0 0 1 order with
  | error e => rfl
  | ok specificity =>
    simp only [Noted.withNotes, Except.map]
    rw [buildRule_suppress]

/-- A frame takes nothing from the warnings of its rule. -/
theorem RawFrame.addKeyframe_outspoken (s : FrameSet) (k : Keyframe) :
    (RawFrame.addKeyframe (c.buildContext []) read order s k).result =
      (RawFrame.addKeyframe (c.outspoken.buildContext []) read order s k).result := by
  unfold RawFrame.addKeyframe
  split
  · rfl
  · simp only [bind, Noted.bind]
    rw [RawFrame.rule_suppress]
    cases (RawFrame.rule (c.outspoken.buildContext []) read order k).result with
    | error e => rfl
    | ok r => rfl

theorem RawFrame.addKeyframes_outspoken (ks : List Keyframe) (s : FrameSet) :
    (ks.foldlM (RawFrame.addKeyframe (c.buildContext []) read order) s).result =
      (ks.foldlM (RawFrame.addKeyframe (c.outspoken.buildContext []) read order) s).result := by
  induction ks generalizing s with
  | nil => rfl
  | cons k rest ih =>
    rw [List.foldlM_cons, List.foldlM_cons]
    simp only [bind, Noted.bind]
    rw [RawFrame.addKeyframe_outspoken]
    cases (RawFrame.addKeyframe (c.outspoken.buildContext []) read order s k).result with
    | error e => rfl
    | ok s' => exact ih s'

theorem Animation.ofKeyframes_outspoken (k : Keyframes) :
    (Animation.ofKeyframes (c.buildContext []) read order k).result =
      (Animation.ofKeyframes (c.outspoken.buildContext []) read order k).result := by
  have hframes : (RawFrame.ofKeyframes (c.buildContext []) read order k).result =
      (RawFrame.ofKeyframes (c.outspoken.buildContext []) read order k).result :=
    RawFrame.addKeyframes_outspoken c read order k.frames {}
  unfold Animation.ofKeyframes
  simp only [bind, Noted.bind]
  rw [hframes]
  cases (RawFrame.ofKeyframes (c.outspoken.buildContext []) read order k).result with
  | error e => rfl
  | ok set => rfl

end Keyframes

/-! ## Filing -/

section Filing

variable {p : String → Bool}

theorem Table.push_suppress (t : Table (List StyleRule)) (key : String) (r : StyleRule) :
    (t.suppress p).push key (r.suppress p) = (t.push key r).suppress p := by
  unfold suppress push
  induction t with
  | nil => rfl
  | cons e rest ih =>
    obtain ⟨k, rs⟩ := e
    simp only [List.map_cons, alter]
    split
    · simp
    · rw [List.map_cons, ih]

theorem ClassSelector.entries_suppress (target : ClassSelector) (r : StyleRule) :
    target.entries (r.suppress p) =
      (target.entries r).map fun e => (e.1, e.2.suppress p) := by
  unfold entries
  cases target.group? with
  | none => rfl
  | some group => rfl

theorem State.addRule_suppress (s : State) (key : String) (r : StyleRule) :
    (s.suppress p).addRule key (r.suppress p) = (s.addRule key r).suppress p := by
  simp only [addRule, suppress, Table.push_suppress]

theorem fileVariant_suppress (r : StyleRule) (s : State) (v : Variant) :
    State.fileVariant (r.suppress p) (s.suppress p) v = (State.fileVariant r s v).suppress p := by
  cases v with
  | className target =>
    rw [State.fileVariant, ClassSelector.entries_suppress, List.foldl_map]
    exact List.foldl_hom (State.suppress p) fun s e => s.addRule_suppress e.1 e.2
  | customProperties scope subtype =>
    cases scope with
    | root => rfl
    | universal => rfl

variable (c : Settings) (selectors : List String)

theorem file_suppress (r : StyleRule) (s : State) :
    (State.file c selectors (s.suppress p) (r.suppress p)).state =
      (State.file c.outspoken selectors s r).state.suppress p := by
  rw [file_state, file_state]
  refine List.foldl_hom (State.suppress p) fun s selector => ?_
  rw [fileSelector_state, fileSelector_state]
  exact List.foldl_hom (State.suppress p) (fileVariant_suppress r)

theorem fileAll_suppress (rs : List StyleRule) (s : State) :
    (s.suppress p).fileAll c selectors (rs.map (StyleRule.suppress p)) =
      (s.fileAll c.outspoken selectors rs).suppress p := by
  unfold State.fileAll
  rw [List.foldl_map]
  exact List.foldl_hom (State.suppress p) fun s r => file_suppress c selectors r s

end Filing

/-! ## Leaves and sheets -/

section Sheets

variable (c : Settings)

theorem addBlock_suppress (ctx : Context) {s : State} (hs : 0 ≤ s.order) (b : StyleBlock) :
    ((s.suppress c.ignores).addBlock c ctx b).state =
      (s.addBlock c.outspoken ctx b).state.suppress c.ignores := by
  by_cases hb : b.hasDeclarations = true
  · have hsuppressed : 0 ≤ (s.suppress c.ignores).order := hs
    rw [(addBlock_eq c ctx hsuppressed hb).2, (addBlock_eq c.outspoken ctx hs hb).2,
      SheetBlock.rules_suppress, fileAll_suppress]
    rfl
  · rw [State.addBlock, State.addBlock, if_neg hb, if_neg hb]

theorem addKeyframes_suppress (s : State) (k : Keyframes) :
    ((s.suppress c.ignores).addKeyframes c k).failure =
        (s.addKeyframes c.outspoken k).failure ∧
      ((s.suppress c.ignores).addKeyframes c k).state =
        (s.addKeyframes c.outspoken k).state.suppress c.ignores := by
  have hresult := Animation.ofKeyframes_outspoken c c.read s.order k
  unfold State.addKeyframes Outcome.ofNoted
  simp only [State.suppress, Settings.outspoken] at hresult ⊢
  rw [hresult]
  split <;> exact ⟨rfl, rfl⟩

theorem addDirective_suppress (p : String → Bool) (s : State) (d : Directive) :
    ((s.suppress p).addDirective d).state = (s.addDirective d).state.suppress p := by
  unfold State.addDirective State.setOption State.setDarkMode
  repeat' split
  all_goals rfl

/-- A leaf takes a state without the ignored warnings to such a state. -/
theorem perform_suppress {s : State} (hs : 0 ≤ s.order) (l : Leaf) :
    (l.perform c (s.suppress c.ignores)).failure = (l.perform c.outspoken s).failure ∧
      (l.perform c (s.suppress c.ignores)).state =
        (l.perform c.outspoken s).state.suppress c.ignores := by
  obtain ⟨wrappers, rule⟩ := l
  have hsuppressed : 0 ≤ (s.suppress c.ignores).order := hs
  cases rule with
  | style b =>
    have hfailure := addBlock_failure c (.ofWrappers wrappers) hsuppressed b
    have hfailure' := addBlock_failure c.outspoken (.ofWrappers wrappers) hs b
    exact ⟨hfailure.trans hfailure'.symm, addBlock_suppress c _ hs b⟩
  | keyframes k => exact addKeyframes_suppress c s k
  | directive d =>
    have hfailure := addDirective_failure (s.suppress c.ignores) d
    have hfailure' := addDirective_failure s d
    exact ⟨hfailure.trans hfailure'.symm, addDirective_suppress c.ignores s d⟩
  | unknown kind => exact ⟨rfl, rfl⟩

theorem extractAll_suppress {s : State} (hs : 0 ≤ s.order) (rules : List Rule) :
    ((s.suppress c.ignores).extractAll c {} rules).failure =
        (s.extractAll c.outspoken {} rules).failure ∧
      ((s.suppress c.ignores).extractAll c {} rules).state =
        (s.extractAll c.outspoken {} rules).state.suppress c.ignores := by
  obtain ⟨hstate, hfailure⟩ :=
    Outcome.silent_eq_iff.mp (extractAll_leaves c (s.suppress c.ignores) rules)
  obtain ⟨hstate', hfailure'⟩ :=
    Outcome.silent_eq_iff.mp (extractAll_leaves c.outspoken s rules)
  let R (t s : State) : Prop := t = s.suppress c.ignores ∧ 0 ≤ s.order
  have hstep : ∀ t s l l', R t s → l = l' →
      (Leaf.perform c t l).failure = (Leaf.perform c.outspoken s l').failure ∧
        R (Leaf.perform c t l).state (Leaf.perform c.outspoken s l').state := by
    rintro _ s l _ ⟨rfl, hs⟩ rfl
    obtain ⟨hfailure, hstate⟩ := perform_suppress c hs l
    exact ⟨hfailure, hstate, perform_nonneg c.outspoken hs l⟩
  have hstart : R (s.suppress c.ignores) s := ⟨rfl, hs⟩
  have hleaves : List.Forall₂ Eq (Sheet.reached rules) (Sheet.reached rules) :=
    List.forall₂_same.mpr fun _ _ => rfl
  have hrun := Outcome.each_related hstep hstart hleaves
  rw [hstate, hfailure, hstate', hfailure']
  exact ⟨hrun.1, hrun.2.1⟩

end Sheets

/-! ## Rule sets -/

namespace RuleSet

variable {p : String → Bool}

theorem getD_addWarnings (s : RuleSet) (r : StyleRule) :
    (s.addWarnings r).warnings.getD [] = s.warnings.getD [] ++ r.warnings.getD [] := by
  unfold addWarnings
  split
  · rfl
  · rename_i h
    rw [holds_iff, not_not] at h
    rw [h, List.append_nil]

theorem addWarnings_suppress (s : RuleSet) (r : StyleRule) :
    (s.suppress p).addWarnings (r.suppress p) = (s.addWarnings r).suppress p := by
  have hwarnings : ((s.suppress p).addWarnings (r.suppress p)).warnings =
      Warning.suppress p (s.addWarnings r).warnings := by
    have hadded := addWarnings_warnings (s.suppress p) (r.suppress p) rfl
    have hfiltered : (r.suppress p).warnings.getD [] =
        (r.warnings.getD []).filter fun w => !p w.property := getD_nonempty _
    rw [hadded, hfiltered, Warning.suppress, getD_addWarnings, List.filter_append]
  rw [addWarnings_eq, hwarnings, addWarnings_eq s r]
  rfl

theorem addRule_suppress (s : RuleSet) (r : StyleRule) :
    (s.suppress p).addRule (r.suppress p) = (s.addRule r).suppress p := by
  have hempty : (r.suppress p).isEmpty = r.isEmpty := rfl
  unfold addRule
  simp only [addWarnings_suppress, hempty]
  split
  · rfl
  · rfl

theorem ofRules_suppress (rs : List StyleRule) :
    ofRules (rs.map (StyleRule.suppress p)) = (ofRules rs).suppress p := by
  unfold ofRules
  rw [List.foldl_map]
  change rs.foldl _ (suppress p {}) = _
  exact List.foldl_hom (suppress p) addRule_suppress

theorem isUseful_of_suppress {s : RuleSet} (h : (s.suppress p).isUseful = true) :
    s.isUseful = true := by
  have hwarnings (hsome : (Warning.suppress p s.warnings).isSome = true) :
      s.warnings.isSome = true := by
    cases hs : s.warnings with
    | none =>
      rw [hs] at hsome
      cases hsome
    | some ws => rfl
  simp only [isUseful, suppress, Bool.or_eq_true] at h ⊢
  exact h.imp_right hwarnings

theorem ofTable_suppress (t : Table (List StyleRule)) :
    ofTable (t.suppress p) =
      ((ofTable t).map fun e => (e.1, e.2.suppress p)).filter (·.2.isUseful) := by
  have hsets : (t.suppress p).map (fun e => (e.1, ofRules e.2)) =
      (t.map fun e => (e.1, ofRules e.2)).map fun e => (e.1, e.2.suppress p) := by
    simp [Table.suppress, ofRules_suppress]
  -- a rule set that is of use without some warnings is of use with them
  have huseful (sets : List (String × RuleSet)) :
      (sets.map fun e => (e.1, e.2.suppress p)).filter (·.2.isUseful) =
        ((sets.filter (·.2.isUseful)).map fun e => (e.1, e.2.suppress p)).filter
          (·.2.isUseful) := by
    rw [List.filter_map, List.filter_map, List.filter_filter]
    congr 1
    apply List.filter_congr
    intro e _
    rw [Bool.eq_iff_iff, Bool.and_eq_true]
    exact ⟨fun h => ⟨h, isUseful_of_suppress h⟩, fun h => h.1⟩
  unfold ofTable
  rw [hsets]
  exact huseful _

end RuleSet

/-! ## Bundles -/

theorem Bundle.ofState_suppress (p : String → Bool) (s : State) :
    ofState (s.suppress p) = (ofState s).suppress p := by
  simp only [ofState, suppress, State.suppress, RuleSet.ofTable_suppress, RuleSet.isUseful]

theorem Bundle.compile_suppress (c : Settings) (dark : DarkMode) (rules : List Rule) :
    (compile c { darkMode := dark } rules).result =
      (compile c.outspoken { darkMode := dark } rules).result.map (suppress c.ignores) := by
  let s : State := { darkMode := dark }
  obtain ⟨hfailure, hstate⟩ := extractAll_suppress c (s := s) Int.one_nonneg rules
  rw [show s.suppress c.ignores = s from rfl] at hfailure hstate
  rw [compile_result, compile_result, hfailure, hstate, ofState_suppress]
  cases (s.extractAll c.outspoken {} rules).failure <;> rfl

/-- Which warnings are ignored reaches warnings only. Whatever properties are ignored, a compilation
comes to what it comes to if none is, less the warnings of these properties, and less the rule sets
that have nothing but such warnings to say. -/
theorem compile_ignore (c : Settings) (dark : DarkMode) (source : String) :
    let outspoken := { c with ignores := fun _ => false }
    let s : State := { darkMode := dark }
    (Bundle.ofParsed (Bundle.compile c s) source).result =
      (Bundle.ofParsed (Bundle.compile outspoken s) source).result.map
        (Bundle.suppress c.ignores) := by
  intro outspoken s
  rw [Bundle.ofParsed_result, Bundle.ofParsed_result]
  cases (Sheet.parse source).result with
  | error e => rfl
  | ok rules => exact Bundle.compile_suppress c dark rules

/-- Two warnings are ignored, and one of the classes has nothing else to say. -/
theorem compile_ignore_floats :
    let c (ignores : String → Bool) : Settings :=
      { isGroup := fun _ => false, ignores, classifier := .standard, read := Declaration.read }
    let ignores := Options.found [(· == "float"), (· == "flow")]
    let source := ".a\x7bfloat:left;color:red;cursor:x\x7d.b\x7bfloat:left\x7d.c\x7bcolor:red\x7d"
    let counts (b : Bundle) := b.rules.map fun e => (e.1, (e.2.warnings.getD []).length)
    ∃ b b', (Bundle.ofParsed (Bundle.compile (c fun _ => false) {}) source).result = .ok b ∧
      (Bundle.ofParsed (Bundle.compile (c ignores) {}) source).result = .ok b' ∧
      counts b = [("a", 2), ("b", 1), ("c", 0)] ∧ counts b' = [("a", 1), ("c", 0)] ∧
      b' = b.suppress ignores := by
  intro c ignores source counts
  have hcounts : (Bundle.ofParsed (Bundle.compile (c fun _ => false) {}) source).result.toOption.map
      counts = some [("a", 2), ("b", 1), ("c", 0)] := by decide +kernel
  have hcounts' : (Bundle.ofParsed (Bundle.compile (c ignores) {}) source).result.toOption.map
      counts = some [("a", 1), ("c", 0)] := by decide +kernel
  obtain ⟨b, hb, hcounts⟩ := exists_ok_of_map hcounts
  obtain ⟨b', hb', hcounts'⟩ := exists_ok_of_map hcounts'
  refine ⟨b, b', hb, hb', hcounts, hcounts', ?_⟩
  have hmap : (Bundle.ofParsed (Bundle.compile (c ignores) {}) source).result =
      (Bundle.ofParsed (Bundle.compile (c fun _ => false) {}) source).result.map
        (Bundle.suppress ignores) := compile_ignore (c ignores) {} source
  rw [hb, hb'] at hmap
  exact Except.ok.inj hmap

end StyleBundle
