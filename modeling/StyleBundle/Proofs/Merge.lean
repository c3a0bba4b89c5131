import StyleBundle.Proofs.Filing

/-!
# StyleBundle.Proofs.Merge

Extraction goes on from any state as it goes from a fresh one. `State.merge s f` puts what a fresh
extraction `f` has found behind what `s` has: its rules come behind those of `s`, at order numbers
counted on from `s`, and its animations, flags and custom properties replace those of `s`.

Every step does to `s.merge f` what it does to `f`, if no table of `f` has a key twice
(`State.Tidy`), and it leaves `f` tidy; the two are proved together, as steps of `State.Extends`.
`extractAll_shift` follows for whole extractions.
-/

namespace StyleBundle

/-- A rule whose order number is further on. -/
def StyleRule.shift (n : Nat) (r : StyleRule) : StyleRule :=
  { r with specificity := { r.specificity with order := r.specificity.order + n } }

namespace Variables

/-- Custom properties with those of another table, which count for each name and theme. -/
def update (v w : Variables) : Variables :=
  Table.merge (fun old themes => Table.update (old.getD []) themes) v w

/-- No name comes twice, and no theme twice for one name. -/
structure Tidy (v : Variables) : Prop where
  names : Table.Distinct v
  themes : ∀ name themes, Table.get? name v = some themes → Table.Distinct themes

theorem Tidy.getD {v : Variables} (h : v.Tidy) (name : String) :
    Table.Distinct ((Table.get? name v).getD []) := by
  cases hname : Table.get? name v with
  | none => exact List.nodup_nil
  | some themes => exact h.themes name themes hname

theorem Tidy.put {v : Variables} (h : v.Tidy) (subtype name : String) (value : Value) :
    (v.put subtype name value).Tidy where
  names := h.names.alter _ _
  themes := by
    intro other themes hthemes
    by_cases hother : other = name
    · subst hother
      rw [Variables.put, Table.get?_alter_self, Option.some.injEq] at hthemes
      rw [← hthemes]
      exact (h.getD other).alter _ _
    · rw [Variables.put, Table.get?_alter_of_ne hother] at hthemes
      exact h.themes other themes hthemes

theorem update_put {w : Variables} (hw : w.Tidy) (subtype name : String) (value : Value)
    (v : Variables) :
    v.update (w.put subtype name value) = (v.update w).put subtype name value := by
  refine Table.merge_alter _ _ _ hw.names ?_ ?_ v
  · intro old
    rfl
  · intro themes hthemes old
    exact (Table.update_put (hw.themes name themes hthemes) subtype value _).symm

theorem update_addAll {w : Variables} (hw : w.Tidy) (subtype : String)
    (entries : List (String × Value)) (v : Variables) :
    (w.addAll subtype entries).Tidy ∧
      v.update (w.addAll subtype entries) = (v.update w).addAll subtype entries := by
  unfold addAll
  induction entries generalizing w with
  | nil => exact ⟨hw, rfl⟩
  | cons e rest ih =>
    obtain ⟨htidy, heq⟩ := ih (hw.put subtype e.1 e.2)
    rw [update_put hw] at heq
    exact ⟨htidy, heq⟩

end Variables

namespace State

/-- A state with a fresh extraction behind it. -/
def merge (s f : State) : State where
  darkMode := f.darkMode
  rules := s.rules.concat (StyleRule.shift (s.order - 1).toNat) f.rules
  keyframes := s.keyframes.update f.keyframes
  rootVariables := s.rootVariables.update f.rootVariables
  universalVariables := s.universalVariables.update f.universalVariables
  flags := s.flags.update f.flags
  order := s.order + f.order - 1
  rem := f.rem.orElse fun _ => s.rem

/-- What holds of all that is extracted from a fresh state. -/
structure Tidy (f : State) : Prop where
  rules : f.rules.Distinct
  keyframes : f.keyframes.Distinct
  rootVariables : f.rootVariables.Tidy
  universalVariables : f.universalVariables.Tidy
  flags : f.flags.Distinct
  order : 1 ≤ f.order

theorem tidy_fresh (dark : DarkMode) : Tidy { darkMode := dark } := by
  have hnone : Variables.Tidy [] := ⟨List.nodup_nil, nofun⟩
  exact ⟨List.nodup_nil, List.nodup_nil, hnone, hnone, List.nodup_nil, Int.le_refl 1⟩

/-- A state is another one with a fresh extraction behind it. -/
structure Extends (s f t : State) : Prop where
  tidy : f.Tidy
  eq : t = s.merge f

end State

section Steps

variable {s f t : State}

theorem State.Extends.darkMode (h : s.Extends f t) : t.darkMode = f.darkMode := by
  rw [h.eq]
  rfl

theorem State.Extends.addRule (h : s.Extends f t) (key : String) (r : StyleRule) :
    s.Extends (f.addRule key r) (t.addRule key (r.shift (s.order - 1).toNat)) where
  tidy := { h.tidy with rules := h.tidy.rules.alter _ _ }
  eq := by
    simp only [State.addRule, State.merge, h.eq, Table.concat_push _ h.tidy.rules]

theorem State.Extends.addVariables (h : s.Extends f t) (scope : Scope) (subtype : String)
    (r : StyleRule) :
    s.Extends (f.addVariables scope subtype r) (t.addVariables scope subtype r) := by
  have hrem : (r.fontSize?.orElse fun _ => f.rem.orElse fun _ => s.rem) =
      (r.fontSize?.orElse fun _ => f.rem).orElse fun _ => s.rem := by
    cases r.fontSize? <;> rfl
  cases scope with
  | root =>
    obtain ⟨htidy, heq⟩ := Variables.update_addAll h.tidy.rootVariables subtype
      (r.customProperties.getD []) s.rootVariables
    refine ⟨{ h.tidy with rootVariables := htidy }, ?_⟩
    simp only [State.addVariables, State.merge, h.eq, heq, hrem]
  | universal =>
    obtain ⟨htidy, heq⟩ := Variables.update_addAll h.tidy.universalVariables subtype
      (r.customProperties.getD []) s.universalVariables
    refine ⟨{ h.tidy with universalVariables := htidy }, ?_⟩
    simp only [State.addVariables, State.merge, h.eq, heq, hrem]

/-- What a selector files for a rule further on is further on itself. -/
theorem ClassSelector.entries_shift (c : ClassSelector) (n : Nat) (r : StyleRule) :
    c.entries (r.shift n) = (c.entries r).map fun e => (e.1, e.2.shift n) := by
  have hrank : (r.shift n).specificity + c.specificity =
      { r.specificity + c.specificity with
        order := (r.specificity + c.specificity).order + n } := by
    show Specificity.mk _ _ _ _ _ = Specificity.mk _ _ _ _ _
    rw [Specificity.mk.injEq]
    exact ⟨rfl, rfl, rfl, rfl, Nat.add_right_comm _ _ _⟩
  have hmark (group : String) : c.mark (r.shift n) group = (c.mark r group).shift n := by
    simp only [mark, hrank]
    rfl
  have hqualify : c.qualify (r.shift n) = (c.qualify r).shift n := by
    simp only [qualify, hrank]
    rfl
  unfold entries
  cases c.group? with
  | none => simp [hqualify]
  | some group => simp [hqualify, hmark]

theorem State.Extends.fileVariant (h : s.Extends f t) (r : StyleRule) (v : Variant) :
    s.Extends (State.fileVariant r f v)
      (State.fileVariant (r.shift (s.order - 1).toNat) t v) := by
  cases v with
  | className c =>
    simp only [State.fileVariant, ClassSelector.entries_shift, List.foldl_map]
    exact List.foldl_rel h fun e _ _ _ hrel => hrel.addRule e.1 e.2
  | customProperties scope subtype => exact h.addVariables scope subtype r

theorem State.Extends.fileSelector (h : s.Extends f t) (c : Settings) (r : StyleRule)
    (selector : String) :
    s.Extends (State.fileSelector c r f selector).state
      (State.fileSelector c (r.shift (s.order - 1).toNat) t selector).state := by
  rw [fileSelector_state, fileSelector_state, h.darkMode]
  exact List.foldl_rel h fun v _ _ _ hrel => hrel.fileVariant r v

theorem State.Extends.fileAll (h : s.Extends f t) (c : Settings) (selectors : List String)
    (rs : List StyleRule) :
    s.Extends (f.fileAll c selectors rs)
      (t.fileAll c selectors (rs.map (StyleRule.shift (s.order - 1).toNat))) := by
  unfold State.fileAll
  rw [List.foldl_map]
  refine List.foldl_rel h ?_
  intro r _ f t hrel
  rw [file_state, file_state]
  exact List.foldl_rel hrel fun selector _ _ _ hrel => hrel.fileSelector c r selector

/-- The rules of a block further on are its rules, further on: nothing but the order of a rule
depends on the order number. -/
theorem SheetBlock.rules_shift (c : Settings) (order n : Nat) (p : SheetBlock) :
    p.rules c (order + n) = (p.rules c order).map (StyleRule.shift n) := by
  have hrule (important : Bool) : p.rule? c (order + n) important =
      (p.rule? c order important).map (StyleRule.shift n) := by
    unfold rule? built
    split
    · rfl
    · rw [buildRule_eq, buildRule_eq _ _ (specificity order important)]
      rfl
  unfold rules
  rw [hrule, hrule, List.map_append, Option.toList_map, Option.toList_map]

theorem State.Extends.order (h : s.Extends f t) (hs : 1 ≤ s.order) :
    0 ≤ f.order ∧ 0 ≤ t.order ∧ t.order.toNat = f.order.toNat + (s.order - 1).toNat := by
  have hf := h.tidy.order
  have ht : t.order = s.order + f.order - 1 := by
    rw [h.eq]
    rfl
  omega

theorem State.Extends.addBlock (h : s.Extends f t) (hs : 1 ≤ s.order) (c : Settings)
    (ctx : Context) (b : StyleBlock) :
    (f.addBlock c ctx b).failure = (t.addBlock c ctx b).failure ∧
      s.Extends (f.addBlock c ctx b).state (t.addBlock c ctx b).state := by
  by_cases hb : b.hasDeclarations = true
  · obtain ⟨hf, ht, horder⟩ := h.order hs
    obtain ⟨hfok, hfstate⟩ := addBlock_eq c ctx hf hb
    obtain ⟨htok, htstate⟩ := addBlock_eq c ctx ht hb
    refine ⟨hfok.trans htok.symm, ?_⟩
    have hfiled := h.fileAll c b.selectors (SheetBlock.rules c f.order.toNat ⟨b, ctx, f.darkMode⟩)
    rw [← SheetBlock.rules_shift, ← horder, ← h.darkMode] at hfiled
    rw [hfstate, htstate, ← h.darkMode]
    refine ⟨{ hfiled.tidy with order := ?_ }, ?_⟩
    · have := h.tidy.order
      show 1 ≤ f.order + 1
      omega
    · have horder : t.order + 1 = s.order + (f.order + 1) - 1 := by
        rw [h.eq]
        show s.order + f.order - 1 + 1 = _
        omega
      rw [hfiled.eq, horder]
      rfl
  · rw [State.addBlock, State.addBlock, if_neg hb, if_neg hb]
    exact ⟨rfl, h⟩

theorem State.Extends.addKeyframes (h : s.Extends f t) (hs : 1 ≤ s.order) (c : Settings)
    (k : Keyframes) :
    (f.addKeyframes c k).failure = (t.addKeyframes c k).failure ∧
      s.Extends (f.addKeyframes c k).state (t.addKeyframes c k).state := by
  obtain ⟨hf, ht, _⟩ := h.order hs
  unfold State.addKeyframes Outcome.ofNoted
  rw [Animation.ofKeyframes_order _ _ ht hf]
  cases (Animation.ofKeyframes (c.buildContext []) c.read f.order k).result with
  | error e => exact ⟨rfl, h⟩
  | ok a =>
    refine ⟨rfl, { h.tidy with keyframes := h.tidy.keyframes.alter _ _ }, ?_⟩
    simp only [State.merge, h.eq, Table.update_put h.tidy.keyframes]

theorem State.Extends.setDark (h : s.Extends f t) (dark : DarkMode) :
    s.Extends { f with darkMode := dark } { t with darkMode := dark } where
  tidy := { h.tidy with }
  eq := by rw [h.eq]; rfl

theorem State.Extends.putFlag (h : s.Extends f t) (name : String) (flag : Flag) :
    s.Extends { f with flags := f.flags.put name flag }
      { t with flags := t.flags.put name flag } where
  tidy := { h.tidy with flags := h.tidy.flags.alter _ _ }
  eq := by simp only [State.merge, h.eq, Table.update_put h.tidy.flags]

theorem State.Extends.addDirective (h : s.Extends f t) (d : Directive) :
    s.Extends (f.addDirective d).state (t.addDirective d).state := by
  unfold State.addDirective State.setOption State.setDarkMode
  split
  · split
    · split
      · split
        · exact (h.setDark _).putFlag _ _
        · exact h
      · exact h.putFlag _ _
    · exact h
  · exact h

/-- One leaf does the same in both states. -/
theorem State.Extends.perform (h : s.Extends f t) (hs : 1 ≤ s.order) (c : Settings) (l : Leaf) :
    (l.perform c f).failure = (l.perform c t).failure ∧
      s.Extends (l.perform c f).state (l.perform c t).state := by
  obtain ⟨wrappers, rule⟩ := l
  cases rule with
  | style b => exact h.addBlock hs c _ b
  | keyframes k => exact h.addKeyframes hs c k
  | directive d =>
    exact ⟨(addDirective_failure f d).trans (addDirective_failure t d).symm, h.addDirective d⟩
  | unknown kind => exact ⟨rfl, h⟩

end Steps

/-- Every state extends itself by nothing. -/
theorem State.extends_fresh (s : State) : s.Extends { darkMode := s.darkMode } s where
  tidy := tidy_fresh s.darkMode
  eq := by
    have horder : s.order + 1 - 1 = s.order := by omega
    simp only [State.merge, horder]
    rfl

/-- The walk leaf by leaf, from a state and from a fresh one. -/
theorem extractAll_extends (c : Settings) {s : State} (hs : 1 ≤ s.order) (rules : List Rule) :
    let f := State.extractAll c {} { darkMode := s.darkMode } rules
    let o := s.extractAll c {} rules
    f.failure = o.failure ∧ s.Extends f.state o.state := by
  intro f o
  obtain ⟨hf, hfailure⟩ :=
    Outcome.silent_eq_iff.mp (extractAll_leaves c { darkMode := s.darkMode } rules)
  obtain ⟨ho, hofailure⟩ := Outcome.silent_eq_iff.mp (extractAll_leaves c s rules)
  rw [hf, hfailure, ho, hofailure]
  exact Outcome.each_simulation (R := s.Extends) (fun _ _ l hrel => hrel.perform hs c l)
    s.extends_fresh (Sheet.reached rules)

/-- To extract rules into a state is to extract them into a fresh one and to put the result behind
the state: the rules under each key come behind those that are there, counted on from the order
number of the state, keys that are there stay where they are, and all else is updated. A failure is
the same. -/
theorem extractAll_shift (c : Settings) (s : State) (hs : 1 ≤ s.order) (ys : List Rule) :
    let f := State.extractAll c {} { darkMode := s.darkMode } ys
    let o := s.extractAll c {} ys
    o.failure = f.failure ∧
    (∀ key, o.state.rules.under key =
      s.rules.under key ++
        (f.state.rules.under key).map (StyleRule.shift (s.order - 1).toNat)) ∧
    o.state.rules.keys = s.rules.keys ++ f.state.rules.keys.filter (· ∉ s.rules.keys) ∧
    o.state.order = s.order + f.state.order - 1 ∧
    o.state.keyframes = s.keyframes.update f.state.keyframes ∧
    o.state.flags = s.flags.update f.state.flags ∧
    o.state.rootVariables = s.rootVariables.update f.state.rootVariables ∧
    o.state.universalVariables = s.universalVariables.update f.state.universalVariables ∧
    o.state.rem = f.state.rem.orElse (fun _ => s.rem) ∧
    o.state.darkMode = f.state.darkMode := by
  intro f o
  obtain ⟨hfailure, htidy, heq⟩ := extractAll_extends c hs ys
  refine ⟨hfailure.symm, ?_⟩
  rw [heq]
  exact ⟨fun key => Table.under_concat _ htidy.rules key s.rules,
    Table.keys_concat _ htidy.rules s.rules, rfl, rfl, rfl, rfl, rfl, rfl, rfl⟩

/-- After two blocks, a block for a class that is there and one for a new class take the third and
the fourth order number, behind the rule that is there. -/
theorem extractAll_shift_third :
    let c : Settings :=
      { isGroup := fun _ => false, ignores := fun _ => false, classifier := .standard,
        read := Declaration.read }
    let block (selector : String) : Rule :=
      .style { selectors := [selector], declarations := [{ property := "color", value := "red" }] }
    let s : State :=
      { rules := [("a", [{ specificity := { className := 1, order := 2 } }])], order := 3 }
    let o := s.extractAll c {} [block ".b", block ".a"]
    1 ≤ s.order ∧ o.failure = none ∧ o.state.order = 5 ∧ o.state.rules.keys = ["a", "b"] ∧
    (o.state.rules.under "a").map (·.specificity.order) = [2, 4] := by
  intro c block s o
  have hs : 1 ≤ s.order := by decide
  obtain ⟨hfailure, hunder, hkeys, horder, _⟩ := extractAll_shift c s hs [block ".b", block ".a"]
  refine ⟨hs, hfailure.trans ?_, horder.trans ?_, hkeys.trans ?_, ?_⟩
  · decide +kernel
  · decide +kernel
  · decide +kernel
  · rw [hunder "a"]
    decide +kernel

end StyleBundle
