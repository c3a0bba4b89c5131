import StyleBundle.Proofs.Context
import StyleBundle.Proofs.Dispatch
import StyleBundle.Proofs.Parts

/-!
# StyleBundle.Proofs.Variables

The custom properties and the font size that blocks for the root and for all elements give.

* `Declared.winner?`: the value that wins in the cascade, an important one before all others and
  then the last.
* `Declaration.read_customProperties`, `Declaration.read_fontSizes`: what a declaration gives.
* `addBlock_scoped`, `extractAll_scoped`: what a block, and a sheet of blocks, leaves in the state.
* `ofRules_variables`: a custom property has the value that wins, unless a block that has it only as
  normal is the last to have it and another has it as important. The font size is that of the last
  block that gives one.
-/

namespace StyleBundle

/-! ## The cascade -/

/-- A value that is declared, as important or not. -/
structure Declared (α : Type) where
  important : Bool
  value : α

namespace Declared

variable {α : Type}

/-- The value that wins among some that are declared one after the other. -/
def winner? (ds : List (Declared α)) : Option α :=
  ((ds.filter (·.important)).getLast?.or (ds.filter (!·.important)).getLast?).map (·.value)

/-- If any value is important, so is the last. -/
def Settled (ds : List (Declared α)) : Prop :=
  ds.any (·.important) = true → ds.getLast?.any (·.important) = true

instance (ds : List (Declared α)) : Decidable (Settled ds) := inferInstanceAs (Decidable (_ → _))

theorem Settled.winner? {ds : List (Declared α)} (h : Settled ds) :
    winner? ds = (ds.map (·.value)).getLast? := by
  rw [Declared.winner?, List.getLast?_map]
  by_cases himportant : ds.any (·.important) = true
  · have hany := h himportant
    cases hlast : ds.getLast? with
    | none => simp [hlast] at hany
    | some d =>
      have hd : d.important = true := by simpa [hlast] using hany
      obtain ⟨init, rfl⟩ := List.getLast?_eq_some_iff.mp hlast
      simp [hd]
  · have hnormal : ∀ d ∈ ds, d.important = false := by simpa using himportant
    have hnone : ds.filter (·.important) = [] := by
      simpa [List.filter_eq_nil_iff] using hnormal
    have hall : ds.filter (!·.important) = ds := by
      simpa [List.filter_eq_self] using hnormal
    rw [hnone, hall]
    rfl

end Declared

/-- The values that a block declares, given what a declaration says. -/
def StyleBlock.declared {α : Type} (f : Declaration → Option α) (b : StyleBlock) :
    List (Declared α) :=
  (b.declarations.filterMap f).map (⟨false, ·⟩) ++ (b.important.filterMap f).map (⟨true, ·⟩)

section Declared

variable {α : Type} (f : Declaration → Option α)

/-- In a block the important values come last. -/
theorem StyleBlock.settled_declared (b : StyleBlock) : Declared.Settled (b.declared f) := by
  intro himportant
  cases hlast : (b.important.filterMap f).getLast? with
  | none =>
    obtain ⟨d, hd, hd'⟩ := List.any_eq_true.mp himportant
    rw [declared, List.getLast?_eq_none_iff.mp hlast, List.map_nil, List.append_nil] at hd
    obtain ⟨v, -, rfl⟩ := List.mem_map.mp hd
    cases hd'
  | some v => simp [declared, List.getLast?_append, hlast]

theorem StyleBlock.map_value_declared (b : StyleBlock) :
    (b.declared f).map (·.value) = (b.declarations ++ b.important).filterMap f := by
  simp [declared, Function.comp_def]

/-- The last value of some blocks is the one that wins in the last block that has any. -/
theorem getLast?_declared (blocks : List StyleBlock) :
    (blocks.flatMap fun b => (b.declarations ++ b.important).filterMap f).getLast? =
      (blocks.filterMap fun b => Declared.winner? (b.declared f)).getLast? := by
  rw [List.getLast?_flatMap, List.getLast?_filterMap]
  congr 1
  funext b
  rw [(b.settled_declared f).winner?, b.map_value_declared]

end Declared

/-! ## What a declaration gives -/

namespace Declaration

/-- The custom property that a declaration gives a value. -/
def customProperty? (d : Declaration) : Option (String × Value) :=
  if Name.isCustom d.property then some (d.property, customValue d.value (Token.ofText d.value))
  else none

/-- The value that a declaration gives a custom property. -/
def valueOf? (name : String) (d : Declaration) : Option Value :=
  if d.property = name then d.customProperty?.map (·.2) else none

/-- The number that a declaration gives the font size. -/
def fontSize? (d : Declaration) : Option Number :=
  if Name.native d.property = "fontSize" then (Value.ofTokens (Token.ofText d.value)).size?
  else none

theorem partNames_plain :
    ∀ n ∈ partNames, Name.isCustom n = false ∧ Name.native n ≠ "fontSize" := by
  decide +kernel

theorem customValue_ne_null (source : String) (ts : List Token) :
    customValue source ts ≠ .null := by
  unfold customValue
  split
  · nofun
  · assumption

theorem name_of_mem_ofShorthand {pathOf : String → Option (List String)} {name : String}
    {parts : List (String × Value)} {a : Addition}
    (h : a ∈ Addition.ofShorthand pathOf name parts) :
    a.name = name ∨ a.name ∈ parts.map (·.1) := by
  unfold Addition.ofShorthand at h
  split at h
  · cases h
  · split at h
    · rw [List.mem_singleton.mp h]
      exact .inl rfl
    · obtain ⟨e, he, rfl⟩ := List.mem_map.mp h
      exact .inr (List.mem_map_of_mem he)

/-- What an instruction adds goes by the name of its property or of a part. -/
theorem name_of_mem_additions {i : Instruction} {property : String}
    (h : i.subject? = some property) {a : Addition} (ha : a ∈ i.additions) :
    a.name = property ∨ a.name ∈ i.parts := by
  cases i with
  | style name value path =>
    cases h
    rw [List.mem_singleton.mp ha]
    exact .inl rfl
  | transform name value =>
    cases h
    rw [List.mem_singleton.mp ha]
    exact .inl rfl
  | transformShorthand name parts =>
    cases h
    exact name_of_mem_ofShorthand ha
  | styleShorthand name parts =>
    obtain rfl : name = property := Option.some.inj h
    have ha : a ∈ Addition.ofShorthand (fun _ => none) name parts := ha
    exact name_of_mem_ofShorthand ha
  | _ => cases ha

theorem read_additions {d : Declaration} {i : Instruction} (hi : i ∈ d.read) {a : Addition}
    (ha : a ∈ i.additions) : a.name = d.property ∨ a.name ∈ partNames := by
  obtain ⟨axes, ⟨j, hread, hsubject, hparts⟩, -⟩ := d.read_reports
  rw [hread, List.mem_append, List.mem_map, List.mem_singleton] at hi
  rcases hi with ⟨axis, -, rfl⟩ | rfl
  · cases ha
  · exact (name_of_mem_additions hsubject ha).imp_right fun h => hparts h

theorem read_customProperties (d : Declaration) :
    d.read.flatMap (·.customProperties) = d.customProperty?.toList := by
  unfold customProperty?
  by_cases hcustom : Name.isCustom d.property = true
  · have hadded : Addition.customProperty?
        ⟨d.property, customValue d.value (Token.ofText d.value), none⟩ =
          some (d.property, customValue d.value (Token.ofText d.value)) := by
      simp [Addition.customProperty?, hcustom, customValue_ne_null]
    simp [read, hcustom, Instruction.customProperties, Instruction.additions, hadded]
  · rw [if_neg hcustom]
    apply List.flatMap_eq_nil_iff.mpr
    intro i hi
    apply List.filterMap_eq_nil_iff.mpr
    intro a ha
    apply Addition.customProperty?_of_plain
    rcases read_additions hi ha with hname | hname
    · rw [hname]
      simpa using hcustom
    · exact (partNames_plain _ hname).1

/-- The font size has no form of its own. -/
theorem known_fontSize {property : String} (h : Name.native property = "fontSize")
    (ts : List Token) : known property ts = [.style property (.ofTokens ts) none] := by
  unfold known
  simp only
  split
  case h_24 =>
    split
    · rename_i hsides
      unfold sides? at hsides
      split at hsides
      case h_5 => cases hsides
      all_goals exact absurd h (by decide +kernel)
    · rfl
  all_goals exact absurd h (by decide +kernel)

theorem fontSize?_declaration? {a : Addition} (h : Name.native a.name ≠ "fontSize")
    {table : Relocations} {d : StyleDeclaration} (hd : a.declaration? table = some d) :
    d.fontSize? = none := by
  unfold Addition.declaration? at hd
  split at hd
  · cases hd
  · split at hd
    · cases hd
    · cases hd
      unfold StyleDeclaration.fontSize? StyleRule.declaration
      split
      · rename_i htarget
        exfalso
        simp only at htarget
        split at htarget
        · cases htarget
        · exact h (Target.bare.inj htarget)
      · rfl

theorem fontSize?_style {property : String} (hname : Name.native property = "fontSize")
    (hcustom : Name.isCustom property = false) (value : Value) :
    ((Instruction.style property value none).declarations []).filterMap
      StyleDeclaration.fontSize? = value.size?.toList := by
  by_cases hnull : value = .null
  · subst hnull
    rfl
  · have hadded : Addition.declaration? [] ⟨property, value, none⟩ =
        some { value, target := .bare "fontSize", deferred := value.isDeferred } := by
      simp [Addition.declaration?, hcustom, StyleRule.declaration, hname, Relocations.resolve]
    simp only [Instruction.declarations, Instruction.additions, List.filterMap_cons, hadded,
      StyleDeclaration.fontSize?, if_true, List.filterMap_nil]
    cases value.size? with
    | none => rfl
    | some n => rfl

theorem read_fontSizes (d : Declaration) :
    (d.read.flatMap (·.declarations [])).filterMap StyleDeclaration.fontSize? =
      d.fontSize?.toList := by
  unfold fontSize?
  by_cases hname : Name.native d.property = "fontSize"
  · have hcustom : Name.isCustom d.property = false := by
      rw [← Bool.not_eq_true]
      intro hcustom
      rw [Name.native, if_pos hcustom] at hname
      rw [hname] at hcustom
      revert hcustom
      decide
    have hsupported : unsupported.contains d.property = false := by
      rw [← Bool.not_eq_true, List.contains_iff_mem]
      intro hmem
      have hnative : ∀ p ∈ unsupported, Name.native p ≠ "fontSize" := by decide +kernel
      exact hnative _ hmem hname
    rw [if_pos hname, read]
    simp only [hcustom, hsupported, Bool.false_eq_true, if_false, known_fontSize hname]
    rw [List.flatMap_singleton]
    exact fontSize?_style hname hcustom _
  · rw [if_neg hname]
    apply List.filterMap_eq_nil_iff.mpr
    intro e he
    obtain ⟨i, hi, he⟩ := List.mem_flatMap.mp he
    obtain ⟨a, ha, hdeclaration⟩ := List.mem_filterMap.mp he
    refine fontSize?_declaration? ?_ hdeclaration
    rcases read_additions hi ha with h | h
    · rw [h]
      exact hname
    · exact (partNames_plain _ h).2

end Declaration

/-! ## Blocks for the root and for all elements -/

/-- The selector of a scope. -/
def Scope.selector : Scope → String
  | .root => ":root"
  | .universal => "*"

theorem Scope.selector_inj {scope scope' : Scope} :
    [scope.selector] = [scope'.selector] ↔ scope = scope' := by
  cases scope <;> cases scope' <;> decide

/-- Without an ancestor and without media queries a scope is never that of the dark theme. -/
theorem classify_scope (isGroup : String → Bool) (dark : DarkMode) (scope : Scope) :
    Selector.classify isGroup dark [] scope.selector =
      some (.customProperties scope "default") := by
  have hcompound : Compound.listOfTokens? (Token.ofText scope.selector) =
      some [{ root := scope = .root, universal := scope = .universal }] := by
    cases scope <;> decide +kernel
  have hmarker : Selector.isDarkMarker dark
      { root := scope = .root, universal := scope = .universal } = false := by
    unfold Selector.isDarkMarker
    split <;> simp
  unfold Selector.classify
  rw [hcompound]
  cases scope <;> simp_all [Selector.ofCompounds?, Selector.scope?, Selector.isDark]

def State.variables (s : State) : Scope → Variables
  | .root => s.rootVariables
  | .universal => s.universalVariables

def Bundle.variables (b : Bundle) : Scope → Variables
  | .root => b.rootVariables
  | .universal => b.universalVariables

theorem Variables.addAll_append (v : Variables) (subtype : String)
    (es es' : List (String × Value)) :
    v.addAll subtype (es ++ es') = (v.addAll subtype es).addAll subtype es' := List.foldl_append

/-- The themes of a custom property after values are put into one of them, one after the other. -/
theorem foldl_put (subtype : String) (entries : List (String × Value)) (old : Option Value) :
    entries.foldl (fun themes e => some (Table.put subtype e.2 (themes.getD [])))
        (old.map fun v => [(subtype, v)]) =
      ((entries.map (·.2)).getLast?.or old).map fun v => [(subtype, v)] := by
  induction entries generalizing old with
  | nil => rfl
  | cons e rest ih =>
    have hput : Table.put subtype e.2 ((old.map fun v => [(subtype, v)]).getD []) =
        [(subtype, e.2)] := by
      cases old <;> simp [Table.put, Table.alter]
    have hnext := ih (some e.2)
    rw [Option.map_some] at hnext
    rw [List.foldl_cons, hput, hnext, List.map_cons, List.getLast?_cons]
    cases (rest.map (·.2)).getLast? <;> rfl

/-- A custom property has the value that was put in last. -/
theorem Variables.get?_addAll (subtype : String) (entries : List (String × Value)) (name : String) :
    Table.get? name (Variables.addAll [] subtype entries) =
      ((entries.filter (·.1 = name)).map (·.2)).getLast?.map fun v => [(subtype, v)] := by
  have hmerge : Variables.addAll [] subtype entries =
      Table.merge (fun themes v => Table.put subtype v (themes.getD [])) [] entries := rfl
  rw [hmerge, Table.get?_merge_filter]
  have hfold := foldl_put subtype (entries.filter (·.1 = name)) none
  rw [Option.or_none] at hfold
  exact hfold

/-- What is left by a block that gives some custom properties and font sizes to a scope. -/
structure Scoped (scope : Scope) (entries : List (String × Value)) (sizes : List Number)
    (s s' : State) : Prop where
  inside : s'.variables scope = (s.variables scope).addAll "default" entries
  outside : ∀ other, other ≠ scope → s'.variables other = s.variables other
  rem : s'.rem = sizes.getLast?.or s.rem

theorem Scoped.refl (scope : Scope) (s : State) : Scoped scope [] [] s s :=
  ⟨rfl, fun _ _ => rfl, rfl⟩

theorem Scoped.trans {scope : Scope} {es es' : List (String × Value)} {ns ns' : List Number}
    {s s' s'' : State} (h : Scoped scope es ns s s') (h' : Scoped scope es' ns' s' s'') :
    Scoped scope (es ++ es') (ns ++ ns') s s'' where
  inside := by rw [h'.inside, h.inside, Variables.addAll_append]
  outside other hother := (h'.outside other hother).trans (h.outside other hother)
  rem := by rw [h'.rem, h.rem, List.getLast?_append, Option.or_assoc]

theorem addVariables_scoped (s : State) (scope : Scope) (r : StyleRule) :
    Scoped scope (r.customProperties.getD [])
      (r.declarations.filterMap StyleDeclaration.fontSize?) s
      (s.addVariables scope "default" r) := by
  have hrem : ∀ n : Option Number, (n.orElse fun _ => s.rem) = n.or s.rem := by
    intro n
    cases n <;> rfl
  cases scope with
  | root =>
    refine ⟨rfl, ?_, hrem _⟩
    intro other hother
    cases other with
    | root => exact absurd rfl hother
    | universal => rfl
  | universal =>
    refine ⟨rfl, ?_, hrem _⟩
    intro other hother
    cases other with
    | root => rfl
    | universal => exact absurd rfl hother

theorem buildRule_customProperties (ctx : BuildContext) (ds : List Declaration) :
    (buildRule ctx Declaration.read {} ds).rule.customProperties.getD [] =
      ds.filterMap Declaration.customProperty? := by
  rw [buildRule, Draft.run_customProperties, getD_extended, List.flatMap_assoc,
    List.filterMap_eq_flatMap_toList]
  simp only [Declaration.read_customProperties]
  rfl

theorem buildRule_fontSizes {ctx : BuildContext} (hctx : ctx.relocations = [])
    (ds : List Declaration) :
    (buildRule ctx Declaration.read {} ds).rule.declarations.filterMap StyleDeclaration.fontSize? =
      ds.filterMap Declaration.fontSize? := by
  rw [buildRule, Draft.run_declarations, hctx, List.nil_append, List.flatMap_assoc,
    List.filterMap_flatMap, List.filterMap_eq_flatMap_toList]
  simp only [Declaration.read_fontSizes]

section Block

variable {c : Settings} {scope : Scope}

/-- What the rule of a block says, if there is one, in terms of its declarations. -/
theorem SheetBlock.flatMap_rule? {α : Type} {g : StyleRule → List α} {f : Declaration → Option α}
    {p : SheetBlock} (hbody : ∀ r : StyleRule, g r.body = g r)
    (hg : ∀ ds, g (buildRule (c.buildContext (.ofDirectives p.block.directives)) c.read {}
      ds).rule = ds.filterMap f) (order : Nat) (important : Bool) :
    (p.rule? c order important).toList.flatMap g =
      (p.block.declarationsOf important).filterMap f := by
  cases hr : p.rule? c order important with
  | none =>
    rw [rule?_eq_none_iff.mp hr]
    rfl
  | some r =>
    rw [Option.toList_some, List.flatMap_singleton, ← hbody, (rule?_eq hr).2.2.2, hbody, hg]

theorem fileAll_scoped (hclassifier : c.classifier = .standard) {rs : List StyleRule}
    (hmedia : ∀ r ∈ rs, r.media.getD [] = []) (s : State) :
    Scoped scope (rs.flatMap fun r => r.customProperties.getD [])
      (rs.flatMap fun r => r.declarations.filterMap StyleDeclaration.fontSize?) s
      (s.fileAll c [scope.selector] rs) := by
  induction rs generalizing s with
  | nil => exact .refl scope s
  | cons r rest ih =>
    obtain ⟨hr, hrest⟩ := List.forall_mem_cons.mp hmedia
    have hfile : (State.file c [scope.selector] s r).state = s.addVariables scope "default" r := by
      rw [file_state, List.foldl_cons, List.foldl_nil, fileSelector_state, hr, Settings.classify,
        hclassifier, Classifier.standard, classify_scope]
      rfl
    have hone : Scoped scope _ _ s (State.file c [scope.selector] s r).state :=
      hfile ▸ addVariables_scoped s scope r
    exact hone.trans (ih hrest _)

theorem SheetBlock.flatMap_rules {α : Type} {g : StyleRule → List α} {f : Declaration → Option α}
    {p : SheetBlock} (hbody : ∀ r : StyleRule, g r.body = g r)
    (hg : ∀ ds, g (buildRule (c.buildContext (.ofDirectives p.block.directives)) c.read {}
      ds).rule = ds.filterMap f) (order : Nat) :
    (p.rules c order).flatMap g = (p.block.declarations ++ p.block.important).filterMap f := by
  rw [rules, List.flatMap_append, flatMap_rule? hbody hg, flatMap_rule? hbody hg,
    List.filterMap_append]
  rfl

theorem SheetBlock.media_of_mem_rules {p : SheetBlock} {order : Nat} {r : StyleRule}
    (h : r ∈ p.rules c order) : r.media = nonempty p.context.media := by
  rcases List.mem_append.mp h with h | h
  · exact (rule?_eq (Option.mem_toList.mp h)).2.1
  · exact (rule?_eq (Option.mem_toList.mp h)).2.1

theorem addBlock_scoped (hclassifier : c.classifier = .standard) (hread : c.read = Declaration.read)
    {s : State} (hs : 0 ≤ s.order) {b : StyleBlock} (hselectors : b.selectors = [scope.selector])
    (hdirectives : b.directives = []) :
    Scoped scope ((b.declarations ++ b.important).filterMap Declaration.customProperty?)
      ((b.declarations ++ b.important).filterMap Declaration.fontSize?) s
      (s.addBlock c {} b).state := by
  by_cases hb : b.hasDeclarations = true
  · let p : SheetBlock := ⟨b, {}, s.darkMode⟩
    have hmedia : ∀ r ∈ p.rules c s.order.toNat, r.media.getD [] = [] := by
      intro r hr
      rw [SheetBlock.media_of_mem_rules hr]
      rfl
    have hentries : ((p.rules c s.order.toNat).flatMap fun r => r.customProperties.getD []) =
        (b.declarations ++ b.important).filterMap Declaration.customProperty? := by
      refine SheetBlock.flatMap_rules (fun _ => rfl) ?_ _
      intro ds
      rw [hread]
      exact buildRule_customProperties _ ds
    -- without directives no declaration is moved away
    have hsizes : ((p.rules c s.order.toNat).flatMap fun r =>
        r.declarations.filterMap StyleDeclaration.fontSize?) =
          (b.declarations ++ b.important).filterMap Declaration.fontSize? := by
      refine SheetBlock.flatMap_rules (fun _ => rfl) ?_ _
      intro ds
      rw [hread, hdirectives]
      exact buildRule_fontSizes rfl ds
    have hfiled : Scoped scope _ _ s _ := fileAll_scoped hclassifier hmedia s
    rw [hentries, hsizes] at hfiled
    rw [(addBlock_eq c {} hs hb).2, hselectors]
    refine ⟨?_, ?_, hfiled.rem⟩
    · cases scope <;> exact hfiled.inside
    · intro other hother
      cases other <;> exact hfiled.outside _ hother
  · have hempty : b.declarations = [] ∧ b.important = [] := by
      simpa [StyleBlock.hasDeclarations] using hb
    rw [hempty.1, hempty.2, State.addBlock, if_neg hb]
    exact .refl scope s

end Block

/-- A block with declarations for one of the two scopes, and nothing else. -/
def StyleBlock.IsScoped (b : StyleBlock) : Prop :=
  b.directives = [] ∧ ∃ scope : Scope, b.selectors = [scope.selector]

/-- The blocks for a scope. -/
def Sheet.blocksOf (scope : Scope) (blocks : List StyleBlock) : List StyleBlock :=
  blocks.filter (·.selectors = [scope.selector])

theorem extractAll_scoped {c : Settings} (hclassifier : c.classifier = .standard)
    (hread : c.read = Declaration.read) {blocks : List StyleBlock}
    (hblocks : ∀ b ∈ blocks, b.IsScoped) {s : State} (hs : 0 ≤ s.order) :
    (s.extractAll c {} (blocks.map .style)).failure = none ∧
    (∀ scope, (s.extractAll c {} (blocks.map .style)).state.variables scope =
      (s.variables scope).addAll "default" ((Sheet.blocksOf scope blocks).flatMap fun b =>
        (b.declarations ++ b.important).filterMap Declaration.customProperty?)) ∧
    (s.extractAll c {} (blocks.map .style)).state.rem =
      (blocks.flatMap fun b =>
        (b.declarations ++ b.important).filterMap Declaration.fontSize?).getLast?.or s.rem := by
  induction blocks generalizing s with
  | nil => exact ⟨rfl, fun _ => rfl, rfl⟩
  | cons b rest ih =>
    obtain ⟨⟨hdirectives, scope, hselectors⟩, hrest⟩ := List.forall_mem_cons.mp hblocks
    have hfailure := addBlock_failure c {} hs b
    have horder : 0 ≤ (s.addBlock c {} b).state.order :=
      perform_nonneg c hs { wrappers := [], rule := .style b }
    have hblock := addBlock_scoped hclassifier hread hs hselectors hdirectives
    obtain ⟨ihfailure, ihvariables, ihrem⟩ := ih hrest horder
    rw [List.map_cons, State.extractAll, State.extract, Outcome.andThen_of_ok hfailure]
    refine ⟨ihfailure, ?_, ?_⟩
    · intro scope'
      refine (ihvariables scope').trans ?_
      by_cases hscope : scope' = scope
      · subst hscope
        rw [hblock.inside, ← Variables.addAll_append, Sheet.blocksOf, Sheet.blocksOf,
          List.filter_cons_of_pos (by simpa using hselectors), List.flatMap_cons]
      · have hother : ¬ b.selectors = [scope'.selector] := by
          rw [hselectors, Scope.selector_inj]
          exact Ne.symm hscope
        rw [hblock.outside _ hscope, Sheet.blocksOf, Sheet.blocksOf,
          List.filter_cons_of_neg (by simpa using hother)]
    · refine ihrem.trans ?_
      rw [hblock.rem, List.flatMap_cons, List.getLast?_append, Option.or_assoc]

theorem Declaration.filter_customProperties (name : String) (ds : List Declaration) :
    ((ds.filterMap customProperty?).filter (·.1 = name)).map (·.2) =
      ds.filterMap (valueOf? name) := by
  rw [List.filter_filterMap, List.map_filterMap]
  congr 1
  funext d
  unfold valueOf? customProperty?
  by_cases hname : d.property = name
  · by_cases hcustom : Name.isCustom d.property = true
    · simp [hname, hname ▸ hcustom]
    · simp [hcustom]
  · by_cases hcustom : Name.isCustom d.property = true
    · simp [hname, hcustom]
    · simp [hcustom]

/-- The values that some blocks declare for a custom property of a scope. -/
def Sheet.declared (scope : Scope) (name : String) (blocks : List StyleBlock) :
    List (Declared Value) :=
  (blocksOf scope blocks).flatMap (·.declared (Declaration.valueOf? name))

theorem Sheet.map_value_declared (scope : Scope) (name : String) (blocks : List StyleBlock) :
    (declared scope name blocks).map (·.value) =
      ((((blocksOf scope blocks).flatMap fun b =>
        (b.declarations ++ b.important).filterMap Declaration.customProperty?)).filter
          (·.1 = name)).map (·.2) := by
  rw [declared, List.map_flatMap, List.filter_flatMap, List.map_flatMap]
  simp only [StyleBlock.map_value_declared, Declaration.filter_customProperties]

/-- Blocks for the root and for all elements, with any declarations. A custom property has the value
that wins in the cascade, if none is important or the last block that has it has it as important.
The font size is the one that wins in the last block that gives any. -/
theorem ofRules_variables (o : Options) (hclassifier : o.classifier = .standard)
    (hread : o.read = Declaration.read) (c : Settings) (hc : o.settings = .ok c)
    (blocks : List StyleBlock) (hblocks : ∀ b ∈ blocks, b.IsScoped) :
    ∃ b, (Bundle.ofRules o (blocks.map .style)).result = .ok b ∧
      (∀ scope name, Declared.Settled (Sheet.declared scope name blocks) →
        (b.variables scope).get? name =
          (Declared.winner? (Sheet.declared scope name blocks)).map fun v => [("default", v)]) ∧
      b.rem = (blocks.filterMap fun block =>
        Declared.winner? (block.declared Declaration.fontSize?)).getLast? := by
  obtain ⟨hclassifier', hread'⟩ := Options.of_settings hc
  let s := Bundle.start o
  let b := Bundle.ofState (s.extractAll c {} (blocks.map .style)).state
  obtain ⟨hfailure, hvariables, hrem⟩ := extractAll_scoped (hclassifier'.trans hclassifier)
    (hread'.trans hread) hblocks (s := s) Int.one_nonneg
  refine ⟨b.arranged o.arrange, ?_, ?_, ?_⟩
  · rw [Bundle.ofRules_result, hc, Except.bind, Bundle.compile_of_ok hfailure]
    rfl
  · intro scope name hsettled
    have hscope : (b.arranged o.arrange).variables scope =
        Variables.addAll [] "default" ((Sheet.blocksOf scope blocks).flatMap
          fun b => (b.declarations ++ b.important).filterMap Declaration.customProperty?) := by
      cases scope
      · exact hvariables .root
      · exact hvariables .universal
    rw [hscope, Variables.get?_addAll, hsettled.winner?, Sheet.map_value_declared]
  · rw [← getLast?_declared]
    exact hrem.trans Option.or_none

/-- An important value of the root that normal ones stand around, in its own block and before it,
and font sizes in three blocks. -/
theorem ofRules_variables_three_blocks :
    let blocks : List StyleBlock :=
      [{ selectors := [":root"], declarations := [⟨"--a", "1"⟩, ⟨"font-size", "10px"⟩] },
       { selectors := [":root"], declarations := [⟨"--a", "2"⟩, ⟨"font-size", "11px"⟩],
         important := [⟨"--a", "3"⟩, ⟨"font-size", "12px"⟩] },
       { selectors := ["*"], declarations := [⟨"--a", "4"⟩, ⟨"font-size", "1rem"⟩] }]
    (∀ b ∈ blocks, b.IsScoped) ∧ Declared.Settled (Sheet.declared .root "--a" blocks) ∧
    (Declared.winner? (Sheet.declared .root "--a" blocks)).bind Value.size? = some (.int 3) ∧
    ∃ b, (Bundle.ofRules {} (blocks.map .style)).result = .ok b ∧
      (b.variables .root).get? "--a" =
        (Declared.winner? (Sheet.declared .root "--a" blocks)).map (fun v => [("default", v)]) ∧
      b.rem = some (.int 12) := by
  intro blocks
  have hblocks : ∀ b ∈ blocks, b.IsScoped := by
    simp only [blocks, List.forall_mem_cons]
    exact ⟨⟨rfl, .root, rfl⟩, ⟨rfl, .root, rfl⟩, ⟨rfl, .universal, rfl⟩, nofun⟩
  have hsettled : Declared.Settled (Sheet.declared .root "--a" blocks) := by decide +kernel
  have hwinner : (Declared.winner? (Sheet.declared .root "--a" blocks)).bind Value.size? =
      some (.int 3) := by decide +kernel
  have hsize : (blocks.filterMap fun block =>
      Declared.winner? (block.declared Declaration.fontSize?)).getLast? = some (.int 12) := by
    decide +kernel
  obtain ⟨b, hb, hvariables, hrem⟩ := ofRules_variables {} rfl rfl _ rfl blocks hblocks
  exact ⟨hblocks, hsettled, hwinner, b, hb, hvariables .root "--a" hsettled, hrem.trans hsize⟩

/-- A normal value in a later block replaces an important one, and so does a normal font
size. -/
theorem importance_lost_across_blocks :
    let blocks : List StyleBlock :=
      [{ selectors := [":root"], important := [⟨"--a", "1"⟩, ⟨"font-size", "10px"⟩] },
       { selectors := [":root"], declarations := [⟨"--a", "2"⟩, ⟨"font-size", "12px"⟩] }]
    let sizes := blocks.flatMap (·.declared Declaration.fontSize?)
    (Declared.winner? (Sheet.declared .root "--a" blocks)).bind Value.size? = some (.int 1) ∧
    Declared.winner? sizes = some (.int 10) ∧
    (Bundle.ofRules {} (blocks.map .style)).result.toOption.map (fun b =>
        (b.rootVariables.map fun e => (e.1, e.2.map fun t => (t.1, t.2.size?)), b.rem)) =
      some ([("--a", [("default", some (.int 2))])], some (.int 12)) := by
  decide +kernel

end StyleBundle
