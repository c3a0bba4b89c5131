import StyleBundle.Proofs.Build
import StyleBundle.Proofs.Naming

/-!
# StyleBundle.Proofs.Parts

A rule that is being built is a product of machines. It has seven parts, each with a machine of its
own (`Part.step`), and an instruction moves every machine without looking at the others
(`apply_content`). A machine stands still under instructions that do not concern its part
(`step_idle`), so what a part comes to depends on the instructions that concern it and on their
order, and on nothing else (`run_content`).

`Addition` says what the instructions for plain and custom properties have in common: each adds some
properties, and a shorthand adds either itself or its parts.
-/

namespace StyleBundle

/-- A property that an instruction adds, custom or plain, with the path that it is given. -/
structure Addition where
  name : String
  value : Value
  path : Option (List String)

namespace Addition

/-- The declaration that a plain property with a value adds. -/
def declaration? (table : Relocations) (a : Addition) : Option StyleDeclaration :=
  match a.value with
  | .null => none
  | _ =>
    if Name.isCustom a.name then none
    else some (StyleRule.declaration table a.name a.value a.path)

/-- What a custom property with a value adds. -/
def customProperty? (a : Addition) : Option (String × Value) :=
  match a.value with
  | .null => none
  | _ => if Name.isCustom a.name then some (a.name, a.value) else none

/-- What a shorthand adds: itself if its parts have the same value, or else its parts. -/
def ofShorthand (pathOf : String → Option (List String)) (name : String)
    (parts : List (String × Value)) : List Addition :=
  match parts with
  | [] => []
  | (_, value) :: _ =>
    if Value.allSame (parts.map (·.2)) then [⟨name, value, pathOf name⟩]
    else parts.map fun part => ⟨part.1, part.2, pathOf part.1⟩

end Addition

namespace Instruction

/-- The properties that an instruction adds. -/
def additions : Instruction → List Addition
  | .style name value path => [⟨name, value, path⟩]
  | .transform name value => [⟨name, value, none⟩]
  | .transformShorthand name parts => Addition.ofShorthand StyleRule.transformPath name parts
  | .styleShorthand name parts => Addition.ofShorthand (fun _ => none) name parts
  | _ => []

def declarations (table : Relocations) (i : Instruction) : List StyleDeclaration :=
  i.additions.filterMap (Addition.declaration? table)

def customProperties (i : Instruction) : List (String × Value) :=
  i.additions.filterMap Addition.customProperty?

/-- The warnings of an instruction that are not ignored. -/
def warnings (ignores : String → Bool) : Instruction → List Warning
  | .warn w => if ignores w.property then [] else [w]
  | _ => []

end Instruction

/-- A list that is there only if something has been added, with more at its end. -/
def extended {α : Type} (xs : Option (List α)) : List α → Option (List α)
  | [] => xs
  | new => some (xs.getD [] ++ new)

section Extended

variable {α : Type}

theorem extended_extended (xs : Option (List α)) (ys zs : List α) :
    extended (extended xs ys) zs = extended xs (ys ++ zs) := by
  cases ys with
  | nil => rfl
  | cons y ys =>
    cases zs with
    | nil => simp [extended]
    | cons z zs => simp [extended]

theorem getD_extended (xs : Option (List α)) (ys : List α) :
    (extended xs ys).getD [] = xs.getD [] ++ ys := by
  cases ys with
  | nil => simp [extended]
  | cons y ys => rfl

/-- What settings make of a part that is not there before the first of them. -/
theorem foldl_begun {σ : Type} (step : α → σ → α) (fresh : α) (ss : List σ) :
    ss.foldl (fun x s => some (step (x.getD fresh) s)) none =
      if ss.isEmpty then none else some (ss.foldl step fresh) := by
  have hsome (ss : List σ) (a : α) :
      ss.foldl (fun x s => some (step (x.getD fresh) s)) (some a) = some (ss.foldl step a) := by
    induction ss generalizing a with
    | nil => rfl
    | cons s rest ih => exact ih (step a s)
  cases ss with
  | nil => rfl
  | cons s rest => exact hsome rest (step fresh s)

end Extended

/-! ## The parts and their machines -/

inductive Part where
  | declarations
  | customProperties
  | container
  | transition
  | animations
  | measures
  | warnings
  deriving DecidableEq, Repr

namespace Part

/-- What a part holds. -/
def Content : Part → Type
  | .declarations => List StyleDeclaration
  | .customProperties => Option (List (String × Value))
  | .container => Option Container
  | .transition => Option Transition
  | .animations => Option (Table Value)
  | .measures => Bool × Bool
  | .warnings => Option (List Warning)

/-- The machine of a part. -/
def step (ctx : BuildContext) : (k : Part) → k.Content → Instruction → k.Content
  | .declarations, (ds : List StyleDeclaration), i => ds ++ i.declarations ctx.relocations
  | .customProperties, vs, i => extended vs i.customProperties
  | .container, (c : Option Container), i =>
    match i with
    | .container property setting => some ((c.getD {}).apply property setting)
    | _ => c
  | .transition, (t : Option Transition), i =>
    match i with
    | .transition setting => some ((t.getD {}).apply setting)
    | _ => t
  | .animations, (fields : Option (Table Value)), i =>
    match i with
    | .animation setting => some (setting.apply (fields.getD []))
    | _ => fields
  | .measures, (needs : Bool × Bool), i =>
    match i with
    | .measure .width => (true, needs.2)
    | .measure .height => (needs.1, true)
    | _ => needs
  | .warnings, ws, i => extended ws (i.warnings ctx.ignores)

end Part

/-- What a part of a rule holds. -/
def StyleRule.content (r : StyleRule) : (k : Part) → k.Content
  | .declarations => r.declarations
  | .customProperties => r.customProperties
  | .container => r.container
  | .transition => r.transition
  | .animations => r.animations
  | .measures => (r.needsWidth, r.needsHeight)
  | .warnings => r.warnings

/-- Whether an instruction concerns a part. One that adds properties concerns the declarations if
one of these is plain, and the custom properties if one of them is custom; a shorthand may do
both. -/
def Instruction.concerns (k : Part) (i : Instruction) : Bool :=
  match k with
  | .declarations => i.additions.any fun a => !Name.isCustom a.name
  | .customProperties => i.additions.any fun a => Name.isCustom a.name
  | .container => (i matches .container _ _)
  | .transition => (i matches .transition _)
  | .animations => (i matches .animation _)
  | .measures => (i matches .measure _)
  | .warnings => (i matches .warn _)

/-- A rule is its head and its parts. -/
theorem StyleRule.eq_of_content {r r' : StyleRule} (h : ∀ k, r.content k = r'.content k)
    (head : StyleRule) : r.withHead head = r'.withHead head := by
  have hmeasures : (r.needsWidth, r.needsHeight) = (r'.needsWidth, r'.needsHeight) := h .measures
  simp only [withHead, StyleRule.mk.injEq, true_and]
  exact ⟨h .declarations, h .customProperties, h .animations, h .transition, h .container,
    h .warnings, congrArg Prod.fst hmeasures, congrArg Prod.snd hmeasures⟩

theorem Addition.declaration?_of_custom {table : Relocations} {a : Addition}
    (h : Name.isCustom a.name = true) : a.declaration? table = none := by
  unfold declaration?
  split
  · rfl
  · rw [if_pos h]

theorem Addition.customProperty?_of_plain {a : Addition} (h : Name.isCustom a.name = false) :
    a.customProperty? = none := by
  unfold customProperty?
  split
  · rfl
  · rw [h, if_neg Bool.false_ne_true]

/-- A machine stands still under an instruction that does not concern its part. -/
theorem Part.step_idle (ctx : BuildContext) {k : Part} {i : Instruction}
    (h : i.concerns k = false) (x : k.Content) : k.step ctx x i = x := by
  cases k with
  | declarations =>
    have hcustom : ∀ a ∈ i.additions, Name.isCustom a.name = true := by
      simpa [Instruction.concerns] using h
    have hnone : i.declarations ctx.relocations = [] :=
      List.filterMap_eq_nil_iff.mpr fun a ha => Addition.declaration?_of_custom (hcustom a ha)
    have hstep (ds : List StyleDeclaration) : ds ++ i.declarations ctx.relocations = ds := by
      rw [hnone, List.append_nil]
    exact hstep x
  | customProperties =>
    have hplain : ∀ a ∈ i.additions, Name.isCustom a.name = false := by
      simpa [Instruction.concerns] using h
    have hnone : i.customProperties = [] :=
      List.filterMap_eq_nil_iff.mpr fun a ha => Addition.customProperty?_of_plain (hplain a ha)
    change extended x i.customProperties = x
    rw [hnone]
    rfl
  | container =>
    cases i with
    | container property setting => cases h
    | _ => rfl
  | transition =>
    cases i with
    | transition setting => cases h
    | _ => rfl
  | animations =>
    cases i with
    | animation setting => cases h
    | _ => rfl
  | measures =>
    cases i with
    | measure axis => cases h
    | _ => rfl
  | warnings =>
    cases i with
    | warn w => cases h
    | _ => rfl

/-! ## One instruction -/

namespace StyleRule

variable (table : Relocations)

/-- What adding some properties comes to. -/
def withAdditions (r : StyleRule) (as : List Addition) : StyleRule :=
  { r with
    declarations := r.declarations ++ as.filterMap (Addition.declaration? table),
    customProperties := extended r.customProperties (as.filterMap Addition.customProperty?) }

theorem withAdditions_nil (r : StyleRule) : r.withAdditions table [] = r := by
  simp [withAdditions, extended]

theorem withAdditions_append (r : StyleRule) (as bs : List Addition) :
    (r.withAdditions table as).withAdditions table bs = r.withAdditions table (as ++ bs) := by
  simp [withAdditions, extended_extended]

theorem addStyle_eq (r : StyleRule) (a : Addition) :
    r.addStyle table a.name a.value a.path = r.withAdditions table [a] := by
  by_cases hnull : a.value = .null
  · have hdeclaration : a.declaration? table = none := by simp [Addition.declaration?, hnull]
    have hcustom : a.customProperty? = none := by simp [Addition.customProperty?, hnull]
    simp [addStyle, withAdditions, extended, hnull, hdeclaration, hcustom]
  · by_cases hcustom : Name.isCustom a.name = true
    · simp [addStyle, addVariable, withAdditions, extended, hcustom, Addition.customProperty?,
        Addition.declaration?_of_custom hcustom]
    · rw [Bool.not_eq_true] at hcustom
      simp [addStyle, withAdditions, extended, hcustom, Addition.declaration?,
        Addition.customProperty?_of_plain hcustom]

theorem addShorthand_eq (pathOf : String → Option (List String)) (r : StyleRule) (name : String)
    (parts : List (String × Value)) :
    r.addShorthand table pathOf name parts =
      r.withAdditions table (Addition.ofShorthand pathOf name parts) := by
  have hparts (parts : List (String × Value)) (r : StyleRule) :
      parts.foldl (fun r part => r.addStyle table part.1 part.2 (pathOf part.1)) r =
        r.withAdditions table (parts.map fun p => ⟨p.1, p.2, pathOf p.1⟩) := by
    induction parts generalizing r with
    | nil => exact (withAdditions_nil table r).symm
    | cons part rest ih =>
      have hpart := addStyle_eq table r ⟨part.1, part.2, pathOf part.1⟩
      rw [List.foldl_cons, ih, hpart, withAdditions_append]
      rfl
  cases parts with
  | nil => exact (withAdditions_nil table r).symm
  | cons part rest =>
    simp only [addShorthand, Addition.ofShorthand]
    split
    · exact addStyle_eq table r ⟨name, part.2, pathOf name⟩
    · exact hparts _ r

end StyleRule

/-- An instruction moves the machine of every part, and no machine looks at another part. -/
theorem Draft.apply_content (ctx : BuildContext) (d : Draft) (i : Instruction) (k : Part) :
    (apply ctx d i).rule.content k = k.step ctx (d.rule.content k) i := by
  cases i with
  | style name value path =>
    have hadd := StyleRule.addStyle_eq ctx.relocations d.rule ⟨name, value, path⟩
    simp only [apply, hadd]
    cases k <;> rfl
  | transform name value =>
    have hadd := StyleRule.addStyle_eq ctx.relocations d.rule ⟨name, value, none⟩
    simp only [apply, hadd]
    cases k <;> rfl
  | transformShorthand name parts =>
    simp only [apply, StyleRule.addShorthand_eq]
    cases k <;> rfl
  | styleShorthand name parts =>
    simp only [apply, StyleRule.addShorthand_eq]
    cases k <;> rfl
  -- The instructions that are left concern one part; the machines of the others stand still.
  | container property setting =>
    cases k with
    | container => rfl
    | _ => exact (Part.step_idle ctx rfl _).symm
  | transition setting =>
    cases k with
    | transition => rfl
    | _ => exact (Part.step_idle ctx rfl _).symm
  | animation setting =>
    cases k with
    | animations => rfl
    | _ => exact (Part.step_idle ctx rfl _).symm
  | measure axis =>
    cases k with
    | measures => cases axis <;> rfl
    | _ => cases axis <;> exact (Part.step_idle ctx rfl _).symm
  | warn w =>
    cases h : ctx.ignores w.property with
    | true =>
      simp only [apply, h, if_true]
      cases k with
      | warnings =>
        change d.rule.warnings =
          extended d.rule.warnings (Instruction.warnings ctx.ignores (.warn w))
        simp [Instruction.warnings, h, extended]
      | _ => exact (Part.step_idle ctx rfl _).symm
    | false =>
      simp only [apply, h, Bool.false_eq_true, if_false]
      cases k with
      | warnings =>
        change some (d.rule.warnings.getD [] ++ [w]) =
          extended d.rule.warnings (Instruction.warnings ctx.ignores (.warn w))
        simp [Instruction.warnings, h, extended]
      | _ => exact (Part.step_idle ctx rfl _).symm

/-! ## Runs -/

namespace Draft

variable (ctx : BuildContext)

/-- A part comes to what its machine makes of the instructions that concern it. -/
theorem run_content (d : Draft) (is : List Instruction) (k : Part) :
    (run ctx d is).rule.content k =
      (is.filter (·.concerns k)).foldl (k.step ctx) (d.rule.content k) := by
  unfold run
  induction is generalizing d with
  | nil => rfl
  | cons i rest ih =>
    rw [List.foldl_cons, ih, apply_content]
    cases h : i.concerns k with
    | true => rw [List.filter_cons_of_pos h, List.foldl_cons]
    | false => rw [List.filter_cons_of_neg (by simp [h]), Part.step_idle ctx h]

/-- A part whose machine heeds only the settings that `pick` finds comes to what these make of
it. -/
theorem run_settings {σ : Type} {k : Part} {pick : Instruction → Option σ}
    {act : k.Content → σ → k.Content}
    (h : ∀ x i, k.step ctx x i = (pick i).elim x (act x)) (d : Draft) (is : List Instruction) :
    (run ctx d is).rule.content k = (is.filterMap pick).foldl act (d.rule.content k) := by
  unfold run
  induction is generalizing d with
  | nil => rfl
  | cons i rest ih =>
    rw [List.foldl_cons, ih, apply_content, h]
    cases hpick : pick i with
    | none => simp [hpick]
    | some s => simp [hpick]

theorem run_declarations (d : Draft) (is : List Instruction) :
    (run ctx d is).rule.declarations =
      d.rule.declarations ++ is.flatMap (·.declarations ctx.relocations) := by
  unfold run
  induction is generalizing d with
  | nil => simp
  | cons i rest ih =>
    have hstep : (apply ctx d i).rule.declarations =
        d.rule.declarations ++ i.declarations ctx.relocations :=
      apply_content ctx d i .declarations
    rw [List.foldl_cons, ih, hstep, List.append_assoc, List.flatMap_cons]

theorem run_customProperties (d : Draft) (is : List Instruction) :
    (run ctx d is).rule.customProperties =
      extended d.rule.customProperties (is.flatMap (·.customProperties)) := by
  unfold run
  induction is generalizing d with
  | nil => rfl
  | cons i rest ih =>
    have hstep : (apply ctx d i).rule.customProperties =
        extended d.rule.customProperties i.customProperties :=
      apply_content ctx d i .customProperties
    rw [List.foldl_cons, ih, hstep, extended_extended, List.flatMap_cons]

theorem run_warnings (d : Draft) (is : List Instruction) :
    (run ctx d is).rule.warnings =
      extended d.rule.warnings (is.flatMap (·.warnings ctx.ignores)) := by
  unfold run
  induction is generalizing d with
  | nil => rfl
  | cons i rest ih =>
    have hstep : (apply ctx d i).rule.warnings =
        extended d.rule.warnings (i.warnings ctx.ignores) :=
      apply_content ctx d i .warnings
    rw [List.foldl_cons, ih, hstep, extended_extended, List.flatMap_cons]

theorem run_append (d : Draft) (is js : List Instruction) :
    run ctx d (is ++ js) = run ctx (run ctx d is) js :=
  List.foldl_append

end Draft

theorem Addition.of_declaration? {table : Relocations} {a : Addition} {d : StyleDeclaration}
    (h : a.declaration? table = some d) :
    Name.isCustom a.name = false ∧ a.value ≠ .null ∧
      d = StyleRule.declaration table a.name a.value a.path := by
  unfold declaration? at h
  split at h
  · cases h
  · rename_i hvalue
    split at h
    · cases h
    · rename_i hplain
      exact ⟨by simpa using hplain, hvalue, (Option.some.inj h).symm⟩

theorem Addition.of_customProperty? {a : Addition} {e : String × Value}
    (h : a.customProperty? = some e) : Name.isCustom e.1 = true := by
  unfold customProperty? at h
  split at h
  · cases h
  · split at h
    · rename_i hcustom
      cases h
      exact hcustom
    · cases h

/-- The property that a declaration goes to, if it goes to one and not to a path, has the native
form of the name that it was given. -/
theorem StyleRule.declaration_bare {table : Relocations} {name target : String} {value : Value}
    {path : Option (List String)} (h : (declaration table name value path).target = .bare target) :
    target = Name.native name := by
  unfold declaration at h
  simp only at h
  split at h
  · cases h
  · cases h
    rfl

/-- What holds of every declaration that an instruction makes: it has a value, whether it waits for
its value is told by the value, and it never goes to a custom property. -/
structure StyleDeclaration.WellFormed (d : StyleDeclaration) : Prop where
  value : d.value ≠ .null
  deferred : d.deferred = d.value.isDeferred
  target : ∀ name, d.target = .bare name → Name.isCustom name = false

theorem Instruction.declarations_wellFormed {table : Relocations} {i : Instruction}
    {d : StyleDeclaration} (h : d ∈ i.declarations table) : d.WellFormed := by
  obtain ⟨a, -, ha⟩ := List.mem_filterMap.mp h
  obtain ⟨hplain, hvalue, rfl⟩ := Addition.of_declaration? ha
  refine ⟨hvalue, rfl, fun name hname => ?_⟩
  rw [StyleRule.declaration_bare hname, Name.isCustom_native, hplain]

namespace StyleRule

variable (ctx : BuildContext) (specificity : Specificity)

/-- The rule that instructions make of a fresh one. -/
def ofInstructions (is : List Instruction) : StyleRule :=
  (Draft.run ctx { rule := { specificity } } is).rule

theorem ofInstructions_withHead (is : List Instruction) :
    (ofInstructions ctx specificity is).withHead { specificity } =
      ofInstructions ctx specificity is := by
  have hrun := Draft.run_withHead ctx { rule := { specificity } } { specificity } is
  exact (congrArg Draft.rule hrun).symm

/-- Instructions that agree on what concerns each part make the same rule. -/
theorem ofInstructions_eq {is js : List Instruction}
    (h : ∀ k : Part, is.filter (·.concerns k) = js.filter (·.concerns k)) :
    ofInstructions ctx specificity is = ofInstructions ctx specificity js := by
  have hcontent (k : Part) :
      (ofInstructions ctx specificity is).content k =
        (ofInstructions ctx specificity js).content k := by
    unfold ofInstructions
    rw [Draft.run_content, Draft.run_content, h k]
  have hparts := eq_of_content hcontent { specificity }
  rwa [ofInstructions_withHead, ofInstructions_withHead] at hparts

theorem ofInstructions_declarations {is : List Instruction} {d : StyleDeclaration}
    (h : d ∈ (ofInstructions ctx specificity is).declarations) : d.WellFormed := by
  rw [ofInstructions, Draft.run_declarations, List.nil_append] at h
  obtain ⟨i, -, hd⟩ := List.mem_flatMap.mp h
  exact Instruction.declarations_wellFormed hd

theorem ofInstructions_customProperties {is : List Instruction} {e : String × Value}
    (h : e ∈ (ofInstructions ctx specificity is).customProperties.getD []) :
    Name.isCustom e.1 = true := by
  rw [ofInstructions, Draft.run_customProperties, getD_extended] at h
  obtain ⟨i, -, he⟩ := List.mem_flatMap.mp h
  obtain ⟨a, -, ha⟩ := List.mem_filterMap.mp he
  exact Addition.of_customProperty? ha

/-- A rule has grown into another: the lists of declarations, custom properties and warnings have
nothing new but at their ends. -/
structure GrowsInto (r r' : StyleRule) : Prop where
  declarations : r.declarations <+: r'.declarations
  customProperties : r.customProperties.getD [] <+: r'.customProperties.getD []
  warnings : r.warnings.getD [] <+: r'.warnings.getD []

theorem ofInstructions_growsInto (is more : List Instruction) :
    (ofInstructions ctx specificity is).GrowsInto
      (ofInstructions ctx specificity (is ++ more)) := by
  unfold ofInstructions
  rw [Draft.run_append]
  constructor
  · rw [Draft.run_declarations ctx _ more]
    exact List.prefix_append _ _
  · rw [Draft.run_customProperties ctx _ more, getD_extended]
    exact List.prefix_append _ _
  · rw [Draft.run_warnings ctx _ more, getD_extended]
    exact List.prefix_append _ _

/-- A rule that instructions make is the product of its parts. It depends on the instructions that
concern each part, in their order, and not on how these are interleaved; each part is what its own
machine makes of them. Whatever the instructions are, the declarations and the names of the custom
properties are sound, more instructions add to the lists only at the end, and the head of the rule
is that of the fresh rule. -/
theorem ofInstructions_by_parts :
    (∀ is js : List Instruction,
      (∀ k : Part, is.filter (·.concerns k) = js.filter (·.concerns k)) →
        ofInstructions ctx specificity is = ofInstructions ctx specificity js) ∧
    ∀ is : List Instruction,
      let r := ofInstructions ctx specificity is
      (∀ k : Part, r.content k =
        (is.filter (·.concerns k)).foldl (k.step ctx) (StyleRule.content { specificity } k)) ∧
      (∀ d ∈ r.declarations, d.WellFormed) ∧
      (∀ e ∈ r.customProperties.getD [], Name.isCustom e.1 = true) ∧
      (∀ more, r.GrowsInto (ofInstructions ctx specificity (is ++ more))) ∧
      r.specificity = specificity ∧ r.media = none ∧ r.containerQuery = none ∧
      r.pseudoClasses = none ∧ r.attributes = none := by
  refine ⟨fun is js => ofInstructions_eq ctx specificity, ?_⟩
  intro is r
  refine ⟨Draft.run_content ctx _ is, fun d => ofInstructions_declarations ctx specificity,
    fun e => ofInstructions_customProperties ctx specificity,
    ofInstructions_growsInto ctx specificity is, ?_⟩
  simp only [r]
  rw [← ofInstructions_withHead ctx specificity is]
  exact ⟨rfl, rfl, rfl, rfl, rfl⟩

/-- Two orders of the same instructions; the shorthand is for two parts at once. -/
theorem ofInstructions_by_parts_orders :
    ofInstructions {} {}
        [.styleShorthand "gap" [("--gap", .text "2px"), ("row-gap", .text "1px")],
          .measure .width, .warn { kind := "property", property := "zoom" },
          .style "color" (.text "red") none] =
      ofInstructions {} {}
        [.warn { kind := "property", property := "zoom" },
          .styleShorthand "gap" [("--gap", .text "2px"), ("row-gap", .text "1px")],
          .style "color" (.text "red") none, .measure .width] := by
  apply (ofInstructions_by_parts {} {}).1
  intro k
  cases k <;> rfl

end StyleRule

end StyleBundle
