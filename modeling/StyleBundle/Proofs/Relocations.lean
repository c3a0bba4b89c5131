import StyleBundle.Proofs.Parts
import StyleBundle.Proofs.Table

/-!
# StyleBundle.Proofs.Relocations

Where the declarations of a block go. A path that a property is given comes first, then the last
directive for the property, then the last one for the wildcard; a property that none of them moves
goes to its own name. Custom properties are never moved.

* `Directive.key?`, `Directive.propertyPath?`, `Directive.wildcardPath?`: what a directive moves,
  and where to.
* `Relocations.get?_ofDirectives`: the table of directives holds the last path for each key.
* `Addition.target`: where a property goes, by these rules.
* `relocated_congr`: only the last directive for each key matters to a rule.
* `relocated_targets`: the declarations of a rule, and which changes of the directives leave it as
  it is.
-/

namespace StyleBundle

/-! ## Directives -/

namespace Directive

/-- What a directive moves: the property of a native name, or the wildcard. -/
def key? (d : Directive) : Option String :=
  if d.name = Sheet.moveName then
    match d.words with
    | [] => none
    | [_] => some Relocations.wildcard
    | first :: _ :: _ => some (Name.native first)
  else none

/-- The path for the property of a native name: a directive of two words or more names the property
first and then the path. -/
def propertyPath? (name : String) (d : Directive) : Option (List String) :=
  match d.words with
  | first :: word :: _ =>
    if d.name = Sheet.moveName ∧ Name.native first = name then some (Relocations.path word)
    else none
  | _ => none

/-- The path for every property that has none of its own: of a directive that has one word, or that
names the wildcard first. -/
def wildcardPath? (d : Directive) : Option (List String) :=
  match d.words with
  | [word] => if d.name = Sheet.moveName then some (Relocations.path word) else none
  | _ => d.propertyPath? Relocations.wildcard

/-- The path that a directive puts under a key of the table. -/
def pathFor? (key : String) (d : Directive) : Option (List String) :=
  (Relocations.entry? d).bind fun e => if e.1 = key then some e.2 else none

theorem pathFor?_of_ne {key : String} (h : key ≠ Relocations.wildcard) (d : Directive) :
    d.pathFor? key = d.propertyPath? key := by
  obtain ⟨name, words⟩ := d
  rcases words with _ | ⟨first, _ | ⟨word, rest⟩⟩
  · simp [pathFor?, propertyPath?, Relocations.entry?]
  · by_cases hname : name = Sheet.moveName <;>
      simp [pathFor?, propertyPath?, Relocations.entry?, hname, Ne.symm h]
  · by_cases hname : name = Sheet.moveName <;> by_cases hkey : Name.native first = key <;>
      simp [pathFor?, propertyPath?, Relocations.entry?, hname, hkey]

theorem pathFor?_wildcard (d : Directive) : d.pathFor? Relocations.wildcard = d.wildcardPath? := by
  obtain ⟨name, words⟩ := d
  rcases words with _ | ⟨first, _ | ⟨word, rest⟩⟩
  · simp [pathFor?, wildcardPath?, propertyPath?, Relocations.entry?]
  · by_cases hname : name = Sheet.moveName <;>
      simp [pathFor?, wildcardPath?, Relocations.entry?, hname]
  · by_cases hname : name = Sheet.moveName <;>
      by_cases hkey : Name.native first = Relocations.wildcard <;>
      simp [pathFor?, wildcardPath?, propertyPath?, Relocations.entry?, hname, hkey]

theorem isSome_pathFor? {key : String} {d : Directive} :
    (d.pathFor? key).isSome = true ↔ d.key? = some key := by
  obtain ⟨name, words⟩ := d
  by_cases hname : name = Sheet.moveName
  · rcases words with _ | ⟨first, _ | ⟨word, rest⟩⟩ <;>
      simp [pathFor?, key?, Relocations.entry?, hname]
  · simp [pathFor?, key?, Relocations.entry?, hname]

/-- Only directives for a key put a path under it. -/
theorem filterMap_pathFor? (ds : List Directive) (key : String) :
    ds.filterMap (·.pathFor? key) =
      (ds.filter (·.key? = some key)).filterMap (·.pathFor? key) := by
  rw [List.filterMap_filter]
  apply List.filterMap_congr
  intro d _
  by_cases h : d.key? = some key
  · simp [h]
  · have hnone : d.pathFor? key = none := by
      rwa [← isSome_pathFor?, Option.not_isSome_iff_eq_none] at h
    simp [h, hnone]

/-- Directives in another order, in which those for each key follow each other as before. -/
def Reorders (ds es : List Directive) : Prop :=
  ∀ key, ds.filter (·.key? = some key) = es.filter (·.key? = some key)

/-- Neighbours for different keys may be exchanged. -/
theorem reorders_exchange {d e : Directive} (h : d.key? ≠ e.key?) (before after : List Directive) :
    Reorders (before ++ e :: d :: after) (before ++ d :: e :: after) := by
  intro key
  rw [List.filter_append, List.filter_append]
  by_cases hd : d.key? = some key
  · have he : e.key? ≠ some key := fun he => h (hd.trans he.symm)
    simp [hd, he]
  · simp [List.filter_cons, hd]

end Directive

/-! ## The table -/

namespace Relocations

theorem get?_ofDirectives (ds : List Directive) (key : String) :
    Table.get? key (ofDirectives ds) = (ds.filterMap (·.pathFor? key)).getLast? := by
  rw [ofDirectives, Table.get?_ofList, List.filterMap_filterMap]
  rfl

/-- The last directive for a property, or else the last one for the wildcard. -/
def lastPath? (ds : List Directive) (name : String) : Option (List String) :=
  let own :=
    if name = wildcard then none else (ds.filterMap (·.propertyPath? name)).getLast?
  own.or (ds.filterMap Directive.wildcardPath?).getLast?

theorem lastPath?_eq (ds : List Directive) (name : String) :
    lastPath? ds name =
      (Table.get? name (ofDirectives ds)).or (Table.get? wildcard (ofDirectives ds)) := by
  simp only [lastPath?, get?_ofDirectives, Directive.pathFor?_wildcard]
  by_cases hname : name = wildcard
  · subst hname
    simp [Directive.pathFor?_wildcard]
  · simp [hname, Directive.pathFor?_of_ne hname]

theorem resolve_eq (t : Relocations) (name : String) (given : Option (List String)) :
    t.resolve name given =
      (given.filter (· ≠ [])).or ((Table.get? name t).or (Table.get? wildcard t)) := by
  unfold resolve
  rcases given with _ | ⟨_ | ⟨step, rest⟩⟩
  · cases Table.get? name t <;> rfl
  · cases Table.get? name t <;> rfl
  · simp [Option.filter]

end Relocations

/-! ## Targets -/

namespace Addition

/-- A property without a value is not added. -/
def isGiven (a : Addition) : Bool :=
  match a.value with
  | .null => false
  | _ => true

/-- Where a property goes under some directives: to a path that it is given, if that is not empty,
or to that of the last directive, or else to its own name. -/
def target (ds : List Directive) (a : Addition) : Target :=
  match (a.path.filter (· ≠ [])).or (Relocations.lastPath? ds (Name.native a.name)) with
  | some path => .path path
  | none => .bare (Name.native a.name)

theorem target_declaration (ds : List Directive) (a : Addition) :
    (StyleRule.declaration (.ofDirectives ds) a.name a.value a.path).target = a.target ds := by
  have hpath := Relocations.resolve_eq (.ofDirectives ds) (Name.native a.name) a.path
  rw [← Relocations.lastPath?_eq] at hpath
  cases h : (a.path.filter (· ≠ [])).or (Relocations.lastPath? ds (Name.native a.name)) with
  | none => simp only [StyleRule.declaration, target, hpath, h]
  | some path => simp only [StyleRule.declaration, target, hpath, h]

/-- The declaration that a property makes. -/
def moved (ds : List Directive) (a : Addition) : StyleDeclaration where
  value := a.value
  target := a.target ds
  deferred := a.value.isDeferred

theorem declaration?_eq (ds : List Directive) (a : Addition) :
    a.declaration? (.ofDirectives ds) =
      if a.isGiven && !Name.isCustom a.name then some (a.moved ds) else none := by
  have hmoved : StyleRule.declaration (.ofDirectives ds) a.name a.value a.path = a.moved ds := by
    rw [moved, ← target_declaration]
    rfl
  unfold declaration?
  rw [hmoved]
  obtain ⟨name, value, path⟩ := a
  cases value with
  | null => rfl
  | _ => cases Name.isCustom name <;> rfl

theorem customProperty?_eq (a : Addition) :
    a.customProperty? =
      if a.isGiven && Name.isCustom a.name then some (a.name, a.value) else none := by
  obtain ⟨name, value, path⟩ := a
  unfold customProperty?
  cases value with
  | null => rfl
  | _ => cases Name.isCustom name <;> rfl

end Addition

/-- A shorthand for transforms has its parts and itself under the transforms, whatever the
directives are. -/
theorem Instruction.target_transformShorthand (ds : List Directive) {name : String}
    {parts : List (String × Value)} {a : Addition}
    (h : a ∈ (Instruction.transformShorthand name parts).additions) :
    a.target ds = .path ["transform", a.name] := by
  have hpath : a.path = some ["transform", a.name] := by
    unfold additions Addition.ofShorthand at h
    cases parts with
    | nil => cases h
    | cons part rest =>
      simp only at h
      split at h
      · cases List.mem_singleton.mp h
        rfl
      · obtain ⟨part', -, rfl⟩ := List.mem_map.mp h
        rfl
  simp [Addition.target, hpath, Option.filter]

/-! ## Whole rules -/

section Rule

variable (ignores : String → Bool) (specificity : Specificity)

/-- The rule that instructions make under some directives. -/
def StyleRule.relocated (is : List Instruction) (ds : List Directive) : StyleRule :=
  ofInstructions { relocations := .ofDirectives ds, ignores } specificity is

theorem relocated_declarations (is : List Instruction) (ds : List Directive) :
    (StyleRule.relocated ignores specificity is ds).declarations =
      ((is.flatMap Instruction.additions).filter
        fun a => a.isGiven && !Name.isCustom a.name).map (·.moved ds) := by
  rw [StyleRule.relocated, StyleRule.ofInstructions, Draft.run_declarations, List.nil_append,
    ← List.filterMap_eq_map, List.filterMap_filter, List.filterMap_flatMap]
  simp only [Instruction.declarations, Addition.declaration?_eq]
  rfl

theorem relocated_customProperties (is : List Instruction) (ds : List Directive) :
    (StyleRule.relocated ignores specificity is ds).customProperties.getD [] =
      ((is.flatMap Instruction.additions).filter
        fun a => a.isGiven && Name.isCustom a.name).map fun a => (a.name, a.value) := by
  rw [StyleRule.relocated, StyleRule.ofInstructions, Draft.run_customProperties, getD_extended,
    Option.getD_none, List.nil_append, ← List.filterMap_eq_map, List.filterMap_filter,
    List.filterMap_flatMap]
  simp only [Instruction.customProperties, Addition.customProperty?_eq]
  rfl

variable {ignores specificity}

/-- Only the last path for each key matters to a rule. -/
theorem relocated_congr {ds es : List Directive}
    (h : ∀ key, (es.filterMap (·.pathFor? key)).getLast? = (ds.filterMap (·.pathFor? key)).getLast?)
    (is : List Instruction) :
    StyleRule.relocated ignores specificity is es =
      StyleRule.relocated ignores specificity is ds := by
  have htarget (a : Addition) : a.target es = a.target ds := by
    simp only [Addition.target, Relocations.lastPath?_eq, Relocations.get?_ofDirectives, h]
  have hcontent (k : Part) : (StyleRule.relocated ignores specificity is es).content k =
      (StyleRule.relocated ignores specificity is ds).content k := by
    cases k with
    | declarations =>
      change (StyleRule.relocated ignores specificity is es).declarations =
        (StyleRule.relocated ignores specificity is ds).declarations
      simp only [relocated_declarations, Addition.moved, htarget]
    -- no other machine looks at the relocations
    | _ =>
      unfold StyleRule.relocated StyleRule.ofInstructions
      rw [Draft.run_content, Draft.run_content]
      rfl
  have hparts := StyleRule.eq_of_content hcontent { specificity }
  unfold StyleRule.relocated at hparts ⊢
  rwa [StyleRule.ofInstructions_withHead, StyleRule.ofInstructions_withHead] at hparts

theorem relocated_reorders {ds es : List Directive} (h : Directive.Reorders es ds)
    (is : List Instruction) :
    StyleRule.relocated ignores specificity is es =
      StyleRule.relocated ignores specificity is ds := by
  apply relocated_congr
  intro key
  rw [Directive.filterMap_pathFor? es, h key, ← Directive.filterMap_pathFor?]

/-- A directive that is followed by another for its key has no effect. -/
theorem relocated_superseded {before after : List Directive} {d e : Directive} (he : e ∈ after)
    (hkey : e.key? = d.key?) (is : List Instruction) :
    StyleRule.relocated ignores specificity is (before ++ after) =
      StyleRule.relocated ignores specificity is (before ++ d :: after) := by
  apply relocated_congr
  intro key
  cases hd : d.pathFor? key with
  | none => rw [List.filterMap_append, List.filterMap_append, List.filterMap_cons_none hd]
  | some path =>
    have hsome : (e.pathFor? key).isSome = true := by
      rw [Directive.isSome_pathFor?, hkey, ← Directive.isSome_pathFor?, hd]
      rfl
    obtain ⟨path', hpath'⟩ := Option.isSome_iff_exists.mp hsome
    have hne : after.filterMap (·.pathFor? key) ≠ [] :=
      List.ne_nil_of_mem (List.mem_filterMap.mpr ⟨e, he, hpath'⟩)
    rw [List.filterMap_append, List.filterMap_append, List.filterMap_cons_some hd,
      List.getLast?_append_of_ne_nil _ hne, List.getLast?_append_of_ne_nil _ (List.cons_ne_nil _ _),
      List.getLast?_cons_of_ne_nil hne]

variable (ignores specificity)

/-- Each declaration of a rule goes where the precedence says: to a path that its property is given,
to that of the last directive for the property, to that of the last directive for the wildcard, or
to the property itself. Shorthands for transforms stay under the transforms, custom properties are
never moved. Directives for different keys may be exchanged, and of those for one key only the last
matters. -/
theorem relocated_targets (is : List Instruction) (ds : List Directive) :
    let rule := StyleRule.relocated ignores specificity is
    (rule ds).declarations = ((is.flatMap Instruction.additions).filter
      fun a => a.isGiven && !Name.isCustom a.name).map (·.moved ds) ∧
    (∀ name parts, ∀ a ∈ (Instruction.transformShorthand name parts).additions,
      a.target ds = .path ["transform", a.name]) ∧
    (rule ds).customProperties.getD [] = ((is.flatMap Instruction.additions).filter
      fun a => a.isGiven && Name.isCustom a.name).map (fun a => (a.name, a.value)) ∧
    (∀ es, Directive.Reorders es ds → rule es = rule ds) ∧
    (∀ before d e after, ds = before ++ d :: e :: after → d.key? ≠ e.key? →
      rule (before ++ e :: d :: after) = rule ds) ∧
    ∀ before d after, ds = before ++ d :: after → (∃ e ∈ after, e.key? = d.key?) →
      rule (before ++ after) = rule ds := by
  intro rule
  refine ⟨relocated_declarations ignores specificity is ds, ?_,
    relocated_customProperties ignores specificity is ds, ?_, ?_, ?_⟩
  · intro name parts a ha
    exact Instruction.target_transformShorthand ds ha
  · intro es h
    exact relocated_reorders h is
  · rintro before d e after rfl hkeys
    exact relocated_reorders (Directive.reorders_exchange hkeys before after) is
  · rintro before d after rfl ⟨e, he, hkey⟩
    exact relocated_superseded he hkey is

/-- Two directives for the wildcard, of which the first names it, and one for a property. -/
theorem relocated_targets_fill :
    let move (words : List String) : Directive := ⟨Sheet.moveName, words⟩
    let named := move ["-*", "old"]
    let color := move ["background-color", "&text.line-color", "more"]
    let fill := move ["fill"]
    let is : List Instruction :=
      [.style "background-color" (.text "red") none, .style "margin-top" (.int 1) (some []),
        .style "opacity" (.int 1) (some ["a", "b"]), .style "*" (.int 0) none,
        .transformShorthand "scale" [("scaleX", .int 1), ("scaleY", .int 2)],
        .style "--x" (.text "y") (some ["a"])]
    let rule := StyleRule.relocated (fun _ => false) {} is
    (color.key? ≠ fill.key? ∧ fill.key? = named.key?) ∧
    (rule [named, color, fill]).declarations.map (·.target) =
      [.path ["style", "text", "lineColor"], .path ["fill"], .path ["a", "b"], .path ["fill"],
        .path ["transform", "scaleX"], .path ["transform", "scaleY"]] ∧
    ((rule [named, color, fill]).customProperties.getD []).map (·.1) = ["--x"] ∧
    rule [named, fill, color] = rule [named, color, fill] ∧
    rule [color, fill] = rule [named, color, fill] := by
  intro move named color fill is rule
  have hkeys : color.key? ≠ fill.key? := by decide +kernel
  have hkey : fill.key? = named.key? := by decide +kernel
  obtain ⟨-, -, -, -, hexchange, hsuperseded⟩ :=
    relocated_targets (fun _ => false) {} is [named, color, fill]
  exact ⟨⟨hkeys, hkey⟩, by decide +kernel, by decide +kernel,
    hexchange [named] color fill [] rfl hkeys,
    hsuperseded [] named [color, fill] rfl ⟨fill, by simp, hkey⟩⟩

end Rule

end StyleBundle
