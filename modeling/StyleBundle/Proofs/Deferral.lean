import StyleBundle.Proofs.Parts
import StyleBundle.Proofs.Reading

/-!
# StyleBundle.Proofs.Deferral

Which declarations wait for layout. A value waits if it is a deferred call or if one of its parts
waits, at any depth. Whether a declaration is deferred goes by the value itself and by none of its
parts. So it is lost in the two kinds of values that hold others: a `var` with a fallback that
waits, and the calls of `transform` with an argument that waits (`Value.Hides`).

* `Value.Waits`, `Value.waits_iff`: a value that waits, and where.
* `Declaration.Gives`, `Declaration.read_gives`: the values that declarations are made with.
* `Value.em_of_waits_ofToken`: what waits is written with the unit `em`.
* `run_deferred`: every declaration that is added.
-/

namespace StyleBundle

namespace Value

/-- The values that a value holds. -/
def parts : Value → List Value
  | .list items => items
  | .call _ args _ => args
  | .easing _ args => args
  | .map entries => entries.map (·.2)
  | .layer _ _ _ _ args => args
  | _ => []

/-- A value waits for layout: it is a deferred call, or something in it waits. -/
inductive Waits : Value → Prop where
  | call (name : String) (args : List Value) : Waits (.call name args true)
  | part {v w : Value} : w ∈ v.parts → Waits w → Waits v

/-- Values that wait and do not show it: a `var` with a fallback that waits, and a list of calls
one of which has an argument that waits. -/
inductive Hides : Value → Prop where
  | fallback (name : String) {w : Value} : Waits w → Hides (.call "var" [.text name, w] false)
  | argument {calls : List Value} {f : String} {args : List Value} {w : Value} :
      .call f args false ∈ calls → w ∈ args → Waits w → Hides (.list calls)

theorem waits_iff {v : Value} : v.Waits ↔ v.isDeferred = true ∨ ∃ w ∈ v.parts, w.Waits := by
  constructor
  · intro h
    cases h with
    | call name args => exact .inl rfl
    | part hmem hw => exact .inr ⟨_, hmem, hw⟩
  · rintro (hdeferred | ⟨w, hmem, hw⟩)
    · cases v with
      | call name args deferred =>
        cases hdeferred
        exact .call name args
      | _ => cases hdeferred
    · exact .part hmem hw

@[simp] theorem waits_call {name : String} {args : List Value} {deferred : Bool} :
    (Value.call name args deferred).Waits ↔ deferred = true ∨ ∃ w ∈ args, w.Waits := waits_iff

@[simp] theorem waits_list {items : List Value} :
    (Value.list items).Waits ↔ ∃ w ∈ items, w.Waits := by
  simp [waits_iff (v := .list items), isDeferred, parts]

theorem not_waits_of_scalar {v : Value} (hdeferred : v.isDeferred = false) (hparts : v.parts = []) :
    ¬ v.Waits := by
  rw [waits_iff]
  simp [hdeferred, hparts]

@[simp] theorem not_waits_text (s : String) : ¬ (Value.text s).Waits := not_waits_of_scalar rfl rfl

@[simp] theorem not_waits_number (n : Number) : ¬ n.toValue.Waits := by
  cases n with
  | int n => exact not_waits_of_scalar rfl rfl
  | double d => exact not_waits_of_scalar rfl rfl

mutual

/-- Whether a value waits, found by looking through all that it holds. -/
def holdsDeferred : Value → Bool
  | .call _ args deferred => deferred || anyHoldsDeferred args
  | .list items => anyHoldsDeferred items
  | .easing _ args => anyHoldsDeferred args
  | .map entries => entryHoldsDeferred entries
  | .layer _ _ _ _ args => anyHoldsDeferred args
  | .null | .bool _ | .int _ | .double _ | .text _ | .time _ => false

def anyHoldsDeferred : List Value → Bool
  | [] => false
  | v :: rest => v.holdsDeferred || anyHoldsDeferred rest

def entryHoldsDeferred : List (String × Value) → Bool
  | [] => false
  | (_, v) :: rest => v.holdsDeferred || entryHoldsDeferred rest

end

mutual

theorem holdsDeferred_iff : ∀ v : Value, v.holdsDeferred = true ↔ v.Waits
  | .call name args deferred => by
    rw [holdsDeferred, waits_call, Bool.or_eq_true, anyHoldsDeferred_iff args]
  | .list items => by rw [holdsDeferred, waits_list, anyHoldsDeferred_iff items]
  | .easing kind args => by
    rw [holdsDeferred, waits_iff, anyHoldsDeferred_iff args]
    simp [isDeferred, parts]
  | .map entries => by
    rw [holdsDeferred, waits_iff, entryHoldsDeferred_iff entries]
    simp [isDeferred, parts]
  | .layer property duration delay kind args => by
    rw [holdsDeferred, waits_iff, anyHoldsDeferred_iff args]
    simp [isDeferred, parts]
  | .null => by simp [holdsDeferred, not_waits_of_scalar (v := .null) rfl rfl]
  | .bool b => by simp [holdsDeferred, not_waits_of_scalar (v := .bool b) rfl rfl]
  | .int n => by simp [holdsDeferred, not_waits_of_scalar (v := .int n) rfl rfl]
  | .double d => by simp [holdsDeferred, not_waits_of_scalar (v := .double d) rfl rfl]
  | .text s => by simp [holdsDeferred]
  | .time t => by simp [holdsDeferred, not_waits_of_scalar (v := .time t) rfl rfl]

theorem anyHoldsDeferred_iff : ∀ vs : List Value, anyHoldsDeferred vs = true ↔ ∃ v ∈ vs, v.Waits
  | [] => by simp [anyHoldsDeferred]
  | v :: rest => by simp [anyHoldsDeferred, holdsDeferred_iff v, anyHoldsDeferred_iff rest]

theorem entryHoldsDeferred_iff :
    ∀ es : List (String × Value), entryHoldsDeferred es = true ↔ ∃ v ∈ es.map (·.2), v.Waits
  | [] => by simp [entryHoldsDeferred]
  | (k, v) :: rest => by
    rw [entryHoldsDeferred, Bool.or_eq_true, holdsDeferred_iff v, entryHoldsDeferred_iff rest,
      List.map_cons,
      List.exists_mem_cons_iff]

end

instance (v : Value) : Decidable v.Waits := decidable_of_iff _ (holdsDeferred_iff v)

theorem Hides.part {v : Value} (h : v.Hides) : ∃ w ∈ v.parts, w.Waits := by
  cases h with
  | fallback name hw => exact ⟨_, List.mem_cons_of_mem _ List.mem_cons_self, hw⟩
  | argument hcall harg hw => exact ⟨_, hcall, .part harg hw⟩

theorem Hides.waits {v : Value} (h : v.Hides) : v.Waits := waits_iff.mpr (.inr h.part)

/-- A value is deferred if it waits, unless something in it waits; only lengths in `em` are
deferred. -/
structure Shows (v : Value) : Prop where
  deferred : v.isDeferred = true ↔ v.Waits ∧ ¬ v.Hides
  em : v.isDeferred = true → ∃ n : Number, v = .call "em" [n.toValue] true

/-- A value that is not deferred need only hide all that waits in it. -/
theorem shows_of_hides {v : Value} (hdeferred : v.isDeferred = false)
    (hhides : ∀ w ∈ v.parts, w.Waits → v.Hides) : v.Shows := by
  refine ⟨?_, ?_⟩
  · simp only [hdeferred, Bool.false_eq_true, false_iff, not_and, not_not]
    intro hwaits
    rcases waits_iff.mp hwaits with htrue | ⟨w, hmem, hw⟩
    · rw [hdeferred] at htrue
      cases htrue
    · exact hhides w hmem hw
  · intro htrue
    rw [hdeferred] at htrue
    cases htrue

/-- A value with nothing in it that waits. -/
theorem shows_of_parts {v : Value} (hdeferred : v.isDeferred = false)
    (hparts : ∀ w ∈ v.parts, ¬ w.Waits) : v.Shows :=
  shows_of_hides hdeferred fun w hmem hw => absurd hw (hparts w hmem)

theorem shows_em (n : Number) : (Value.call "em" [n.toValue] true).Shows := by
  have hshown : ¬ (Value.call "em" [n.toValue] true).Hides := by
    intro h
    simpa [parts] using h.part
  exact ⟨iff_of_true rfl ⟨.call _ _, hshown⟩, fun _ => ⟨n, rfl⟩⟩

theorem shows_text (s : String) : (Value.text s).Shows :=
  shows_of_parts rfl (List.forall_mem_nil _)

theorem shows_number (n : Number) : n.toValue.Shows := by
  cases n with
  | int n => exact shows_of_parts rfl (List.forall_mem_nil _)
  | double d => exact shows_of_parts rfl (List.forall_mem_nil _)

/-! ## Values that are read -/

theorem shows_ofDimension (n : Numeral) (unit : String) : (ofDimension n unit).Shows := by
  unfold ofDimension
  simp only
  split
  · exact shows_number _
  · split
    · exact shows_of_parts rfl (by simp [parts])
    · split
      · exact shows_em _
      · exact shows_text _

theorem shows_ofToken (t : Token) : (ofToken t).Shows := by
  fun_cases ofToken t with
  | case1 p n => exact shows_number _
  | case2 p n unit => exact shows_ofDimension n unit
  | case9 p f arguments hvar name hl => exact shows_of_parts rfl (by simp [parts])
  | case10 p f arguments hvar name t rest hl =>
    refine shows_of_hides rfl ?_
    intro w hmem hw
    rcases List.mem_cons.mp hmem with rfl | hmem
    · exact absurd hw (not_waits_text _)
    · rw [List.mem_singleton.mp hmem] at hw
      exact .fallback _ hw
  | case11 p f arguments hvar name fallback rest hne hl =>
    exact shows_of_parts rfl (by simp [parts])
  | _ => exact shows_text _

theorem shows_ofTokens (ts : List Token) : (ofTokens ts).Shows := by
  unfold ofTokens
  split
  · exact shows_of_parts rfl (List.forall_mem_nil _)
  · exact shows_ofToken _
  · exact shows_text _

end Value

/-- Some component values hold, at any depth, a length in the unit `em`. -/
def Token.HoldEm (ts : List Token) : Prop :=
  ∃ n unit, Text.lower unit = "em" ∧ Atom.dimension n unit ∈ atomsAll ts

theorem Token.HoldEm.subset {ts us : List Token} (h : HoldEm us) (hsub : us ⊆ ts) : HoldEm ts := by
  obtain ⟨n, unit, hunit, hmem⟩ := h
  exact ⟨n, unit, hunit, atomsAll_subset hsub hmem⟩

theorem Token.HoldEm.function {p : Position} {f : String} {arguments ts : List Token}
    (h : HoldEm arguments) (hmem : .function p f arguments ∈ ts) : HoldEm ts := by
  obtain ⟨n, unit, hunit, hatom⟩ := h
  exact ⟨n, unit, hunit, mem_atomsAll.mpr ⟨_, hmem, hatom⟩⟩

namespace Value

theorem em_of_waits_ofDimension {n : Numeral} {unit : String} (h : (ofDimension n unit).Waits) :
    Text.lower unit = "em" := by
  unfold ofDimension at h
  simp only at h
  split at h
  · exact absurd h (not_waits_number _)
  · split at h
    · simp at h
    · split at h
      · rename_i hem
        exact beq_iff_eq.mp hem
      · exact absurd h (not_waits_text _)

/-- The value of a component value waits only if it, or a fallback in it, is a length in `em`. -/
theorem em_of_waits_ofToken {t : Token} (h : (ofToken t).Waits) : Token.HoldEm [t] := by
  fun_induction ofToken t with
  | case1 p n => exact absurd h (not_waits_number _)
  | case2 p n unit =>
    exact ⟨n, unit, em_of_waits_ofDimension h,
      Token.mem_atomsAll.mpr ⟨_, List.mem_singleton.mpr rfl, List.mem_singleton.mpr rfl⟩⟩
  | case9 p f arguments hvar name hl => simp at h
  | case10 p f arguments hvar name t rest hl ih =>
    have hlayer : [t] ∈ Token.layers arguments := by
      rw [hl]
      exact List.mem_cons_of_mem _ List.mem_cons_self
    have hfallback : (ofToken t).Waits := by simpa using h
    have harguments : Token.HoldEm arguments :=
      (ih hfallback).subset fun _ hu => Token.mem_of_mem_layers hlayer hu
    exact harguments.function (List.mem_singleton.mpr rfl)
  | case11 p f arguments hvar name fallback rest hne hl => simp at h
  | _ => exact absurd h (not_waits_text _)

theorem em_of_waits_ofTokens {ts : List Token} (h : (ofTokens ts).Waits) : Token.HoldEm ts := by
  unfold ofTokens at h
  split at h
  · exact absurd h (not_waits_of_scalar rfl rfl)
  · rename_i t hsignificant
    refine (em_of_waits_ofToken h).subset ?_
    rw [← hsignificant]
    exact Token.significant_subset ts
  · exact absurd h (not_waits_text _)

end Value

/-! ## Declarations -/

/-- A shorthand adds values of its parts, whether it is added as one or part by part. -/
theorem Addition.value_of_mem_ofShorthand {pathOf : String → Option (List String)} {name : String}
    {parts : List (String × Value)} {a : Addition} (h : a ∈ ofShorthand pathOf name parts) :
    a.value ∈ parts.map (·.2) := by
  unfold ofShorthand at h
  split at h
  · cases h
  · split at h
    · rw [List.mem_singleton.mp h]
      exact List.mem_cons_self
    · obtain ⟨e, he, rfl⟩ := List.mem_map.mp h
      exact List.mem_map_of_mem he

theorem Instruction.value_of_mem_additions {i : Instruction} {a : Addition}
    (h : a ∈ i.additions) : a.value ∈ i.values := by
  cases i with
  | style name value path => exact List.mem_map_of_mem (f := Addition.value) h
  | transform name value => exact List.mem_map_of_mem (f := Addition.value) h
  | transformShorthand name parts => exact Addition.value_of_mem_ofShorthand h
  | styleShorthand name parts =>
    have h : a ∈ Addition.ofShorthand (fun _ => none) name parts := h
    exact Addition.value_of_mem_ofShorthand h
  | _ => cases h

namespace Declaration

/-- The values that properties are given for some component values: that of one of them or of all,
the zero that a translation is filled up with, and the calls of a list of transforms. -/
inductive Gives (ts : List Token) : Value → Prop where
  | one {t : Token} : t ∈ Token.significant ts → Gives ts (.ofToken t)
  | all : Gives ts (.ofTokens ts)
  | zero : Gives ts (.int 0)
  | transforms {calls : List Value} :
      transformCalls (Token.significant ts) = some calls → Gives ts (.list calls)

section Gives

variable (property : String) (ts : List Token)

theorem gives_of_mem_values : ∀ v ∈ values ts, Gives ts v := by
  intro v h
  obtain ⟨t, ht, rfl⟩ := List.mem_map.mp h
  exact .one ht

theorem rejected_gives : ∀ i ∈ rejected property ts, ∀ v ∈ i.values, Gives ts v := by
  simp [rejected, Instruction.values]

theorem box_gives (sides : String × String × String × String) :
    ∀ i ∈ box property sides ts, ∀ v ∈ i.values, Gives ts v := by
  have hgiven := gives_of_mem_values ts
  unfold box
  simp only
  split
  case h_5 => exact rejected_gives property ts
  all_goals simp_all [Instruction.values]

theorem gap_gives : ∀ i ∈ gap property ts, ∀ v ∈ i.values, Gives ts v := by
  have hgiven := gives_of_mem_values ts
  unfold gap
  split
  case h_3 => exact rejected_gives property ts
  all_goals simp_all [Instruction.values]

theorem scale_gives : ∀ i ∈ scale property ts, ∀ v ∈ i.values, Gives ts v := by
  have hgiven := gives_of_mem_values ts
  unfold scale
  split
  case h_3 => exact rejected_gives property ts
  all_goals simp_all [Instruction.values]

theorem measurement_gives (axis : Axis) (t : Token) :
    ∀ i ∈ measurement axis t, ∀ v ∈ i.values, Gives ts v := by
  unfold measurement
  split <;> simp [Instruction.values]

theorem translate_gives : ∀ i ∈ translate property ts, ∀ v ∈ i.values, Gives ts v := by
  have htokens : ∀ t ∈ Token.significant ts, Gives ts (.ofToken t) := fun t => .one
  have hzero : Gives ts (.int 0) := .zero
  unfold translate
  split
  · rename_i x hx
    rw [hx] at htokens
    simp only [List.forall_mem_append]
    refine ⟨measurement_gives ts _ _, ?_⟩
    simp_all [Instruction.values]
  · rename_i x y hxy
    rw [hxy] at htokens
    simp only [List.forall_mem_append]
    refine ⟨⟨measurement_gives ts _ _, measurement_gives ts _ _⟩, ?_⟩
    simp_all [Instruction.values]
  · exact rejected_gives property ts

theorem transform_gives : ∀ i ∈ transform property ts, ∀ v ∈ i.values, Gives ts v := by
  unfold transform
  split
  · rename_i calls hcalls
    simpa [Instruction.values] using Gives.transforms hcalls
  · exact rejected_gives property ts

theorem container_gives : ∀ i ∈ container property ts, ∀ v ∈ i.values, Gives ts v := by
  unfold container
  simp only
  split <;> simp [Instruction.values]

theorem known_gives : ∀ i ∈ known property ts, ∀ v ∈ i.values, Gives ts v := by
  have hall : Gives ts (.ofTokens ts) := .all
  unfold known
  simp only
  split
  case h_1 =>
    split
    · split <;> simp_all [Instruction.values]
    · simp [Instruction.values]
  case h_2 => exact gap_gives _ ts
  case h_3 => exact scale_gives _ ts
  case h_4 => exact translate_gives _ ts
  case h_6 => exact transform_gives _ ts
  case h_8 => exact container_gives _ ts
  case h_9 => exact container_gives _ ts
  case h_24 =>
    split
    · exact box_gives _ ts _
    · simpa [Instruction.values] using hall
  all_goals simp [Instruction.values, animationField, hall]

end Gives

/-- What a declaration adds to the plain properties has a value of this kind. -/
theorem read_gives {d : Declaration} {i : Instruction} (hi : i ∈ d.read) {a : Addition}
    (ha : a ∈ i.additions) (hplain : Name.isCustom a.name = false) :
    Gives (Token.ofText d.value) a.value := by
  have hvalue := Instruction.value_of_mem_additions ha
  unfold read at hi
  simp only at hi
  split at hi
  · rename_i hcustom
    rw [List.mem_singleton.mp hi] at ha
    rw [List.mem_singleton.mp ha, hcustom] at hplain
    cases hplain
  · split at hi
    · rw [List.mem_singleton.mp hi] at hvalue
      cases hvalue
    · exact known_gives _ _ i hi _ hvalue

/-! ## Transforms -/

/-- The calls of a list of transforms are those of its functions, with what stands between the
commas as arguments. -/
theorem mem_transformCalls {ts : List Token} {calls : List Value}
    (hcalls : transformCalls ts = some calls) {v : Value} (h : v ∈ calls) :
    ∃ p f arguments, .function p f arguments ∈ ts ∧
      v = .call f ((Token.layers arguments).map Value.ofTokens) false := by
  fun_induction transformCalls ts generalizing calls with
  | case1 =>
    cases hcalls
    cases h
  | case2 p f arguments rest others hrest ih =>
    cases hcalls
    rcases List.mem_cons.mp h with rfl | h
    · exact ⟨p, f, arguments, List.mem_cons_self, rfl⟩
    · obtain ⟨q, g, arguments', hmem, heq⟩ := ih hrest h
      exact ⟨q, g, arguments', List.mem_cons_of_mem _ hmem, heq⟩
  | case3 => cases hcalls
  | case4 t rest hnot hnone ih =>
    obtain ⟨q, g, arguments', hmem, heq⟩ := ih hcalls h
    exact ⟨q, g, arguments', List.mem_cons_of_mem _ hmem, heq⟩
  | case5 => cases hcalls

theorem Gives.shows {ts : List Token} {v : Value} (h : Gives ts v) : v.Shows := by
  cases h with
  | one ht => exact Value.shows_ofToken _
  | all => exact Value.shows_ofTokens ts
  | zero => exact Value.shows_of_parts rfl (List.forall_mem_nil _)
  | transforms hcalls =>
    refine Value.shows_of_hides rfl ?_
    intro w hmem hw
    obtain ⟨p, f, arguments, -, rfl⟩ := mem_transformCalls hcalls hmem
    obtain ⟨u, hu, hwaits⟩ : ∃ u ∈ (Token.layers arguments).map Value.ofTokens, u.Waits := by
      simpa using hw
    exact .argument hmem hu hwaits

theorem Gives.em_of_waits {ts : List Token} {v : Value} (h : Gives ts v) (hwaits : v.Waits) :
    Token.HoldEm ts := by
  cases h with
  | one ht =>
    refine (Value.em_of_waits_ofToken hwaits).subset ?_
    exact List.cons_subset.mpr ⟨Token.significant_subset ts ht, List.nil_subset _⟩
  | all => exact Value.em_of_waits_ofTokens hwaits
  | zero => exact absurd hwaits (Value.not_waits_number (.int 0))
  | transforms hcalls =>
    obtain ⟨call, hcall, hwaits⟩ := Value.waits_list.mp hwaits
    obtain ⟨p, f, arguments, hmem, rfl⟩ := mem_transformCalls hcalls hcall
    obtain ⟨layer, hlayer, hwaits⟩ : ∃ layer ∈ Token.layers arguments,
        (Value.ofTokens layer).Waits := by simpa using hwaits
    have harguments : Token.HoldEm arguments :=
      (Value.em_of_waits_ofTokens hwaits).subset fun _ ht => Token.mem_of_mem_layers hlayer ht
    exact harguments.function (Token.significant_subset ts hmem)

end Declaration

/-- Whatever a declaration adds to the declarations of a rule is deferred exactly if it waits for
layout and nothing in it does; then it is a length in `em`. What waits and is not deferred is a
`var` with a fallback that waits or a list of transforms with an argument that waits. Nothing waits
unless a length in `em` stands in the text. -/
theorem run_deferred (ctx : BuildContext) (draft : Draft) (d : Declaration) :
    ∃ added, (Draft.run ctx draft d.read).rule.declarations = draft.rule.declarations ++ added ∧
      ∀ x ∈ added,
        (x.deferred = true ↔ x.value.Waits ∧ ¬ x.value.Hides) ∧
        (x.value.Hides → x.value.Waits) ∧
        (x.deferred = true → ∃ n : Number, x.value = .call "em" [n.toValue] true) ∧
        (x.value.Waits → Token.HoldEm (Token.ofText d.value)) := by
  refine ⟨_, Draft.run_declarations ctx draft d.read, ?_⟩
  intro x hx
  obtain ⟨i, hi, hx⟩ := List.mem_flatMap.mp hx
  obtain ⟨a, ha, hdeclaration⟩ := List.mem_filterMap.mp hx
  obtain ⟨hplain, -, rfl⟩ := Addition.of_declaration? hdeclaration
  have hgives := Declaration.read_gives hi ha hplain
  exact ⟨hgives.shows.deferred, Value.Hides.waits, hgives.shows.em, hgives.em_of_waits⟩

/-- A translation by a length in `em`, and a width with such a fallback, wait and are not
deferred. -/
theorem deferral_lost_inside :
    let added (property value : String) : List StyleDeclaration :=
      (Draft.run {} { rule := { specificity := {} } }
        (Declaration.read { property, value })).rule.declarations
    (added "transform" "translate(2em)").length = 1 ∧
      (∀ x ∈ added "transform" "translate(2em)", x.value.Waits ∧ x.deferred = false) ∧
      (added "width" "var(--x, 2em)").length = 1 ∧
      ∀ x ∈ added "width" "var(--x, 2em)", x.value.Waits ∧ x.deferred = false := by
  decide +kernel

end StyleBundle
