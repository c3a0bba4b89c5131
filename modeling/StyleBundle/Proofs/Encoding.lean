import StyleBundle.Bundle.Encode
import StyleBundle.Proofs.Reading
import StyleBundle.Proofs.Spelling

/-!
# StyleBundle.Proofs.Encoding

Which bundles become documents that hold nothing but what JSON has. Only numbers and types of
container can stand in the way: an integer in a time has to lie in the range of doubles, a double
that is written as a number has to be finite, and a type of container may not be a call.

* `Value.toJson_strict`: values.
* `StyleRule.toJson_strict`, `Animation.toJson_strict`: rules and animations.
* `Bundle.toJson_strict`: bundles.
-/

namespace StyleBundle

/-- A computation that goes through and gives something as asked for. -/
def Gives {α : Type} (R : α → Prop) (m : Except Error α) : Prop := ∃ a, m = .ok a ∧ R a

namespace Gives

variable {α β : Type} {R : α → Prop} {S : β → Prop}

theorem ok {a : α} (h : R a) : Gives R (.ok a) := ⟨a, rfl, h⟩

theorem bind {m : Except Error α} (hm : Gives R m) {f : α → Except Error β}
    (hf : ∀ a, R a → Gives S (f a)) : Gives S (m >>= f) := by
  obtain ⟨a, rfl, ha⟩ := hm
  exact hf a ha

theorem mapM {f : α → Except Error β} {xs : List α} (h : ∀ a ∈ xs, Gives S (f a)) :
    Gives (fun bs => ∀ b ∈ bs, S b) (xs.mapM f) := by
  induction xs with
  | nil => exact ok nofun
  | cons a rest ih =>
    obtain ⟨ha, hrest⟩ := List.forall_mem_cons.mp h
    rw [List.mapM_cons]
    refine ha.bind fun b hb => ?_
    refine (ih hrest).bind fun bs hbs => ?_
    exact ok (List.forall_mem_cons.mpr ⟨hb, hbs⟩)

end Gives

namespace Json

def Strict (j : Json) : Prop := j.isStrict = true

theorem areStrict_iff {items : List Json} : areStrict items = true ↔ ∀ j ∈ items, j.Strict := by
  induction items with
  | nil => simp [areStrict]
  | cons j rest ih => simp [areStrict, Strict, ih]

theorem haveStrict_iff {members : List (String × Json)} :
    haveStrict members = true ↔ ∀ m ∈ members, m.2.Strict := by
  induction members with
  | nil => simp [haveStrict]
  | cons m rest ih => simp [haveStrict, Strict, ih]

theorem strict_array {items : List Json} (h : ∀ j ∈ items, j.Strict) : (array items).Strict :=
  areStrict_iff.mpr h

theorem strict_object {members : List (String × Json)} (h : ∀ m ∈ members, m.2.Strict) :
    (object members).Strict :=
  haveStrict_iff.mpr h

theorem strict_compact {members : List (String × Json)} (h : ∀ m ∈ members, m.2.Strict) :
    (compact members).Strict :=
  strict_object fun m hm => h m (List.mem_filter.mp hm).1

theorem strict_ofTexts (items : List String) : (ofTexts items).Strict :=
  strict_array (List.forall_mem_map.mpr fun _ _ => rfl)

theorem strict_ofText? (s : Option String) : (ofText? s).Strict := by
  cases s <;> rfl

section Containers

variable {α : Type} {f : α → Except Error Json}

theorem arrayOf_strict {items : List α} (h : ∀ a ∈ items, Gives Strict (f a)) :
    Gives Strict (arrayOf f items) := by
  refine (Gives.mapM h).bind fun js hjs => ?_
  exact .ok (strict_array hjs)

theorem pairsOf_strict {entries : List (String × α)} (h : ∀ e ∈ entries, Gives Strict (f e.2)) :
    Gives Strict (pairsOf f entries) := by
  refine arrayOf_strict fun e he => ?_
  refine (h e he).bind fun j hj => ?_
  exact .ok (strict_array (List.forall_mem_cons.mpr ⟨rfl, List.forall_mem_singleton.mpr hj⟩))

theorem objectOf_strict {entries : List (String × α)} (h : ∀ e ∈ entries, Gives Strict (f e.2)) :
    Gives Strict (objectOf f entries) := by
  have hmembers : ∀ e ∈ entries, Gives (fun m : String × Json => m.2.Strict)
      (do return (e.1, ← f e.2)) :=
    fun e he => (h e he).bind fun j hj => .ok hj
  refine (Gives.mapM hmembers).bind fun ms hms => ?_
  exact .ok (strict_object hms)

end Containers

end Json

open Json

/-! ## Values -/

/-- Whether a number is finite. -/
def Number.isFinite : Number → Bool
  | .int _ | .double (.finite _ _) => true
  | .double _ => false

/-- Whether a time of so many units can be written: an integer has to lie in the range of
doubles. -/
def Number.isWritable (n : Number) : Bool := n.toDouble?.isSome

/-- Numbers and times that can be written as JSON. -/
def Bounds.json : Bounds where
  number n := n.isFinite = true
  time n := n.isWritable = true

theorem Number.strict_ofNumber {n : Number} (h : n.isFinite = true) : (ofNumber n).Strict := by
  cases n with
  | int n => rfl
  | double d =>
    cases d with
    | finite negative units => rfl
    | nan => cases h
    | infinite negative => cases h

theorem Number.toDouble?_int (n : Int) : (Number.int n).toDouble? = Double.ofInt? n := rfl

/-- What holds of both cases of a number. The cases are variables here, so that nothing is computed
when they are told apart. -/
theorem Number.forall_cases {α : Type} {R : α → Prop} {n : Number} {f : Int → α} {g : Double → α} :
    (∀ i, n = .int i → R (f i)) → (∀ d, n = .double d → R (g d)) →
      R (match n with | .int i => f i | .double d => g d) := by
  intro hf hg
  cases n with
  | int i => exact hf i rfl
  | double d => exact hg d rfl

theorem Time.text_ok {t : Time} (h : t.Over .json) : ∃ s, t.text = .ok s := by
  obtain ⟨_, hvalue⟩ := Option.isSome_iff_exists.mp h
  refine Number.forall_cases (R := fun e => ∃ s, e = Except.ok s) ?_ ?_
  · intro i hi
    rw [hi, Number.toDouble?_int] at hvalue
    rw [hvalue]
    exact ⟨_, rfl⟩
  · intro d _
    generalize d.toInt? = o
    cases o with
    | none => exact ⟨_, rfl⟩
    | some i => exact ⟨_, rfl⟩

namespace Value

theorem strict_callObject (name : String) {args : List Json} (h : ∀ j ∈ args, j.Strict)
    (deferred : Bool) : (callObject name args deferred).Strict := by
  have hcall : ∀ m ∈ [("fn", Json.text name), ("args", Json.array args)], m.2.Strict :=
    List.forall_mem_cons.mpr ⟨rfl, List.forall_mem_singleton.mpr (strict_array h)⟩
  refine strict_object (List.forall_mem_append.mpr ⟨hcall, ?_⟩)
  cases deferred with
  | false => nofun
  | true => exact List.forall_mem_singleton.mpr rfl

theorem strict_easingJson (kind : String) {args : List Json} (h : ∀ j ∈ args, j.Strict) :
    (easingJson kind args).Strict := by
  unfold easingJson
  split
  · rfl
  · exact strict_object
      (List.forall_mem_cons.mpr ⟨rfl, List.forall_mem_singleton.mpr (strict_array h)⟩)

mutual

theorem toJson_strict (v : Value) (h : v.Over .json) : Gives Strict v.toJson := by
  cases v with
  | null => exact .ok rfl
  | bool b => exact .ok rfl
  | int n => exact .ok rfl
  | double d => exact .ok (Number.strict_ofNumber h)
  | text s => exact .ok rfl
  | list items =>
    obtain ⟨js, hjs, hstrict⟩ := toJsons_strict items h
    refine ⟨.array js, ?_, strict_array hstrict⟩
    rw [toJson, hjs]
  | call name args deferred =>
    obtain ⟨js, hjs, hstrict⟩ := toJsons_strict args h
    refine ⟨callObject name js deferred, ?_, strict_callObject name hstrict deferred⟩
    rw [toJson, hjs]
  | time t =>
    obtain ⟨s, hs⟩ := Time.text_ok h
    refine ⟨.text s, ?_, rfl⟩
    rw [toJson, hs]
  | easing kind args =>
    obtain ⟨js, hjs, hstrict⟩ := toJsons_strict args h
    refine ⟨easingJson kind js, ?_, strict_easingJson kind hstrict⟩
    rw [toJson, hjs]
  | map entries => exact absurd h id
  | layer property duration delay easing args => exact absurd h id

theorem toJsons_strict (vs : List Value) (h : AllOver .json vs) :
    Gives (fun js => ∀ j ∈ js, j.Strict) (toJsons vs) := by
  cases vs with
  | nil => exact .ok nofun
  | cons v rest =>
    obtain ⟨j, hj, hstrict⟩ := toJson_strict v h.1
    obtain ⟨js, hjs, hrest⟩ := toJsons_strict rest h.2
    refine ⟨j :: js, ?_, List.forall_mem_cons.mpr ⟨hstrict, hrest⟩⟩
    rw [toJsons, hj]
    simp only [hjs]

end

end Value

/-- A value that is JSON already. -/
def Value.IsRaw (v : Value) : Prop := v.rawJson.Strict

/-! ## Rules -/

theorem Target.toJson_strict (t : Target) : t.toJson.Strict := by
  cases t with
  | bare name => rfl
  | path steps => exact strict_ofTexts steps

theorem StyleDeclaration.toJson_strict {d : StyleDeclaration}
    (h : d.value.Over .json) : Gives Strict d.toJson := by
  refine (Value.toJson_strict d.value h).bind fun j hj => .ok ?_
  have hpair : ∀ i ∈ [j, d.target.toJson], i.Strict :=
    List.forall_mem_cons.mpr ⟨hj, List.forall_mem_singleton.mpr d.target.toJson_strict⟩
  refine strict_array (List.forall_mem_append.mpr ⟨hpair, ?_⟩)
  split
  · exact List.forall_mem_singleton.mpr rfl
  · nofun

theorem Time.toJson_strict {t : Time} (h : t.Over .json) : Gives Strict t.toJson := by
  obtain ⟨s, hs⟩ := Time.text_ok h
  unfold Time.toJson
  rw [hs]
  exact .ok rfl

theorem Easing.toJson_strict {e : Easing} (h : e.Over .json) : Gives Strict e.toJson :=
  Value.toJson_strict e.toValue (Value.allOver_iff.mpr h)

theorem Transition.toJson_strict {t : Transition} (h : t.Over .json) :
    Gives Strict t.toJson := by
  unfold Transition.toJson
  refine (arrayOf_strict fun s hs =>
    Time.toJson_strict (h.duration s hs)).bind fun _ hduration => ?_
  refine (arrayOf_strict fun s hs => Time.toJson_strict (h.delay s hs)).bind fun _ hdelay => ?_
  refine (arrayOf_strict fun e he => Easing.toJson_strict (h.easing e he)).bind fun _ heasing => ?_
  refine .ok (strict_compact ?_)
  simp only [List.forall_mem_cons]
  exact ⟨strict_ofTexts _, hduration, hdelay, heasing, nofun⟩

theorem ContainerNames.toJson_strict (names : ContainerNames) : names.toJson.Strict := by
  cases names with
  | unset => rfl
  | cleared => rfl
  | named names => exact strict_ofTexts names

theorem Container.toJson_strict {c : Container} (h : c.kind.IsRaw) : c.toJson.Strict :=
  strict_object
    (List.forall_mem_cons.mpr ⟨c.names.toJson_strict, List.forall_mem_singleton.mpr h⟩)

theorem ContainerQuery.toJson_strict (q : ContainerQuery) : q.toJson.Strict := by
  refine strict_compact ?_
  simp only [List.forall_mem_cons]
  exact ⟨strict_ofText? _, strict_ofText? _, strict_ofTexts _, strict_ofTexts _, nofun⟩

theorem Specificity.toJson_strict (s : Specificity) : s.toJson.Strict :=
  strict_array (List.forall_mem_map.mpr fun _ _ => rfl)

theorem StyleRule.toJson_strict {r : StyleRule} (h : r.Within .json Value.IsRaw) :
    Gives Strict r.toJson := by
  have hcontainer : ((r.container.map Container.toJson).getD .null).Strict := by
    cases hc : r.container with
    | none => rfl
    | some c => exact Container.toJson_strict (h.container c hc)
  unfold StyleRule.toJson
  refine (arrayOf_strict fun d hd =>
    StyleDeclaration.toJson_strict (h.declarations d hd).numbers).bind fun _ hdeclarations => ?_
  refine (pairsOf_strict fun e he =>
    Value.toJson_strict e.2 (h.customProperties e he).numbers).bind fun _ hcustom => ?_
  refine (objectOf_strict fun e he =>
    Value.toJson_strict e.2 (h.animations e he)).bind fun _ hanimations => ?_
  extract_lets finish
  have hfinish : ∀ j, j.Strict → Gives Strict (finish j) := by
    intro j hj
    refine .ok (strict_compact ?_)
    simp only [List.forall_mem_cons]
    refine ⟨r.specificity.toJson_strict, hdeclarations, hcustom, strict_ofTexts _, ?_,
      strict_ofTexts _, strict_ofTexts _, hanimations, hj, hcontainer, rfl, rfl, nofun⟩
    exact strict_array (List.forall_mem_map.mpr fun q _ => q.toJson_strict)
  cases ht : r.transition with
  | none => exact hfinish .null rfl
  | some t => exact (Transition.toJson_strict (h.transition t ht)).bind hfinish

/-- All rules of a rule set, important ones last. -/
def RuleSet.all (s : RuleSet) : List StyleRule := s.normal.getD [] ++ s.important.getD []

theorem RuleSet.toJson_strict {s : RuleSet}
    (h : ∀ r ∈ s.all, r.Within .json Value.IsRaw) : Gives Strict s.toJson := by
  obtain ⟨hnormal, himportant⟩ := List.forall_mem_append.mp h
  unfold RuleSet.toJson
  refine (arrayOf_strict fun r hr => StyleRule.toJson_strict (hnormal r hr)).bind fun _ hn => ?_
  refine (arrayOf_strict fun r hr => StyleRule.toJson_strict (himportant r hr)).bind fun _ hi => ?_
  refine .ok (strict_compact ?_)
  simp only [List.forall_mem_cons]
  exact ⟨hn, hi, strict_ofTexts _, rfl, rfl, rfl, rfl, rfl, rfl, nofun⟩

/-! ## Animations and bundles -/

/-- All numbers of a step are among the given ones. -/
structure AnimationStep.Over (P : Bounds) (step : AnimationStep) : Prop where
  value : step.value.Over P
  progress : P.number step.progress

structure Animation.Over (P : Bounds) (a : Animation) : Prop where
  steps : ∀ e ∈ a.frames, ∀ step ∈ e.2, step.Over P
  easings : ∀ v ∈ a.easings.getD [], v.Over P

def Variables.Over (P : Bounds) (v : Variables) : Prop := ∀ e ∈ v, ∀ t ∈ e.2, t.2.Over P

/-- What a bundle says is among the given numbers and types of container. -/
structure Bundle.Within (P : Bounds) (Q : Value → Prop) (b : Bundle) : Prop where
  rules : ∀ e ∈ b.rules, ∀ r ∈ e.2.all, r.Within P Q
  keyframes : ∀ e ∈ b.keyframes, e.2.Over P
  rootVariables : b.rootVariables.Over P
  universalVariables : b.universalVariables.Over P
  rem : ∀ n, b.rem = some n → P.number n

theorem Animation.toJson_strict {a : Animation} (h : a.Over .json) :
    Gives Strict a.toJson := by
  have hstep : ∀ e ∈ a.frames, ∀ step ∈ e.2, Gives Strict step.toJson := by
    intro e he step hstep
    have hover := h.steps e he step hstep
    refine (Value.toJson_strict step.value hover.value).bind fun j hj => ?_
    have hprogress := Number.strict_ofNumber hover.progress
    exact .ok (strict_object
      (List.forall_mem_cons.mpr ⟨hj, List.forall_mem_singleton.mpr hprogress⟩))
  unfold Animation.toJson
  refine (pairsOf_strict fun e he => arrayOf_strict (hstep e he)).bind fun _ hframes => ?_
  refine (arrayOf_strict fun v hv =>
    Value.toJson_strict v (h.easings v hv)).bind fun _ heasings => ?_
  refine .ok (strict_compact ?_)
  simp only [List.forall_mem_cons]
  exact ⟨hframes, heasings, rfl, rfl, nofun⟩

theorem Variables.toJson_strict {v : Variables} (h : v.Over .json) :
    Gives Strict v.toJson :=
  objectOf_strict fun e he => objectOf_strict fun t ht => Value.toJson_strict t.2 (h e he t ht)

theorem Value.rawJsons_texts (ws : List String) : rawJsons (ws.map .text) = ws.map .text := by
  induction ws with
  | nil => rfl
  | cons w rest ih => rw [List.map_cons, rawJsons, ih]; rfl

theorem Flag.toValue_isRaw (f : Flag) : f.toValue.IsRaw := by
  cases f with
  | on => rfl
  | text s => rfl
  | words ws =>
    unfold Value.IsRaw Flag.toValue
    rw [Value.rawJson, Value.rawJsons_texts]
    exact strict_ofTexts ws

/-- A bundle whose numbers and times can be written and whose types of container are JSON already
becomes a document that holds nothing but what JSON has. -/
theorem Bundle.toJson_strict {b : Bundle} (h : b.Within .json Value.IsRaw) :
    Gives Strict b.toJson := by
  have hflags : (Json.object (b.flags.map fun e => (e.1, e.2.toValue.rawJson))).Strict :=
    strict_object (List.forall_mem_map.mpr fun e _ => e.2.toValue_isRaw)
  unfold Bundle.toJson
  refine (pairsOf_strict fun e he => RuleSet.toJson_strict (h.rules e he)).bind fun _ hrules => ?_
  refine (pairsOf_strict fun e he =>
    Animation.toJson_strict (h.keyframes e he)).bind fun _ hkeyframes => ?_
  refine (Variables.toJson_strict h.rootVariables).bind fun _ hroot => ?_
  refine (Variables.toJson_strict h.universalVariables).bind fun _ huniversal => ?_
  refine .ok (strict_object (List.forall_mem_append.mpr ⟨?_, ?_⟩))
  · simp only [List.forall_mem_cons]
    exact ⟨rfl, hrules, hkeyframes, hroot, huniversal, hflags, nofun⟩
  · cases hrem : b.rem with
    | none => nofun
    | some n => exact List.forall_mem_singleton.mpr (Number.strict_ofNumber (h.rem n hrem))

end StyleBundle
