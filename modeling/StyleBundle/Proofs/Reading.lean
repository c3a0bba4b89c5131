import StyleBundle.Options
import StyleBundle.Proofs.Table
import StyleBundle.Proofs.Tokens

/-!
# StyleBundle.Proofs.Reading

What reading brings into rules. A declaration is read into values whose numbers all stand in its
text, but for the zero and the one that reading itself brings in, and the values that it gives to
properties can all be animated. So it is for the rule that declarations make.

* `Declaration.read_within`: the instructions of a declaration.
* `Draft.apply_within`: the step of carrying one out.
* `buildRule_within`: the rule that declarations make.
-/

namespace StyleBundle

/-- What is asked of numbers: of those that stand alone or are lengths, and of those of times. -/
structure Bounds where
  number : Number → Prop
  time : Number → Prop

variable {P : Bounds} {Q : Value → Prop}

/-- Whether a unit is one of those whose numbers become values. -/
def Value.isLengthUnit (unit : String) : Bool :=
  unit == "px" || hostUnits.contains unit || unit == "em"

def Time.isUnit (unit : String) : Bool := unit == "s" || unit == "ms"

/-- The number of a leaf is among the given ones. Percentages and other units stay text. -/
def Atom.Over (P : Bounds) : Atom → Prop
  | .number n => P.number n.number
  | .dimension n unit =>
    (Value.isLengthUnit (Text.lower unit) = true → P.number n.number) ∧
      (Time.isUnit (Text.lower unit) = true → P.time n.number)
  | _ => True

/-- All numbers of some component values, at any depth, are among the given ones. -/
def Token.Over (P : Bounds) (ts : List Token) : Prop := ∀ a ∈ atomsAll ts, a.Over P

theorem Token.Over.subset {ts us : List Token} (h : Token.Over P ts) (hsub : us ⊆ ts) :
    Token.Over P us := by
  intro a ha
  exact h a (Token.atomsAll_subset hsub ha)

theorem Token.Over.arguments {p : Position} {f : String} {arguments ts : List Token}
    (h : Token.Over P ts) (hmem : Token.function p f arguments ∈ ts) :
    Token.Over P arguments := by
  intro a ha
  exact h a (Token.mem_atomsAll.mpr ⟨_, hmem, ha⟩)

theorem Token.Over.layer {ts layer : List Token} (h : Token.Over P ts)
    (hlayer : layer ∈ Token.layers ts) : Token.Over P layer :=
  h.subset fun _ ht => Token.mem_of_mem_layers hlayer ht

theorem Token.Over.significant {ts : List Token} (h : Token.Over P ts) :
    Token.Over P (Token.significant ts) :=
  h.subset (Token.significant_subset ts)

theorem Token.Over.number {ts : List Token} (h : Token.Over P ts) {p : Position} {n : Numeral}
    (hmem : Token.atom p (.number n) ∈ ts) : P.number n.number :=
  h _ (Token.mem_atomsAll.mpr ⟨_, hmem, List.mem_singleton.mpr rfl⟩)

theorem Token.Over.dimension {ts : List Token} (h : Token.Over P ts) {p : Position} {n : Numeral}
    {unit : String} (hmem : Token.atom p (.dimension n unit) ∈ ts) :
    (Atom.dimension n unit).Over P :=
  h _ (Token.mem_atomsAll.mpr ⟨_, hmem, List.mem_singleton.mpr rfl⟩)

/-! ## Values -/

namespace Value

mutual

/-- All numbers of a value are among the given ones, and it holds no map and no layer of
transitions: no declaration is read into those. -/
def Over (P : Bounds) : Value → Prop
  | .null | .bool _ | .text _ => True
  | .int n => P.number (.int n)
  | .double d => P.number (.double d)
  | .list items => AllOver P items
  | .call _ args _ => AllOver P args
  | .time t => P.time t.value
  | .easing _ args => AllOver P args
  | .map _ | .layer _ _ _ _ _ => False

def AllOver (P : Bounds) : List Value → Prop
  | [] => True
  | v :: rest => v.Over P ∧ AllOver P rest

end

theorem allOver_iff {vs : List Value} : AllOver P vs ↔ ∀ v ∈ vs, v.Over P := by
  induction vs with
  | nil => simp [AllOver]
  | cons v rest ih => simp [AllOver, ih]

theorem arePrimitive_iff {vs : List Value} :
    arePrimitive vs = true ↔ ∀ v ∈ vs, v.isPrimitive = true := by
  induction vs with
  | nil => simp [arePrimitive]
  | cons v rest ih => simp [arePrimitive, ih]

/-- A value that can be animated and whose numbers are among the given ones. -/
structure Plain (P : Bounds) (v : Value) : Prop where
  primitive : v.isPrimitive = true
  numbers : v.Over P

theorem plain_null : Value.null.Plain P := ⟨rfl, trivial⟩

theorem plain_text (s : String) : (Value.text s).Plain P := ⟨rfl, trivial⟩

theorem plain_number {n : Number} (h : P.number n) : n.toValue.Plain P := by
  cases n with
  | int n => exact ⟨rfl, h⟩
  | double d => exact ⟨rfl, h⟩

theorem plain_call {args : List Value} (h : ∀ v ∈ args, v.Over P) (f : String) (deferred : Bool) :
    (Value.call f args deferred).Plain P :=
  ⟨rfl, allOver_iff.mpr h⟩

theorem plain_ofDimension {n : Numeral} {unit : String} (h : (Atom.dimension n unit).Over P) :
    (ofDimension n unit).Plain P := by
  have hargs : isLengthUnit (Text.lower unit) = true → ∀ v ∈ [n.number.toValue], v.Over P :=
    fun hunit => List.forall_mem_singleton.mpr (plain_number (h.1 hunit)).numbers
  unfold ofDimension
  simp only
  split
  · rename_i hpx
    exact plain_number (h.1 (by simp only [isLengthUnit, hpx, Bool.true_or]))
  · split
    · rename_i hhost
      exact plain_call (hargs (by simp only [isLengthUnit, hhost, Bool.or_true, Bool.true_or])) _ _
    · split
      · rename_i hem
        exact plain_call (hargs (by simp only [isLengthUnit, hem, Bool.or_true])) _ _
      · exact plain_text _

theorem plain_ofToken (t : Token) (h : Token.Over P [t]) : (ofToken t).Plain P := by
  fun_induction ofToken t with
  | case1 p n => exact plain_number (h.number (List.mem_singleton.mpr rfl))
  | case2 p n unit => exact plain_ofDimension (h.dimension (List.mem_singleton.mpr rfl))
  | case9 p f arguments hvar name hl =>
    refine plain_call ?_ _ _
    intro v hv
    rw [List.mem_singleton.mp hv]
    exact trivial
  | case10 p f arguments hvar name t rest hl ih =>
    have hlayer : [t] ∈ Token.layers arguments := by
      rw [hl]
      exact List.mem_cons_of_mem _ List.mem_cons_self
    have ht := ih ((h.arguments (List.mem_singleton.mpr rfl)).layer hlayer)
    refine plain_call ?_ _ _
    intro v hv
    rcases List.mem_cons.mp hv with rfl | hv
    · exact trivial
    · rw [List.mem_singleton.mp hv]
      exact ht.numbers
  | case11 p f arguments hvar name fallback rest hne hl =>
    refine plain_call ?_ _ _
    intro v hv
    rcases List.mem_cons.mp hv with rfl | hv
    · exact trivial
    · rw [List.mem_singleton.mp hv]
      exact trivial
  | _ => exact plain_text _

theorem plain_of_mem {ts : List Token} (h : Token.Over P ts) {t : Token} (ht : t ∈ ts) :
    (ofToken t).Plain P :=
  plain_ofToken t (h.subset (List.cons_subset.mpr ⟨ht, List.nil_subset _⟩))

theorem plain_ofTokens {ts : List Token} (h : Token.Over P ts) : (ofTokens ts).Plain P := by
  unfold ofTokens
  split
  · exact plain_null
  · rename_i t hsignificant
    refine plain_of_mem h.significant ?_
    rw [hsignificant]
    exact List.mem_singleton.mpr rfl
  · exact plain_text _

end Value

/-! ## Instructions -/

def Time.Over (P : Bounds) (t : Time) : Prop := P.time t.value

def Easing.Over (P : Bounds) (e : Easing) : Prop := ∀ v ∈ e.args, v.Over P

structure TransitionLayer.Over (P : Bounds) (l : TransitionLayer) : Prop where
  duration : l.duration.Over P
  delay : l.delay.Over P
  easing : l.easing.Over P

def TransitionSetting.Over (P : Bounds) : TransitionSetting → Prop
  | .durations times => ∀ t ∈ times, t.Over P
  | .delays times => ∀ t ∈ times, t.Over P
  | .easings es => ∀ e ∈ es, e.Over P
  | .layers ls => ∀ l ∈ ls, l.Over P
  | .properties _ | .unknown _ => True

def AnimationSetting.Over (P : Bounds) : AnimationSetting → Prop
  | .field _ value => value.Over P
  | .layers ls => ∀ l ∈ ls, ∀ e ∈ l, e.2.Over P

/-- All that an instruction brings into a rule is among the given numbers and types of container,
and the values of properties can be animated. -/
def Instruction.Within (P : Bounds) (Q : Value → Prop) : Instruction → Prop
  | .style _ value _ => value.Plain P
  | .transform _ value => value.Plain P
  | .transformShorthand _ parts => ∀ part ∈ parts, part.2.Plain P
  | .styleShorthand _ parts => ∀ part ∈ parts, part.2.Plain P
  | .container _ setting => Q setting.kind
  | .transition setting => setting.Over P
  | .animation setting => setting.Over P
  | .measure _ | .warn _ => True

/-- The values that an instruction gives to properties, one by one or as parts of a shorthand. -/
def Instruction.values : Instruction → List Value
  | .style _ value _ => [value]
  | .transform _ value => [value]
  | .transformShorthand _ parts => parts.map (·.2)
  | .styleShorthand _ parts => parts.map (·.2)
  | _ => []

/-- What reading brings in by itself: the numbers zero and one, the time zero, and types of
container that are words. -/
structure Admits (P : Bounds) (Q : Value → Prop) : Prop where
  zero : P.number (.int 0)
  one : P.number (.int 1)
  noTime : P.time (.int 0)
  null : Q .null
  text : ∀ s, Q (.text s)

/-- The numbers of a declaration are among the given ones, and so is the type of container that it
gives, if it gives one. -/
structure Declaration.Within (P : Bounds) (Q : Value → Prop) (d : Declaration) : Prop where
  numbers : Token.Over P (Token.ofText d.value)
  kind : d.property = "container-type" → Q (.ofTokens (Token.ofText d.value))

namespace Declaration

section Layers

variable {ts layer : List Token} {t : Token}

theorem time?_over (hzero : P.time (.int 0)) (h : Token.Over P ts) (ht : t ∈ ts) {time : Time}
    (htime : time? t = some time) : time.Over P := by
  unfold time? at htime
  split at htime
  · simp only at htime
    split at htime
    · rename_i hunit
      cases htime
      exact (h.dimension ht).2 hunit
    · cases htime
  · split at htime
    · cases htime
      exact hzero
    · cases htime
  · cases htime

theorem easing?_over (h : Token.Over P ts) (ht : t ∈ ts) {e : Easing} (he : easing? t = some e) :
    e.Over P := by
  unfold easing? at he
  split at he
  · simp only at he
    split at he
    · cases he
      intro v hv
      cases hv
    · cases he
  · simp only at he
    split at he
    · cases he
      intro v hv
      obtain ⟨u, hu, rfl⟩ := List.mem_map.mp hv
      exact (Value.plain_of_mem (h.arguments ht).significant (List.mem_filter.mp hu).1).numbers
    · cases he
  · cases he

theorem layerTime_over (hzero : P.time (.int 0)) (h : Token.Over P layer) :
    (layerTime layer).Over P := by
  unfold layerTime
  cases layer with
  | nil => exact hzero
  | cons t rest =>
    cases htime : time? t with
    | none =>
      simp only [List.head?_cons, Option.bind_some, htime, Option.getD_none]
      exact hzero
    | some time =>
      simp only [List.head?_cons, Option.bind_some, htime, Option.getD_some]
      exact time?_over hzero h List.mem_cons_self htime

theorem layerEasing_over (h : Token.Over P layer) : (layerEasing layer).Over P := by
  have hease : Easing.ease.Over P := by
    intro v hv
    cases hv
  unfold layerEasing
  cases layer with
  | nil => exact hease
  | cons t rest =>
    cases he : easing? t with
    | none => simpa [he] using hease
    | some e => simpa [he] using easing?_over h List.mem_cons_self he

theorem layerCount_over (h : Token.Over P layer) : (layerCount layer).Over P := by
  unfold layerCount
  split
  · exact (Value.plain_number (h.number List.mem_cons_self)).numbers
  · exact trivial

/-- What a component value sets in a layer of transitions is among the given numbers. -/
def TransitionPart.Over (P : Bounds) : TransitionPart → Prop
  | .time t => t.Over P
  | .easing e => e.Over P
  | .property _ | .nothing => True

theorem transitionPart_over (hzero : P.time (.int 0)) (h : Token.Over P ts) (ht : t ∈ ts) :
    (transitionPart t).Over P := by
  unfold transitionPart
  cases htime : time? t with
  | some time => exact time?_over hzero h ht htime
  | none =>
    cases he : easing? t with
    | some e => exact easing?_over h ht he
    | none =>
      cases t with
      | atom p a => cases a <;> exact trivial
      | function p f arguments => exact trivial
      | block p b content => exact trivial

theorem addTransitionPart_over (hzero : P.time (.int 0)) (h : Token.Over P ts) (ht : t ∈ ts)
    {s : TransitionLayer × Nat} (hs : s.1.Over P) : (addTransitionPart s t).1.Over P := by
  have hpart := transitionPart_over hzero h ht
  unfold addTransitionPart
  cases htransition : transitionPart t with
  | time time =>
    rw [htransition] at hpart
    simp only
    split
    · exact { hs with duration := hpart }
    · exact { hs with delay := hpart }
    · exact hs
  | easing e =>
    rw [htransition] at hpart
    exact { hs with easing := hpart }
  | property name => exact { hs with }
  | nothing => exact hs

theorem transitionLayer_over (hzero : P.time (.int 0)) (h : Token.Over P layer) :
    (transitionLayer layer).Over P := by
  have hstart : ({} : TransitionLayer).Over P := ⟨hzero, hzero, nofun⟩
  exact List.foldlRecOn (motive := fun s : TransitionLayer × Nat => s.1.Over P) _ _ hstart
    fun s hs t ht => addTransitionPart_over hzero h ht hs

def AnimationPart.Over (P : Bounds) : AnimationPart → Prop
  | .time t => t.Over P
  | .easing e => e.Over P
  | .count v => v.Over P
  | _ => True

structure AnimationLayer.Over (P : Bounds) (l : AnimationLayer) : Prop where
  duration : l.duration.Over P
  delay : l.delay.Over P
  easing : l.easing.Over P
  count : l.count.Over P

theorem animationKeyword_over (value : String) : (animationKeyword value).Over P := by
  unfold animationKeyword
  simp only
  split
  · exact trivial
  · repeat' split
    all_goals exact trivial

theorem animationPart_over (hzero : P.time (.int 0)) (h : Token.Over P ts) (ht : t ∈ ts) :
    (animationPart t).Over P := by
  unfold animationPart
  cases htime : time? t with
  | some time => exact time?_over hzero h ht htime
  | none =>
    cases he : easing? t with
    | some e => exact easing?_over h ht he
    | none =>
      cases t with
      | atom p a =>
        cases a with
        | number n => exact (Value.plain_number (h.number ht)).numbers
        | ident v => exact animationKeyword_over v
        | _ => exact trivial
      | function p f arguments => exact trivial
      | block p b content => exact trivial

theorem addAnimationPart_over (hzero : P.time (.int 0)) (h : Token.Over P ts) (ht : t ∈ ts)
    {s : AnimationLayer × Nat} (hs : s.1.Over P) : (addAnimationPart s t).1.Over P := by
  have hpart := animationPart_over hzero h ht
  unfold addAnimationPart
  cases hanimation : animationPart t with
  | time time =>
    rw [hanimation] at hpart
    simp only
    split
    · exact { hs with duration := hpart }
    · exact { hs with delay := hpart }
  | easing e =>
    rw [hanimation] at hpart
    exact { hs with easing := hpart }
  | count v =>
    rw [hanimation] at hpart
    exact { hs with count := hpart }
  | direction k => exact { hs with }
  | fillMode k => exact { hs with }
  | playState k => exact { hs with }
  | name v => exact { hs with }
  | nothing => exact hs

theorem animationLayer_over (hzero : P.time (.int 0)) (hone : P.number (.int 1))
    (h : Token.Over P layer) : (animationLayer layer).Over P := by
  have hstart : ({} : AnimationLayer).Over P := ⟨hzero, hzero, nofun, hone⟩
  exact List.foldlRecOn (motive := fun s : AnimationLayer × Nat => s.1.Over P) _ _ hstart
    fun s hs t ht => addAnimationPart_over hzero h ht hs

theorem AnimationLayer.Over.entries {l : AnimationLayer} (h : l.Over P) :
    ∀ e ∈ l.entries, e.2.Over P := by
  have hcases : ∀ v ∈ l.entries.map (·.2), v.Over P := by
    simp only [AnimationLayer.entries, List.map_cons, List.map_nil, List.forall_mem_cons]
    refine ⟨trivial, h.duration, Value.allOver_iff.mpr h.easing, h.delay, h.count, trivial,
      trivial, trivial, ?_⟩
    intro v hv
    cases hv
  intro e he
  exact hcases _ (List.mem_map_of_mem he)

end Layers

/-! ## Reading -/

section Read

variable (hadmits : Admits P Q) {ts : List Token} (h : Token.Over P ts) (property : String)

omit hadmits in
theorem forall_mem_single {i : Instruction} (hi : i.Within P Q) : ∀ j ∈ [i], j.Within P Q := by
  intro j hj
  rw [List.mem_singleton.mp hj]
  exact hi

theorem rejected_within : ∀ i ∈ rejected property ts, i.Within P Q := forall_mem_single trivial

include h in
theorem plain_of_mem_values {v : Value} (hv : v ∈ values ts) : v.Plain P := by
  obtain ⟨t, ht, rfl⟩ := List.mem_map.mp hv
  exact Value.plain_of_mem h.significant ht

include h in
theorem box_within (sides : String × String × String × String) :
    ∀ i ∈ box property sides ts, i.Within P Q := by
  have hplain : ∀ v ∈ values ts, v.Plain P := fun v hv => plain_of_mem_values h hv
  unfold box
  simp only
  split
  case h_5 => exact rejected_within property
  all_goals
    rename_i hvalues
    rw [hvalues] at hplain
    refine forall_mem_single ?_
    simp_all [Instruction.Within]

include h in
theorem gap_within : ∀ i ∈ gap property ts, i.Within P Q := by
  have hplain : ∀ v ∈ values ts, v.Plain P := fun v hv => plain_of_mem_values h hv
  unfold gap
  split
  case h_3 => exact rejected_within property
  all_goals
    rename_i hvalues
    rw [hvalues] at hplain
    refine forall_mem_single ?_
    simp_all [Instruction.Within]

include h in
theorem scale_within : ∀ i ∈ scale property ts, i.Within P Q := by
  have hplain : ∀ v ∈ values ts, v.Plain P := fun v hv => plain_of_mem_values h hv
  unfold scale
  split
  case h_3 => exact rejected_within property
  all_goals
    rename_i hvalues
    rw [hvalues] at hplain
    refine forall_mem_single ?_
    simp_all [Instruction.Within]

theorem measurement_within (axis : Axis) (t : Token) :
    ∀ i ∈ measurement axis t, i.Within P Q := by
  unfold measurement
  split
  · exact forall_mem_single trivial
  · intro i hi
    cases hi

include h in
theorem translate_within (hzero : P.number (.int 0)) :
    ∀ i ∈ translate property ts, i.Within P Q := by
  have hplain : ∀ t ∈ Token.significant ts, (Value.ofToken t).Plain P :=
    fun t ht => Value.plain_of_mem h.significant ht
  have hnone : (Value.int 0).Plain P := ⟨rfl, hzero⟩
  unfold translate
  split
  · rename_i x hx
    rw [hx] at hplain
    simp only [List.forall_mem_append]
    refine ⟨measurement_within _ _, forall_mem_single ?_⟩
    simp_all [Instruction.Within]
  · rename_i x y hxy
    rw [hxy] at hplain
    simp only [List.forall_mem_append]
    refine ⟨⟨measurement_within _ _, measurement_within _ _⟩, forall_mem_single ?_⟩
    simp_all [Instruction.Within]
  · exact rejected_within property

theorem transformCalls_plain {ts : List Token} (h : Token.Over P ts) {calls : List Value}
    (hcalls : transformCalls ts = some calls) : ∀ v ∈ calls, v.Plain P := by
  fun_induction transformCalls ts generalizing calls with
  | case1 =>
    cases hcalls
    intro v hv
    cases hv
  | case2 p f arguments rest others hrest ih =>
    cases hcalls
    have harguments := h.arguments List.mem_cons_self
    refine List.forall_mem_cons.mpr ⟨Value.plain_call ?_ f false, ?_⟩
    · intro v hv
      obtain ⟨layer, hlayer, rfl⟩ := List.mem_map.mp hv
      exact (Value.plain_ofTokens (harguments.layer hlayer)).numbers
    · exact ih (h.subset (List.subset_cons_self _ _)) hrest
  | case3 => cases hcalls
  | case4 t rest hnot hnone ih => exact ih (h.subset (List.subset_cons_self _ _)) hcalls
  | case5 => cases hcalls

include h in
theorem transform_within : ∀ i ∈ transform property ts, i.Within P Q := by
  unfold transform
  split
  · rename_i calls hcalls
    have hplain := transformCalls_plain h.significant hcalls
    refine forall_mem_single ⟨?_, ?_⟩
    · exact Value.arePrimitive_iff.mpr fun v hv => (hplain v hv).primitive
    · exact Value.allOver_iff.mpr fun v hv => (hplain v hv).numbers
  · exact rejected_within property

include hadmits in
theorem container_within : ∀ i ∈ container property ts, i.Within P Q := by
  unfold container
  cases hwords : containerWords false (Token.significant ts) with
  | mk names kinds =>
  simp only
  cases kinds.getLast? with
  | none => split <;> exact forall_mem_single hadmits.null
  | some k => split <;> exact forall_mem_single (hadmits.text k)

theorem animationField_within {items : List Value} (hitems : ∀ v ∈ items, v.Over P) :
    ∀ i ∈ animationField property items, i.Within P Q :=
  forall_mem_single (Value.allOver_iff.mpr hitems)

theorem forall_layers {α : Type} {f : List Token → α} {R : α → Prop}
    (hf : ∀ layer ∈ Token.layers ts, R (f layer)) : ∀ a ∈ (Token.layers ts).map f, R a := by
  intro a ha
  obtain ⟨layer, hlayer, rfl⟩ := List.mem_map.mp ha
  exact hf layer hlayer

include h in
theorem display_within : ∀ i ∈ known "display" ts, i.Within P Q := by
  unfold known
  simp only
  split
  · split
    · exact forall_mem_single (Value.plain_ofTokens h)
    · exact forall_mem_single trivial
  · exact forall_mem_single trivial

include hadmits h in
theorem known_within (hkind : property = "container-type" → Q (.ofTokens ts)) :
    ∀ i ∈ known property ts, i.Within P Q := by
  have hlayer : ∀ layer ∈ Token.layers ts, Token.Over P layer := fun _ hl => h.layer hl
  have htimes : ∀ t ∈ (Token.layers ts).map layerTime, t.Over P :=
    forall_layers fun l hl => layerTime_over hadmits.noTime (hlayer l hl)
  have htimes' : ∀ v ∈ (Token.layers ts).map fun l => Value.time (layerTime l), v.Over P :=
    forall_layers fun l hl => layerTime_over hadmits.noTime (hlayer l hl)
  have hvalues : ∀ v ∈ (Token.layers ts).map Value.ofTokens, v.Over P :=
    forall_layers fun l hl => (Value.plain_ofTokens (hlayer l hl)).numbers
  unfold known
  simp only
  split
  · exact display_within h
  · exact gap_within h _
  · exact scale_within h _
  · exact translate_within h _ hadmits.zero
  · exact forall_mem_single (Value.plain_ofTokens h)
  · exact transform_within h _
  · exact forall_mem_single (hkind rfl)
  · exact container_within hadmits _
  · exact container_within hadmits _
  · exact forall_mem_single
      (forall_layers fun l hl => transitionLayer_over hadmits.noTime (hlayer l hl))
  · exact forall_mem_single trivial
  · exact forall_mem_single htimes
  · exact forall_mem_single htimes
  · exact forall_mem_single (forall_layers fun l hl => layerEasing_over (hlayer l hl))
  · exact forall_mem_single (forall_layers fun l hl =>
      (animationLayer_over hadmits.noTime hadmits.one (hlayer l hl)).entries)
  · exact animationField_within _ htimes'
  · exact animationField_within _ htimes'
  · exact animationField_within _ (forall_layers fun l hl =>
      Value.allOver_iff.mpr (layerEasing_over (hlayer l hl)))
  · exact animationField_within _ (forall_layers fun l hl => layerCount_over (hlayer l hl))
  · exact animationField_within _ hvalues
  · exact animationField_within _ hvalues
  · exact animationField_within _ hvalues
  · exact animationField_within _ hvalues
  · split
    · exact box_within h _ _
    · exact forall_mem_single (Value.plain_ofTokens h)

end Read

theorem plain_customValue {source : String} {ts : List Token} (h : Token.Over P ts) :
    (customValue source ts).Plain P := by
  unfold customValue
  split
  · exact Value.plain_text _
  · exact Value.plain_ofTokens h

/-- What a declaration is read into brings in nothing but what stands in its text. -/
theorem read_within (hadmits : Admits P Q) {d : Declaration} (h : d.Within P Q) :
    ∀ i ∈ read d, i.Within P Q := by
  unfold read
  simp only
  split
  · exact forall_mem_single (plain_customValue h.numbers)
  · split
    · exact forall_mem_single trivial
    · exact known_within hadmits h.numbers _ h.kind

end Declaration

/-! ## Rules -/

structure Transition.Over (P : Bounds) (t : Transition) : Prop where
  duration : ∀ time ∈ t.duration.getD [], time.Over P
  delay : ∀ time ∈ t.delay.getD [], time.Over P
  easing : ∀ e ∈ t.easing.getD [], e.Over P

/-- What a rule says is among the given numbers and types of container, and the values of its
properties can be animated. -/
structure StyleRule.Within (P : Bounds) (Q : Value → Prop) (r : StyleRule) : Prop where
  declarations : ∀ d ∈ r.declarations, d.value.Plain P
  customProperties : ∀ e ∈ r.customProperties.getD [], e.2.Plain P
  animations : ∀ e ∈ r.animations.getD [], e.2.Over P
  transition : ∀ t, r.transition = some t → t.Over P
  container : ∀ c, r.container = some c → Q c.kind

theorem StyleRule.within_nil (specificity : Specificity) :
    StyleRule.Within P Q { specificity } where
  declarations := nofun
  customProperties := nofun
  animations := nofun
  transition := nofun
  container := nofun

theorem StyleRule.Within.addStyle {r : StyleRule} (h : r.Within P Q) (table : Relocations)
    (name : String) {value : Value} (hvalue : value.Plain P) (path : Option (List String)) :
    (r.addStyle table name value path).Within P Q := by
  unfold StyleRule.addStyle
  split
  · exact h
  · split
    · refine { h with customProperties := ?_ }
      simp only [StyleRule.addVariable, Option.getD_some, List.forall_mem_append]
      exact ⟨h.customProperties, List.forall_mem_singleton.mpr hvalue⟩
    · refine { h with declarations := ?_ }
      simp only [List.forall_mem_append]
      exact ⟨h.declarations, List.forall_mem_singleton.mpr hvalue⟩

theorem StyleRule.Within.addShorthand {r : StyleRule} (h : r.Within P Q) (table : Relocations)
    (pathOf : String → Option (List String)) (name : String) {parts : List (String × Value)}
    (hparts : ∀ part ∈ parts, part.2.Plain P) :
    (r.addShorthand table pathOf name parts).Within P Q := by
  unfold StyleRule.addShorthand
  split
  · exact h
  · split
    · exact h.addStyle table name (hparts _ List.mem_cons_self) _
    · exact List.foldlRecOn (motive := fun r : StyleRule => r.Within P Q) _ _ h
        fun r hr part hpart => hr.addStyle table _ (hparts part hpart) _

theorem Transition.orElse_over {α : Type} {R : α → Prop} {field : Option (List α)}
    (h : ∀ a ∈ field.getD [], R a) {layers : List TransitionLayer} {f : TransitionLayer → α}
    (hlayers : ∀ l ∈ layers, R (f l)) : ∀ a ∈ (orElse field layers f).getD [], R a := by
  unfold orElse
  cases field with
  | some items => exact h
  | none => exact List.forall_mem_map.mpr hlayers

theorem Transition.Over.apply {t : Transition} (h : t.Over P) {setting : TransitionSetting}
    (hsetting : setting.Over P) : (t.apply setting).Over P := by
  cases setting with
  | properties names => exact { h with }
  | durations times => exact { h with duration := hsetting }
  | delays times => exact { h with delay := hsetting }
  | easings es => exact { h with easing := hsetting }
  | layers ls =>
    exact {
      duration := orElse_over h.duration fun l hl => (hsetting l hl).duration
      delay := orElse_over h.delay fun l hl => (hsetting l hl).delay
      easing := orElse_over h.easing fun l hl => (hsetting l hl).easing }
  | unknown property => exact h

theorem AnimationSetting.grouped_over {ls : List (Table Value)}
    (h : ∀ l ∈ ls, ∀ e ∈ l, e.2.Over P) : ∀ e ∈ grouped ls, ∀ v ∈ e.2, v.Over P := by
  unfold grouped
  refine List.foldlRecOn (motive := fun t : Table (List Value) => ∀ e ∈ t, ∀ v ∈ e.2, v.Over P)
    _ _ nofun ?_
  intro t ht layer hlayer
  refine List.foldlRecOn (motive := fun t : Table (List Value) => ∀ e ∈ t, ∀ v ∈ e.2, v.Over P)
    _ _ ht ?_
  intro t ht e he
  refine Table.forall_alter (R := fun _ (vs : List Value) => ∀ v ∈ vs, v.Over P) ht ?_
  intro old hold
  refine List.forall_mem_append.mpr ⟨?_, List.forall_mem_singleton.mpr (h layer hlayer e he)⟩
  cases old with
  | none => nofun
  | some vs => exact hold vs rfl

theorem AnimationSetting.Over.apply {fields : Table Value} (h : ∀ e ∈ fields, e.2.Over P)
    {setting : AnimationSetting} (hsetting : setting.Over P) :
    ∀ e ∈ setting.apply fields, e.2.Over P := by
  cases setting with
  | field property value =>
    exact Table.forall_alter (R := fun _ (v : Value) => v.Over P) h fun _ _ => hsetting
  | layers ls =>
    have hgrouped := grouped_over hsetting
    refine List.foldlRecOn (motive := fun t : Table Value => ∀ e ∈ t, e.2.Over P) _ _ h ?_
    intro t ht e he
    refine Table.forall_alter (R := fun _ (v : Value) => v.Over P) ht ?_
    intro old hold
    cases old with
    | none => exact Value.allOver_iff.mpr (hgrouped e he)
    | some v => exact hold v rfl

theorem Container.apply_kind {c : Container} (h : Q c.kind) (property : String)
    {setting : ContainerSetting} (hsetting : Q setting.kind) :
    Q (c.apply property setting).kind := by
  unfold Container.apply
  simp only
  split
  · exact h
  · exact hsetting

theorem Draft.apply_within (hadmits : Admits P Q) (ctx : BuildContext) {d : Draft}
    (h : d.rule.Within P Q) {i : Instruction} (hi : i.Within P Q) :
    (d.apply ctx i).rule.Within P Q := by
  cases i with
  | style name value path => exact h.addStyle _ name hi path
  | transform name value => exact h.addStyle _ name hi none
  | transformShorthand name parts => exact h.addShorthand _ _ name hi
  | styleShorthand name parts => exact h.addShorthand _ (fun _ => none) name hi
  | container property setting =>
    refine { h with container := ?_ }
    rintro _ ⟨⟩
    refine Container.apply_kind ?_ property hi
    cases hc : d.rule.container with
    | none => exact hadmits.null
    | some c => exact h.container c hc
  | transition setting =>
    refine { h with transition := ?_ }
    rintro _ ⟨⟩
    refine Transition.Over.apply ?_ hi
    cases ht : d.rule.transition with
    | none => exact ⟨nofun, nofun, nofun⟩
    | some t => exact h.transition t ht
  | animation setting => exact { h with animations := AnimationSetting.Over.apply h.animations hi }
  | measure axis => cases axis <;> exact { h with }
  | warn w =>
    unfold Draft.apply
    simp only
    split
    · exact h
    · exact { h with }

/-- A rule that is built says nothing but what its declarations are read into. -/
theorem buildRule_within (hadmits : Admits P Q) (ctx : BuildContext)
    {read : Declaration → List Instruction} (specificity : Specificity) {ds : List Declaration}
    (h : ∀ d ∈ ds, ∀ i ∈ read d, i.Within P Q) :
    (buildRule ctx read specificity ds).rule.Within P Q := by
  refine List.foldlRecOn (motive := fun d : Draft => d.rule.Within P Q) _ _
    (StyleRule.within_nil specificity) ?_
  intro draft hdraft i hi
  obtain ⟨d, hd, hid⟩ := List.mem_flatMap.mp hi
  exact Draft.apply_within hadmits ctx hdraft (h d hd i hid)

end StyleBundle
