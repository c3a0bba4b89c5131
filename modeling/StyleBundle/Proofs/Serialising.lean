import StyleBundle.Proofs.Encoding
import StyleBundle.Proofs.Progress

/-!
# StyleBundle.Proofs.Serialising

Which sources give bundles that can be written as JSON. Three things stand in the way: a decimal
that is too large for a double, an integer in a time that is, and a type of container that is a
call. Where no declaration that is reached has any of them and the progress of every frame is
finite, the bundle becomes a document that holds nothing but what JSON has, and its text spells that
document.

* `fileVariant_within`: the step of filing a rule.
* `extractAll_within`: the state after an extraction.
* `Animation.ofFrames_over`: the loop over frames.
* `ofSource_writes`: bundles.
-/

namespace StyleBundle

/-! ## Declarations -/

/-- Whether a value is a scalar. -/
def Value.isScalar : Value → Bool
  | .null | .bool _ | .int _ | .double _ | .text _ => true
  | _ => false

/-- Whether the number of a leaf can be written wherever it may stand. -/
def Atom.isEncodable : Atom → Bool
  | .number n => n.number.isFinite
  | .dimension n unit =>
    (!Value.isLengthUnit (Text.lower unit) || n.number.isFinite) &&
      (!Time.isUnit (Text.lower unit) || n.number.isWritable)
  | _ => true

/-- Whether all numbers of a declaration can be written, and the type of container that it gives, if
it gives one, is a scalar. -/
def Declaration.isEncodable (d : Declaration) : Bool :=
  let ts := Token.ofText d.value
  (Token.atomsAll ts).all (·.isEncodable) &&
    (d.property != "container-type" || (Value.ofTokens ts).isScalar)

/-- The declarations of a rule that holds no others. -/
def LeafRule.declarations : LeafRule → List Declaration
  | .style b => b.declarations ++ b.important
  | .keyframes k => k.frames.flatMap (·.declarations)
  | .directive _ | .unknown _ => []

theorem Atom.over_of_isEncodable {a : Atom} (h : a.isEncodable = true) : a.Over .json := by
  cases a with
  | number n => exact h
  | dimension n unit =>
    obtain ⟨hlength, htime⟩ := (Bool.and_eq_true _ _).mp h
    refine ⟨?_, ?_⟩
    · intro hunit
      rw [hunit] at hlength
      exact hlength
    · intro hunit
      rw [hunit] at htime
      exact htime
  | _ => exact trivial

theorem Value.isRaw_of_isScalar {v : Value} (hscalar : v.isScalar = true) (hover : v.Over .json) :
    v.IsRaw := by
  cases v with
  | double d => exact Number.strict_ofNumber hover
  | null => rfl
  | bool b => rfl
  | int n => rfl
  | text s => rfl
  | _ => cases hscalar

theorem Declaration.within_of_isEncodable {d : Declaration} (h : d.isEncodable = true) :
    d.Within .json Value.IsRaw := by
  obtain ⟨hnumbers, hkind⟩ := (Bool.and_eq_true _ _).mp h
  have hover : Token.Over .json (Token.ofText d.value) :=
    fun a ha => Atom.over_of_isEncodable (List.all_eq_true.mp hnumbers a ha)
  refine ⟨hover, ?_⟩
  intro hproperty
  rw [hproperty] at hkind
  exact Value.isRaw_of_isScalar hkind (Value.plain_ofTokens hover).numbers

theorem admits_encodable : Admits .json Value.IsRaw where
  zero := rfl
  one := rfl
  noTime := by
    change Number.isWritable (.int 0) = true
    decide +kernel
  null := rfl
  text _ := rfl

theorem Declaration.read_encodable {ds : List Declaration}
    (h : ∀ d ∈ ds, d.isEncodable = true) :
    ∀ d ∈ ds, ∀ i ∈ read d, i.Within .json Value.IsRaw :=
  fun d hd => read_within admits_encodable (within_of_isEncodable (h d hd))

/-! ## Rules and custom properties -/

section Filing

variable {P : Bounds} {Q : Value → Prop}

/-- What the rules and the custom properties of a state say is among the given numbers and types of
container. -/
structure State.Within (P : Bounds) (Q : Value → Prop) (s : State) : Prop where
  rules : ∀ e ∈ s.rules, ∀ r ∈ e.2, r.Within P Q
  rootVariables : s.rootVariables.Over P
  universalVariables : s.universalVariables.Over P
  rem : ∀ n, s.rem = some n → P.number n

theorem State.Within.addRule {s : State} (h : s.Within P Q) (key : String) {r : StyleRule}
    (hr : r.Within P Q) : (s.addRule key r).Within P Q := by
  refine { h with rules := ?_ }
  refine Table.forall_alter (R := fun _ rs => ∀ r ∈ rs, StyleRule.Within P Q r) h.rules ?_
  intro old hold
  refine List.forall_mem_append.mpr ⟨?_, List.forall_mem_singleton.mpr hr⟩
  cases old with
  | none => exact List.forall_mem_nil _
  | some rs => exact hold rs rfl

theorem Variables.Over.addAll {v : Variables} (h : v.Over P) (subtype : String)
    {entries : List (String × Value)} (hentries : ∀ e ∈ entries, e.2.Over P) :
    (v.addAll subtype entries).Over P := by
  refine List.foldlRecOn (motive := fun v : Variables => v.Over P) _ _ h ?_
  intro v hv e he
  refine Table.forall_alter (R := fun _ (t : Table Value) => ∀ e ∈ t, e.2.Over P) hv ?_
  intro old hold
  refine Table.forall_alter (R := fun _ (v : Value) => v.Over P) ?_ fun _ _ => hentries e he
  cases old with
  | none => exact List.forall_mem_nil _
  | some t => exact hold t rfl

theorem StyleRule.Within.fontSize? {r : StyleRule} (h : r.Within P Q) {n : Number}
    (hn : r.fontSize? = some n) : P.number n := by
  obtain ⟨d, hd, hsize⟩ := List.mem_filterMap.mp (List.mem_of_getLast? hn)
  have hover := (h.declarations d hd).numbers
  unfold StyleDeclaration.fontSize? at hsize
  split at hsize
  · cases hvalue : d.value with
    | int i =>
      rw [hvalue] at hover hsize
      cases hsize
      exact hover
    | double x =>
      rw [hvalue] at hover hsize
      cases hsize
      exact hover
    | _ =>
      rw [hvalue] at hsize
      cases hsize
  · cases hsize

theorem State.Within.addVariables {s : State} (h : s.Within P Q) (scope : Scope)
    (subtype : String) {r : StyleRule} (hr : r.Within P Q) :
    (s.addVariables scope subtype r).Within P Q := by
  have hentries : ∀ e ∈ r.customProperties.getD [], e.2.Over P :=
    fun e he => (hr.customProperties e he).numbers
  have hrem : ∀ n, (r.fontSize?.orElse fun _ => s.rem) = some n → P.number n := by
    intro n hn
    cases hsize : r.fontSize? with
    | none =>
      rw [hsize] at hn
      exact h.rem n hn
    | some m =>
      rw [hsize] at hn
      cases hn
      exact hr.fontSize? hsize
  cases scope with
  | root => exact { h with rem := hrem, rootVariables := h.rootVariables.addAll subtype hentries }
  | universal =>
    exact { h with
      rem := hrem
      universalVariables := h.universalVariables.addAll subtype hentries }

/-- Filing a rule keeps what a state says among the given numbers and types of container. The mark
of a group gives no type. -/
theorem fileVariant_within (hadmits : Admits P Q) {r : StyleRule} (hr : r.Within P Q) {s : State}
    (h : s.Within P Q) (v : Variant) : (State.fileVariant r s v).Within P Q := by
  cases v with
  | customProperties scope subtype => exact h.addVariables scope subtype hr
  | className target =>
    refine List.foldlRecOn (motive := fun s : State => s.Within P Q) _ _ h ?_
    intro s hs e he
    refine hs.addRule e.1 ?_
    rcases List.mem_append.mp he with he | he
    · obtain ⟨group, _, rfl⟩ := Option.map_eq_some_iff.mp (Option.mem_toList.mp he)
      refine { StyleRule.within_nil (P := P) (Q := Q) r.specificity with container := ?_ }
      rintro _ ⟨⟩
      exact hadmits.null
    · rw [List.mem_singleton.mp he]
      exact { hr with }

theorem SheetBlock.rules_within (hadmits : Admits P Q) {c : Settings} {p : SheetBlock}
    (h : ∀ d ∈ p.block.declarations ++ p.block.important, ∀ i ∈ c.read d, i.Within P Q)
    (order : Nat) : ∀ r ∈ p.rules c order, r.Within P Q := by
  have hrule : ∀ important, ∀ r ∈ (p.rule? c order important).toList, r.Within P Q := by
    intro important r hr
    obtain ⟨-, rfl⟩ := SheetBlock.rule?_eq_some_iff.mp (Option.mem_toList.mp hr)
    have hdeclarations : ∀ d ∈ p.block.declarationsOf important,
        d ∈ p.block.declarations ++ p.block.important := by
      intro d hd
      cases important with
      | false => exact List.mem_append_left _ hd
      | true => exact List.mem_append_right _ hd
    exact { buildRule_within hadmits _ _ fun d hd => h d (hdeclarations d hd) with }
  exact List.forall_mem_append.mpr ⟨hrule false, hrule true⟩

/-- The state after an extraction says nothing but what the declarations that are reached are read
into. -/
theorem extractAll_within (hadmits : Admits P Q) {c : Settings} {rules : List Rule}
    (h : ∀ l ∈ Sheet.reached rules, ∀ d ∈ l.rule.declarations, ∀ i ∈ c.read d, i.Within P Q)
    {s : State} (horder : 0 ≤ s.order) (hs : s.Within P Q) :
    (s.extractAll c {} rules).state.Within P Q := by
  refine extractAll_kept (P := fun s => s.Within P Q) ?_ horder hs
  intro s horder l hl hs
  obtain ⟨wrappers, rule⟩ := l
  cases rule with
  | style b =>
    refine addBlock_invariant (P := fun s => s.Within P Q) ?_ (fun s n hs => { hs with }) hs
    intro r hr s v hs
    have hdeclarations : ∀ d ∈ b.declarations ++ b.important, ∀ i ∈ c.read d, i.Within P Q := h _ hl
    exact fileVariant_within hadmits (SheetBlock.rules_within hadmits hdeclarations _ r hr) hs v
  | keyframes k =>
    rw [Leaf.perform, addKeyframes_state]
    exact { hs with }
  | directive d =>
    rw [Leaf.perform, addDirective_state]
    exact { hs with }
  | unknown kind => exact hs

end Filing

/-! ## Animations -/

/-- What a frame sets and how it is eased is among the given numbers. -/
structure RawFrame.Over (P : Bounds) (f : RawFrame) : Prop where
  values : ∀ v ∈ f.values, v.value.Over P
  easing : ∀ v, f.easing = some v → v.Over P

section Frames

variable {P : Bounds} {Q : Value → Prop}

theorem RawFrame.easing?_over {r : StyleRule} (h : r.Within P Q) {v : Value}
    (hv : RawFrame.easing? r = some v) : v.Over P := by
  unfold RawFrame.easing? at hv
  split at hv
  · cases hv
  · rename_i hfunctions
    cases hv
    exact (h.animations _ (Table.mem_of_get? hfunctions)).1
  · cases hv

theorem Keyframes.rawFrames_over (hadmits : Admits P Q) {ctx : BuildContext}
    {read : Declaration → List Instruction} {k : Keyframes}
    (h : ∀ frame ∈ k.frames, ∀ d ∈ frame.declarations, ∀ i ∈ read d, i.Within P Q) :
    ∀ f ∈ k.rawFrames ctx read, f.Over P := by
  intro f hf
  obtain ⟨frame, hframe, _, hvalues, heasing⟩ := Keyframes.mem_rawFrames hf
  have hbody : (frame.body ctx read).Within P Q := buildRule_within hadmits ctx {} (h frame hframe)
  refine ⟨?_, ?_⟩
  · intro v hv
    rw [hvalues] at hv
    obtain ⟨d, hd, hvalue⟩ := RawFrame.mem_valuesOf hv
    rw [← hvalue]
    exact (hbody.declarations d hd).numbers
  · intro v hv
    rw [heasing] at hv
    exact RawFrame.easing?_over hbody hv

namespace Animation

theorem addStep_over (hzero : P.number (.int 0)) (progress : Number) {distance : Number}
    (hdistance : P.number distance) {value : Value} (hvalue : value.Over P)
    {steps : Option (List AnimationStep)} (h : ∀ ss, steps = some ss → ∀ step ∈ ss, step.Over P) :
    ∀ step ∈ addStep progress distance value steps, step.Over P := by
  have hsteps : ∀ step ∈ steps.getD [], step.Over P := by
    cases steps with
    | none => exact List.forall_mem_nil _
    | some ss => exact h ss rfl
  have hlast : ∀ step ∈ [({ value, progress := distance } : AnimationStep)], step.Over P :=
    List.forall_mem_singleton.mpr ⟨hvalue, hdistance⟩
  unfold addStep
  refine List.forall_mem_append.mpr ⟨List.forall_mem_append.mpr ⟨hsteps, ?_⟩, hlast⟩
  split
  · exact List.forall_mem_singleton.mpr ⟨trivial, hzero⟩
  · exact List.forall_mem_nil _

theorem easings?_over {frames : List RawFrame} (h : ∀ f ∈ frames, f.Over P) :
    ∀ v ∈ (easings? frames).getD [], v.Over P := by
  intro v hv
  unfold easings? at hv
  rw [getD_nonempty] at hv
  obtain ⟨f, hf, rfl⟩ := List.mem_map.mp hv
  have hmem : f ∈ frames :=
    List.mem_reverse.mp ((List.dropWhile_suffix _).subset (List.mem_reverse.mp hf))
  cases heasing : f.easing with
  | none => exact trivial
  | some e => exact (h f hmem).easing e heasing

/-- The steps are as far apart as the frames are, and their values are those of the frames. -/
theorem ofFrames_over {S : Number → Prop} (hzero : P.number (.int 0)) (hstart : S zero)
    (hsub : ∀ m n d, S m → S n → m.sub? n = some d → P.number d) {name : String}
    {frames : List RawFrame} (hprogress : ∀ f ∈ frames, S f.progress)
    (hframes : ∀ f ∈ frames, f.Over P) {a : Animation} (h : ofFrames name frames = .ok a) :
    a.Over P := by
  obtain ⟨hloop, heasings⟩ := of_ofFrames h
  refine ⟨?_, ?_⟩
  · refine addFrames_invariant (J := Visits S)
      (I := fun t => ∀ e ∈ t, ∀ step ∈ e.2, AnimationStep.Over P step) Visits.next ?_
      ⟨hstart, hstart, hprogress⟩ (List.forall_mem_nil _) hloop
    intro previous current f hf rest d hround hd v hv t ht
    have hdistance : P.number d :=
      hsub _ _ _ (hround.frames f List.mem_cons_self)
        (Visits.next previous current f rest hround).previous hd
    refine Table.forall_alter
      (R := fun _ steps => ∀ step ∈ steps, AnimationStep.Over P step) ht ?_
    intro old hold
    exact addStep_over hzero _ hdistance ((hframes f hf).values v hv) hold
  · rw [heasings]
    exact easings?_over hframes

end Animation

end Frames

/-- A finite double of no more than `2 ^ k` units. -/
def Number.IsBelow (k : Nat) (n : Number) : Prop :=
  ∃ negative, ∃ units ≤ 2 ^ k, n = .double (.finite negative units)

theorem Number.IsBelow.sub? {m n d : Number} {k : Nat} (hm : m.IsBelow k) (hn : n.IsBelow k)
    (hk : k + 1 < 2098) (hd : m.sub? n = some d) : d.isFinite = true := by
  obtain ⟨a, x, hx, rfl⟩ := hm
  obtain ⟨b, y, hy, rfl⟩ := hn
  obtain ⟨negative, units, hsub⟩ := Double.sub_finite (a := a) (b := b) hx hy hk
  obtain rfl : Number.double (.sub (.finite a x) (.finite b y)) = d := Option.some.inj hd
  rw [hsub]
  rfl

/-- The hundredth part of a finite double is so far from the largest one that two of them can be
subtracted. -/
theorem Sheet.FrameProgress.isBelow {source : String} {n : Number} {k : Nat}
    (h : Sheet.FrameProgress (Token.atomsAll (Token.ofText source)) n) (hfinite : n.isFinite = true)
    (hone : 1074 ≤ k) (hlow : 2098 ≤ k + 6) (hhigh : k < 2098) : n.IsBelow k := by
  cases h with
  | start => exact ⟨false, 0, Nat.zero_le _, rfl⟩
  | finish =>
    exact ⟨false, Double.one, Double.one_le_two_pow hone, rfl⟩
  | @percentage n hmem =>
    obtain ⟨p, hp⟩ := Token.ofText_read source _ hmem
    cases hvalue : n.value with
    | nan =>
      rw [hvalue] at hfinite
      cases hfinite
    | infinite negative =>
      rw [hvalue] at hfinite
      cases hfinite
    | finite negative units =>
      have hlt : units < Double.limit := by
        rw [hp] at hvalue
        exact Double.ofDecimal_lt hvalue
      obtain ⟨rounded, hrounded, hpercent⟩ := Double.percent_le negative hlt hlow hhigh
      exact ⟨negative, rounded, hrounded, congrArg Number.double hpercent⟩

/-! ## Bundles -/

section Bundles

variable {source : String} {rules : List Rule} (hparse : (Sheet.parse source).result = .ok rules)
  (hprogress : ∀ k ∈ Sheet.keyframes rules, ∀ n ∈ k.allProgress, n.isFinite = true)

include hparse hprogress

theorem Sheet.animation_over {c : Settings} {name : String} {a : Animation} {k : Keyframes}
    (h : Sheet.Animates c rules name a k)
    (hread : ∀ l ∈ Sheet.reached rules, ∀ d ∈ l.rule.declarations, ∀ i ∈ c.read d,
      i.Within .json Value.IsRaw) : a.Over .json := by
  obtain ⟨a', ha', hframes, heasings⟩ := h.frames
  have hdeclarations : ∀ frame ∈ k.frames, ∀ d ∈ frame.declarations, ∀ i ∈ c.read d,
      i.Within .json Value.IsRaw := by
    obtain ⟨l, hl, hk⟩ := h.reached
    have hleaf := hread l hl
    rw [hk] at hleaf
    exact fun frame hframe d hd => hleaf d (List.mem_flatMap.mpr ⟨frame, hframe, hd⟩)
  have hbelow : ∀ f ∈ RawFrame.sort (k.rawFrames (c.buildContext []) c.read),
      f.progress.IsBelow 2092 := by
    intro f hf
    obtain ⟨hmem, hsource⟩ := h.progress hparse (RawFrame.mem_sort.mp hf)
    exact hsource.isBelow (hprogress k h.mem_keyframes _ hmem) (by decide) (by decide) (by decide)
  have hover : a'.Over .json := by
    have hstart : Animation.zero.IsBelow 2092 := ⟨false, 0, Nat.zero_le _, rfl⟩
    refine Animation.ofFrames_over admits_encodable.zero hstart ?_ hbelow ?_ ha'
    · intro m n d hm hn hd
      exact hm.sub? hn (by decide) hd
    · intro f hf
      exact Keyframes.rawFrames_over admits_encodable hdeclarations f (RawFrame.mem_sort.mp hf)
  refine ⟨?_, ?_⟩
  · rw [hframes]
    exact hover.steps
  · rw [heasings]
    exact hover.easings

theorem Bundle.compile_within
    (hdeclarations : ∀ l ∈ Sheet.reached rules, ∀ d ∈ l.rule.declarations, d.isEncodable = true)
    {c : Settings} (hreads : c.read = Declaration.read) {dark : DarkMode} {b : Bundle}
    (hb : (compile c { darkMode := dark } rules).result = .ok b) : b.Within .json Value.IsRaw := by
  rw [of_compile hb]
  have hread : ∀ l ∈ Sheet.reached rules, ∀ d ∈ l.rule.declarations, ∀ i ∈ c.read d,
      i.Within .json Value.IsRaw := by
    rw [hreads]
    exact fun l hl => Declaration.read_encodable (hdeclarations l hl)
  have hfresh : State.Within .json Value.IsRaw { darkMode := dark } :=
    ⟨List.forall_mem_nil _, List.forall_mem_nil _, List.forall_mem_nil _, nofun⟩
  have hstate := extractAll_within admits_encodable hread Int.one_nonneg hfresh
  refine ⟨?_, ?_, hstate.rootVariables, hstate.universalVariables, hstate.rem⟩
  · intro e he r hr
    obtain ⟨rs, hrs, hset⟩ := RuleSet.exists_of_mem_ofTable he
    rw [hset] at hr
    obtain ⟨r', hr', rfl⟩ := RuleSet.mem_ofRules hr
    exact { hstate.rules _ hrs r' hr' with }
  · intro e he
    obtain ⟨k, hk⟩ := extractAll_keyframes c _ rules e he
    exact Sheet.animation_over hparse hprogress hk hread

end Bundles

/-- A source that can be read gives a bundle whose document holds nothing but what JSON has, and the
text of it spells the document, if all declarations that are reached can be encoded and all progress
of frames are finite. -/
theorem ofSource_writes (source : String) (rules : List Rule)
    (hparse : (Sheet.parse source).result = .ok rules)
    (hdeclarations : ∀ l ∈ Sheet.reached rules, ∀ d ∈ l.rule.declarations, d.isEncodable = true)
    (hprogress : ∀ k ∈ Sheet.keyframes rules, ∀ n ∈ k.allProgress, n.isFinite = true) :
    ∃ b j, (Bundle.ofSource {} source).result = .ok b ∧ b.toJson = .ok j ∧ j.isStrict = true ∧
      ∀ indent, ∃ text, j.write indent = .ok text ∧ Json.Spells j text.toList := by
  let c : Settings :=
    { isGroup := Options.found [], ignores := Options.found [], classifier := .standard,
      read := Declaration.read }
  obtain ⟨b, hb⟩ := Bundle.compile_parsed (c := c) rfl {} hparse
  have hresult : (Bundle.ofSource {} source).result = .ok b := by
    rw [Bundle.ofSource_of_unarranged (c := c) rfl rfl, Bundle.ofParsed_of_parse hparse]
    exact hb
  obtain ⟨j, hj, hstrict⟩ :=
    Bundle.toJson_strict (Bundle.compile_within hparse hprogress hdeclarations rfl hb)
  exact ⟨b, j, hresult, hj, hstrict, fun indent => Json.write_spells indent hstrict⟩

/-- A type of container, a time, a progress and an integer that no double is. -/
theorem ofSource_writes_three_rules :
    let source := ".a\x7btransition:top 2s;container-type:size\x7d" ++
      "@keyframes k\x7b37.5%\x7bopacity:.5\x7d\x7d.c\x7bz-index:9007199254740993\x7d"
    ∃ rules b j, (Sheet.parse source).result = .ok rules ∧ (Sheet.reached rules).length = 3 ∧
      (∀ l ∈ Sheet.reached rules, ∀ d ∈ l.rule.declarations, d.isEncodable = true) ∧
      (∀ k ∈ Sheet.keyframes rules, ∀ n ∈ k.allProgress, n.isFinite = true) ∧
      (Bundle.ofSource {} source).result = .ok b ∧ b.toJson = .ok j ∧ j.isStrict = true ∧
      ∀ indent, ∃ text, j.write indent = .ok text ∧ Json.Spells j text.toList := by
  intro source
  have hchecks : (Sheet.parse source).result.toOption.map (fun rules =>
      ((Sheet.reached rules).length,
        (Sheet.reached rules).all fun l => l.rule.declarations.all Declaration.isEncodable,
        (Sheet.keyframes rules).all fun k => k.allProgress.all Number.isFinite)) =
        some (3, true, true) := by decide +kernel
  obtain ⟨rules, hparse, hchecks⟩ := exists_ok_of_map hchecks
  obtain ⟨hlength, hchecks⟩ := Prod.mk.inj hchecks
  obtain ⟨hencodable, hfinite⟩ := Prod.mk.inj hchecks
  have hdeclarations : ∀ l ∈ Sheet.reached rules, ∀ d ∈ l.rule.declarations,
      d.isEncodable = true :=
    fun l hl => List.all_eq_true.mp (List.all_eq_true.mp hencodable l hl)
  have hprogress : ∀ k ∈ Sheet.keyframes rules, ∀ n ∈ k.allProgress, n.isFinite = true :=
    fun k hk => List.all_eq_true.mp (List.all_eq_true.mp hfinite k hk)
  obtain ⟨b, j, hwritten⟩ := ofSource_writes source rules hparse hdeclarations hprogress
  exact ⟨rules, b, j, hparse, hlength, hdeclarations, hprogress, hwritten⟩

/-- All conditions are needed. A call that is a type of container and an integer beyond all doubles
in a time cannot be written at all; of a decimal beyond them, in a declaration or as an offset, an
infinite number stands in the document. -/
theorem accepted_beyond_json :
    let document (source : String) := (Bundle.ofSource {} source).result.bind Bundle.toJson
    let failure {α : Type} : Except Error α → Option String
      | .ok _ => none
      | .error e => some e.message
    let call := ".a\x7bcontainer-type:1rem\x7d"
    let length := ".a\x7bwidth:1e309px\x7d"
    let progress := "@keyframes a\x7b1e309%\x7bcolor:red\x7d\x7d"
    (∀ source ∈ [call, length, progress], (Bundle.ofSource {} source).result.isOk = true) ∧
      failure ((document call).bind (Json.write none)) =
        some "Object of type RuntimeFunction is not JSON serializable" ∧
      failure (Time.text { value := .int (10 ^ 309) }) = some "int too large to convert to float" ∧
      ∀ source ∈ [length, progress], (document source).toOption.map Json.isStrict = some false := by
  decide +kernel

end StyleBundle
