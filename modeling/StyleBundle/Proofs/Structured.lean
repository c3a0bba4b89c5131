import StyleBundle.Proofs.Extraction
import StyleBundle.Proofs.FrameOrder
import StyleBundle.Proofs.Reading

/-!
# StyleBundle.Proofs.Structured

Values that cannot be animated. An animation is refused if one of its frames sets a plain property
to a structured value; the first such setting, in the order of the progress of the frames, is the
one that is named, and the state is left as it was.

* `Value.Structured`, `Value.structured_iff`: the values that are refused.
* `Animation.addFrames_error`, `Animation.structured?_of_addFrames`: how the loop over the frames
  fails, and what it means that it does not.
* `Keyframes.Structured`, `Keyframes.structured_iff`: keyframes that have such a value.
* `extract_structured`: what becomes of keyframes.

Progress is subtracted from progress. If both are doubles, or integers that a double can hold,
that always gives a number; an integer that is too large stops the loop in its own way.
-/

namespace StyleBundle

/-! ## Structured values -/

namespace Value

/-- A value that is neither a scalar nor a call, or a list with such a value in it. -/
inductive Structured : Value → Prop where
  | time (t : Time) : Structured (.time t)
  | easing (kind : String) (args : List Value) : Structured (.easing kind args)
  | map (entries : List (String × Value)) : Structured (.map entries)
  | layer (property : String) (duration delay : Time) (kind : String) (args : List Value) :
      Structured (.layer property duration delay kind args)
  | item {items : List Value} {v : Value} : v ∈ items → Structured v → Structured (.list items)

theorem Structured.not_primitive {v : Value} (h : v.Structured) : v.isPrimitive = false := by
  induction h with
  | item hmem _ ih =>
    rw [isPrimitive, ← Bool.not_eq_true, arePrimitive_iff]
    intro hall
    rw [hall _ hmem] at ih
    cases ih
  | _ => rfl

mutual

theorem structured_of_not_primitive : ∀ v : Value, v.isPrimitive = false → v.Structured
  | .list items, h => by
    rw [isPrimitive] at h
    obtain ⟨v, hmem, hv⟩ := exists_structured items h
    exact .item hmem hv
  | .time t, _ => .time t
  | .easing kind args, _ => .easing kind args
  | .map entries, _ => .map entries
  | .layer property duration delay kind args, _ => .layer property duration delay kind args
  | .null, h => by cases h
  | .bool b, h => by cases h
  | .int n, h => by cases h
  | .double d, h => by cases h
  | .text s, h => by cases h
  | .call name args deferred, h => by cases h

theorem exists_structured : ∀ vs : List Value, arePrimitive vs = false → ∃ v ∈ vs, v.Structured
  | [], h => by cases h
  | v :: rest, h => by
    rw [arePrimitive, Bool.and_eq_false_iff] at h
    rcases h with hv | hrest
    · exact ⟨v, List.mem_cons_self, structured_of_not_primitive v hv⟩
    · obtain ⟨w, hmem, hw⟩ := exists_structured rest hrest
      exact ⟨w, List.mem_cons_of_mem _ hmem, hw⟩

end

theorem structured_iff {v : Value} : v.Structured ↔ v.isPrimitive = false :=
  ⟨Structured.not_primitive, structured_of_not_primitive v⟩

theorem not_structured_iff {v : Value} : ¬ v.Structured ↔ v.isPrimitive = true := by
  rw [structured_iff, Bool.not_eq_false]

instance (v : Value) : Decidable v.Structured := decidable_of_iff _ structured_iff.symm

end Value

/-! ## The loop over the frames -/

/-- The first of some values that is structured. -/
def FrameValue.structured? (values : List FrameValue) : Option FrameValue :=
  values.find? (·.value.Structured)

/-- The first structured value that frames set, in their order. -/
def RawFrame.structured? (frames : List RawFrame) : Option FrameValue :=
  FrameValue.structured? (frames.flatMap (·.values))

theorem FrameValue.structured?_eq_none_iff {values : List FrameValue} :
    structured? values = none ↔ ∀ v ∈ values, v.value.isPrimitive = true := by
  simp only [structured?, List.find?_eq_none, decide_eq_true_eq, Value.not_structured_iff]

theorem RawFrame.structured?_cons (f : RawFrame) (rest : List RawFrame) :
    structured? (f :: rest) = (FrameValue.structured? f.values).or (structured? rest) := by
  rw [structured?, List.flatMap_cons, FrameValue.structured?, List.find?_append]
  rfl

theorem RawFrame.structured?_ne_none_iff {frames : List RawFrame} :
    structured? frames ≠ none ↔ ∃ f ∈ frames, ∃ v ∈ f.values, v.value.Structured := by
  rw [Option.ne_none_iff_isSome, structured?, FrameValue.structured?, List.find?_isSome]
  simp only [decide_eq_true_eq, List.mem_flatMap]
  constructor
  · rintro ⟨v, ⟨f, hf, hv⟩, hstructured⟩
    exact ⟨f, hf, v, hv, hstructured⟩
  · rintro ⟨f, hf, v, hv, hstructured⟩
    exact ⟨v, ⟨f, hf, hv⟩, hstructured⟩

/-- A number that a double can hold, if only roughly. -/
def Number.Fits (n : Number) : Prop := n.toDouble?.isSome = true

theorem Number.Fits.sub? {m n : Number} (hm : m.Fits) (hn : n.Fits) : ∃ d, m.sub? n = some d := by
  obtain ⟨x, hx⟩ := Option.isSome_iff_exists.mp hm
  obtain ⟨y, hy⟩ := Option.isSome_iff_exists.mp hn
  unfold Number.sub?
  split
  · exact ⟨_, rfl⟩
  · rw [hx, hy]
    exact ⟨_, rfl⟩

namespace Animation

variable {name : String}

/-- The error for a structured value. -/
def refusal (name : String) (v : FrameValue) : Error := .structuredFrame name v.property v.value

theorem addValues_structured {progress distance : Number} {table : Table (List AnimationStep)}
    {values : List FrameValue} {v : FrameValue} (h : FrameValue.structured? values = some v) :
    addValues name progress distance table values = .error (refusal name v) := by
  induction values generalizing table with
  | nil => cases h
  | cons w rest ih =>
    unfold FrameValue.structured? at h ih
    rw [addValues]
    by_cases hw : w.value.Structured
    · rw [List.find?_cons_of_pos (by simpa using hw)] at h
      cases h
      rw [Value.structured_iff.mp hw]
      rfl
    · rw [List.find?_cons_of_neg (by simpa using hw)] at h
      rw [if_pos (Value.not_structured_iff.mp hw), ih h]

variable {previous current : Number} {table table' : Table (List AnimationStep)}
  {frames : List RawFrame}

/-- The loop fails at the first structured value, or before it if a progress does not fit. -/
theorem addFrames_error {e : Error} (h : addFrames name previous current table frames = .error e) :
    e = .integerTooLarge ∧ ¬ Visits Number.Fits previous current frames ∨
      ∃ v, RawFrame.structured? frames = some v ∧ e = refusal name v := by
  induction frames generalizing previous current table with
  | nil => cases h
  | cons f rest ih =>
    rw [addFrames_cons] at h
    rw [RawFrame.structured?_cons]
    split at h
    · rename_i hsub
      cases h
      refine .inl ⟨rfl, fun hfit => ?_⟩
      have hprevious : (advance previous current f).1.Fits := (hfit.next _ _ _ _).previous
      obtain ⟨d, hd⟩ := (hfit.frames f List.mem_cons_self).sub? hprevious
      rw [hd] at hsub
      cases hsub
    · rename_i d _
      cases hv : FrameValue.structured? f.values with
      | some v =>
        rw [addValues_structured hv] at h
        cases h
        exact .inr ⟨v, rfl, rfl⟩
      | none =>
        rw [addValues_ok name f.progress d (FrameValue.structured?_eq_none_iff.mp hv)] at h
        rw [Option.none_or]
        refine (ih h).imp_left fun ⟨he, hfit⟩ => ⟨he, fun hfits => hfit (hfits.next _ _ _ _)⟩

/-- The loop goes through only if no value is structured. -/
theorem structured?_of_addFrames
    (h : addFrames name previous current table frames = .ok table') :
    RawFrame.structured? frames = none := by
  induction frames generalizing previous current table with
  | nil => rfl
  | cons f rest ih =>
    rw [addFrames_cons] at h
    rw [RawFrame.structured?_cons]
    split at h
    · cases h
    · cases hv : FrameValue.structured? f.values with
      | some v =>
        rw [addValues_structured hv] at h
        cases h
      | none =>
        rw [addValues_ok _ _ _ (FrameValue.structured?_eq_none_iff.mp hv)] at h
        rw [Option.none_or]
        exact ih h

end Animation

/-! ## Keyframes -/

section

variable (ctx : BuildContext) (read : Declaration → List Instruction) (k : Keyframes)

/-- Keyframes one of whose frames has a progress and sets a plain property to a structured value. -/
def Keyframes.Structured : Prop :=
  ∃ frame ∈ k.frames, (∃ o ∈ frame.offsets, o.progress? ≠ none) ∧
    ∃ d ∈ (frame.body ctx read).declarations, (∃ p, d.target = .bare p) ∧ d.value.Structured

/-- Keyframes all of whose progress fits. -/
def Keyframes.Fit : Prop :=
  ∀ frame ∈ k.frames, ∀ o ∈ frame.offsets, ∀ n, o.progress? = some n → n.Fits

variable {ctx read k}

theorem RawFrame.mem_valuesOf_iff {r : StyleRule} {v : FrameValue} :
    v ∈ RawFrame.valuesOf r ↔
      ∃ d ∈ r.declarations, d.target = .bare v.property ∧ d.value = v.value := by
  rw [RawFrame.valuesOf, List.mem_filterMap]
  refine exists_congr fun d => and_congr_right fun _ => ?_
  obtain ⟨value, target, deferred⟩ := d
  obtain ⟨property, value'⟩ := v
  cases target with
  | bare name => simp
  | path steps => simp

/-- A keyframe that sets a plain property has a frame at each of its offsets. -/
theorem Keyframes.exists_rawFrame {frame : Keyframe} (hframe : frame ∈ k.frames) {o : Offset}
    (ho : o ∈ frame.offsets) (hprogress : o.progress? ≠ none) {v : FrameValue}
    (hv : v ∈ RawFrame.valuesOf (frame.body ctx read)) :
    ∃ f ∈ k.rawFrames ctx read, v ∈ f.values := by
  obtain ⟨n, hn⟩ := Option.ne_none_iff_exists'.mp hprogress
  refine ⟨⟨n, RawFrame.valuesOf (frame.body ctx read), RawFrame.easing? (frame.body ctx read)⟩,
    List.mem_flatMap.mpr ⟨frame, hframe, ?_⟩, hv⟩
  have hvalues : (RawFrame.valuesOf (frame.body ctx read)).isEmpty = false :=
    List.isEmpty_eq_false_iff_exists_mem.mpr ⟨v, hv⟩
  rw [Keyframe.rawFrames_eq, if_neg (by simp [hvalues])]
  exact List.mem_filterMap.mpr ⟨o, ho, by rw [hn]; rfl⟩

theorem Keyframes.structured_iff :
    k.Structured ctx read ↔ RawFrame.structured? (RawFrame.sort (k.rawFrames ctx read)) ≠ none := by
  rw [RawFrame.structured?_ne_none_iff]
  simp only [RawFrame.mem_sort]
  constructor
  · rintro ⟨frame, hframe, ⟨o, ho, hprogress⟩, d, hd, ⟨p, hp⟩, hstructured⟩
    have hv : ⟨p, d.value⟩ ∈ RawFrame.valuesOf (frame.body ctx read) :=
      RawFrame.mem_valuesOf_iff.mpr ⟨d, hd, hp, rfl⟩
    obtain ⟨f, hf, hvf⟩ := Keyframes.exists_rawFrame hframe ho hprogress hv
    exact ⟨f, hf, _, hvf, hstructured⟩
  · rintro ⟨f, hf, v, hv, hstructured⟩
    obtain ⟨frame, hframe, ⟨o, ho, hprogress⟩, hvalues, -⟩ := Keyframes.mem_rawFrames hf
    rw [hvalues] at hv
    obtain ⟨d, hd, htarget, hvalue⟩ := RawFrame.mem_valuesOf_iff.mp hv
    rw [← hvalue] at hstructured
    exact ⟨frame, hframe, ⟨o, ho, by simp [hprogress]⟩, d, hd, ⟨_, htarget⟩, hstructured⟩

theorem Number.fits_zero : Animation.zero.Fits := rfl

theorem Keyframes.Fit.visits (h : k.Fit) :
    Animation.Visits Number.Fits Animation.zero Animation.zero
      (RawFrame.sort (k.rawFrames ctx read)) := by
  refine ⟨Number.fits_zero, Number.fits_zero, ?_⟩
  intro f hf
  obtain ⟨frame, hframe, ⟨o, ho, hprogress⟩, -, -⟩ :=
    Keyframes.mem_rawFrames (RawFrame.mem_sort.mp hf)
  exact h frame hframe o ho _ hprogress

variable (ctx read k)

/-- What becomes of keyframes in a state, if their frames in order are the given ones. -/
structure Keyframes.Checked (R : List RawFrame) (s : State) (o : Outcome) : Prop where
  inOrder : RawFrame.InOrder (k.rawFrames ctx read) R
  found : k.Structured ctx read ↔ RawFrame.structured? R ≠ none
  /-- It is the first structured value that stops them, and nothing has changed then. -/
  stopped : ∀ e, o.failure = some e → o.state = s ∧
    (e = .integerTooLarge ∧ ¬ k.Fit ∨
      ∃ v, RawFrame.structured? R = some v ∧ e = .structuredFrame k.name v.property v.value)
  refused : k.Structured ctx read → o.failure ≠ none
  refused_iff : k.Fit →
    ((∃ name property value, o.failure = some (.structuredFrame name property value)) ↔
      k.Structured ctx read)

end

/-- Keyframes stop a state exactly if the loop over their frames, in order, fails. -/
theorem addKeyframes_failure_iff {c : Settings} {s : State} (hs : 0 ≤ s.order) {k : Keyframes}
    {e : Error} :
    (s.addKeyframes c k).failure = some e ↔
      Animation.addFrames k.name Animation.zero Animation.zero []
        (RawFrame.sort (k.rawFrames (c.buildContext []) c.read)) = .error e := by
  obtain ⟨width, height, hresult⟩ :=
    Animation.ofKeyframes_result (c.buildContext []) c.read hs k
  unfold State.addKeyframes Outcome.ofNoted
  rw [hresult, Animation.ofFrames]
  cases Animation.addFrames k.name Animation.zero Animation.zero []
      (RawFrame.sort (k.rawFrames (c.buildContext []) c.read)) with
  | error e' => simp [Except.map]
  | ok table => simp [Except.map]

/-- Keyframes with a structured value are refused and leave no trace. The error is that of their
first such value in the order of the frames, unless an integer is too large before it; so if all
progress fits, it is for structured values exactly that this error comes. -/
theorem extract_structured (c : Settings) (ctx : Context) (s : State) (hs : 0 ≤ s.order)
    (k : Keyframes) (hoffsets : ∀ f ∈ k.frames, ∀ o ∈ f.offsets, o ≠ .percentage (some .nan)) :
    ∃ R, k.Checked (c.buildContext []) c.read R s (s.extract c ctx (.keyframes k)) := by
  let R := RawFrame.sort (k.rawFrames (c.buildContext []) c.read)
  have hstopped : ∀ e, (s.addKeyframes c k).failure = some e →
      e = .integerTooLarge ∧ ¬ k.Fit ∨
        ∃ v, RawFrame.structured? R = some v ∧ e = .structuredFrame k.name v.property v.value := by
    intro e he
    exact (Animation.addFrames_error ((addKeyframes_failure_iff hs).mp he)).imp_left
      fun ⟨he, hfit⟩ => ⟨he, fun hk => hfit hk.visits⟩
  have hrefused : k.Structured (c.buildContext []) c.read →
      (s.addKeyframes c k).failure ≠ none := by
    intro hk hnone
    cases hframes : Animation.addFrames k.name Animation.zero Animation.zero [] R with
    | error e =>
      rw [← addKeyframes_failure_iff hs, hnone] at hframes
      cases hframes
    | ok table => exact Keyframes.structured_iff.mp hk (Animation.structured?_of_addFrames hframes)
  refine ⟨R, RawFrame.sort_inOrder (Keyframes.rawFrames_ne_nan hoffsets), Keyframes.structured_iff,
    ?_, hrefused, ?_⟩
  · intro e he
    exact ⟨addKeyframes_stopped he, hstopped e he⟩
  · intro hfit
    constructor
    · rintro ⟨name, property, value, hfailure⟩
      rcases hstopped _ hfailure with ⟨he, -⟩ | ⟨v, hv, -⟩
      · cases he
      · rw [Keyframes.structured_iff, hv]
        exact Option.some_ne_none v
    · intro hk
      obtain ⟨e, he⟩ := Option.ne_none_iff_exists'.mp (hrefused hk)
      rcases hstopped e he with ⟨-, hnot⟩ | ⟨v, -, rfl⟩
      · exact absurd hfit hnot
      · exact ⟨k.name, v.property, v.value, he⟩

/-- Reads every value as a list with a map in it. -/
def Declaration.readStructured (d : Declaration) : List Instruction :=
  [.style d.property (.list [.text d.value, .list [.map [("x", .int 1)]]]) none]

/-- The frame that is written last comes first; the animation of that name stays. -/
theorem extract_structured_last_written :
    let c : Settings := ⟨fun _ => false, fun _ => false, .standard, Declaration.readStructured⟩
    let s : State := { keyframes := [("k", {})] }
    let k : Keyframes := { name := "k", frames := [
      { offsets := [.finish], declarations := [⟨"box-shadow", "a"⟩] },
      { offsets := [.other "cover" none], declarations := [⟨"width", "a"⟩] },
      { offsets := [.finish, .start], declarations := [⟨"color", "red"⟩] }] }
    (0 ≤ s.order ∧ (∀ f ∈ k.frames, ∀ o ∈ f.offsets, o ≠ .percentage (some .nan)) ∧ k.Fit) ∧
      (s.extract c {} (.keyframes k)).failure.map Error.message =
        some ("@keyframes k: animated property 'color' resolved to a structured value " ++
          "['red', [\x7b'x': 1\x7d]]; only primitive values can be animated") ∧
      ∃ R, k.Checked (c.buildContext []) c.read R s (s.extract c {} (.keyframes k)) := by
  intro c s k
  have hoffsets : ∀ f ∈ k.frames, ∀ o ∈ f.offsets, o ≠ .percentage (some .nan) := by decide
  have hfit : k.Fit := by
    have hdoubles : ∀ f ∈ k.frames, ∀ o ∈ f.offsets, ∀ n ∈ o.progress?, n.Fits := by
      unfold Number.Fits
      decide
    exact hdoubles
  exact ⟨⟨by decide, hoffsets, hfit⟩, by decide +kernel,
    extract_structured c {} s (by decide) k hoffsets⟩

/-- An integer that no double can hold stops keyframes before their structured value does. -/
theorem integer_before_structured :
    let c : Settings := ⟨fun _ => false, fun _ => false, .standard, Declaration.readStructured⟩
    let k : Keyframes := { name := "k", frames := [
      { offsets := [.percentage (some (.int (10 ^ 360)))],
        declarations := [⟨"box-shadow", "a"⟩] }] }
    k.Structured (c.buildContext []) c.read ∧
      (State.extract c {} {} (.keyframes k)).failure.map Error.message =
        some (Error.message .integerTooLarge) := by
  intro c k
  refine ⟨⟨_, List.mem_singleton_self _, ⟨_, List.mem_singleton_self _, by decide⟩,
    _, List.mem_singleton_self _, ⟨"boxShadow", rfl⟩, ?_⟩, by decide +kernel⟩
  exact .item (List.mem_cons_of_mem _ List.mem_cons_self) (.item List.mem_cons_self (.map _))

end StyleBundle
