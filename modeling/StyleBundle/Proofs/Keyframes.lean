import StyleBundle.Proofs.Build
import StyleBundle.Proofs.Sorting
import StyleBundle.Proofs.Table

/-!
# StyleBundle.Proofs.Keyframes

Animations as a loop over frames in the order of their progress.

* `Animation.ofKeyframes_ok`: an animation is that of its frames put in order.
* `Animation.ofKeyframes_result`: from an order number that is not below zero, collecting the frames
  cannot fail.
* `Keyframes.mem_rawFrames`: where a frame comes from.
* `Animation.addFrames_total`: the loop goes through if every difference of progress is there and
  every value can be animated.
* `Animation.addFrames_ok`: the loop puts in the values that the frames set, one after the other;
  so it keeps what adding a step keeps (`Animation.addFrames_invariant`).
-/

namespace StyleBundle

section

variable (ctx : BuildContext) (read : Declaration → List Instruction)

/-- What the declarations of a keyframe say. -/
def Keyframe.body (k : Keyframe) : StyleRule := (buildRule ctx read {} k.declarations).rule

/-- The plain properties that the declarations of a keyframe set, with the values they are set to,
in the order of the declarations. -/
def Keyframe.plainValues (k : Keyframe) : List FrameValue :=
  (k.body ctx read).declarations.flatMap fun d =>
    match d.target with
    | .bare property => [{ property, value := d.value }]
    | .path _ => []

/-- The frames of a keyframe, if it sets a plain property: one at zero for the start, one at one for
the finish and one at its number for a percentage, each with all values that are set. There is none
at an offset of another kind or at a percentage without a number. -/
def Keyframe.rawFrames (k : Keyframe) : List RawFrame :=
  let values := k.plainValues ctx read
  let easing := RawFrame.easing? (k.body ctx read)
  if values.isEmpty then []
  else k.offsets.flatMap fun
    | .start => [{ progress := .double (.finite false 0), values, easing }]
    | .finish => [{ progress := .double (.finite false Double.one), values, easing }]
    | .percentage (some n) => [{ progress := n, values, easing }]
    | .percentage none => []
    | .other _ _ => []

/-- The frames of an animation, in the order of the source. -/
def Keyframes.rawFrames (k : Keyframes) : List RawFrame := k.frames.flatMap (·.rawFrames ctx read)

theorem RawFrame.valuesOf_body (k : Keyframe) :
    RawFrame.valuesOf (k.body ctx read) = k.plainValues ctx read := by
  rw [Keyframe.plainValues, RawFrame.valuesOf, List.filterMap_eq_flatMap_toList]
  congr 1
  funext d
  cases d.target with
  | bare property => rfl
  | path steps => rfl

/-- The frames of a keyframe are those at its offsets, if it sets a plain property. -/
theorem Keyframe.rawFrames_eq (k : Keyframe) :
    k.rawFrames ctx read =
      if (RawFrame.valuesOf (k.body ctx read)).isEmpty then []
      else RawFrame.atOffsets k.offsets (RawFrame.valuesOf (k.body ctx read))
        (RawFrame.easing? (k.body ctx read)) := by
  rw [RawFrame.valuesOf_body, Keyframe.rawFrames, RawFrame.atOffsets,
    List.filterMap_eq_flatMap_toList]
  congr 2
  funext o
  cases o with
  | percentage n => cases n <;> rfl
  | _ => rfl

variable {order : Int}

theorem RawFrame.rule_ok {k : Keyframe} {r : StyleRule}
    (hr : (RawFrame.rule ctx read order k).result = .ok r) :
    r.body = (k.body ctx read).body := by
  unfold RawFrame.rule at hr
  simp only [bind, Noted.bind, Noted.ofExcept, Noted.withNotes] at hr
  split at hr
  · cases hr
    rw [buildRule_eq]
    rfl
  · cases hr

theorem RawFrame.addKeyframe_ok {s s' : FrameSet} {k : Keyframe}
    (hs' : (RawFrame.addKeyframe ctx read order s k).result = .ok s') :
    s'.frames = s.frames ++ k.rawFrames ctx read := by
  unfold RawFrame.addKeyframe at hs'
  rw [Keyframe.rawFrames_eq]
  simp only at hs'
  split at hs'
  · rename_i hempty
    have hnil : (RawFrame.valuesOf (k.body ctx read)).isEmpty = true := by
      rw [Keyframe.body, List.isEmpty_iff.mp hempty]
      rfl
    cases hs'
    rw [if_pos hnil, List.append_nil]
  · simp only [bind, Noted.bind] at hs'
    split at hs'
    · rename_i r hr
      have hbody := RawFrame.rule_ok ctx read hr
      have hvalues : RawFrame.valuesOf r = RawFrame.valuesOf (k.body ctx read) := by
        change RawFrame.valuesOf r.body = RawFrame.valuesOf (k.body ctx read).body
        rw [hbody]
      have heasing : RawFrame.easing? r = RawFrame.easing? (k.body ctx read) := by
        change RawFrame.easing? r.body = RawFrame.easing? (k.body ctx read).body
        rw [hbody]
      rw [hvalues, heasing] at hs'
      split at hs'
      · rename_i hnil
        cases hs'
        rw [if_pos hnil, List.append_nil]
      · rename_i hsome
        cases hs'
        rw [if_neg hsome]
    · cases hs'

theorem RawFrame.addKeyframes_ok {ks : List Keyframe} {s s' : FrameSet}
    (hs' : (ks.foldlM (RawFrame.addKeyframe ctx read order) s).result = .ok s') :
    s'.frames = s.frames ++ ks.flatMap (·.rawFrames ctx read) := by
  induction ks generalizing s with
  | nil =>
    cases hs'
    exact (List.append_nil _).symm
  | cons k rest ih =>
    rw [List.foldlM_cons] at hs'
    simp only [bind, Noted.bind] at hs'
    split at hs'
    · rename_i s₁ hs₁
      rw [ih hs', RawFrame.addKeyframe_ok ctx read hs₁, List.append_assoc, List.flatMap_cons]
    · cases hs'

/-- An animation that there is, whatever the order number, is that of its frames in the order of
their progress. -/
theorem Animation.ofKeyframes_ok {k : Keyframes} {a : Animation}
    (ha : (Animation.ofKeyframes ctx read order k).result = .ok a) :
    ∃ a', Animation.ofFrames k.name (RawFrame.sort (k.rawFrames ctx read)) = .ok a' ∧
      a.frames = a'.frames ∧ a.easings = a'.easings := by
  unfold Animation.ofKeyframes at ha
  simp only [bind, Noted.bind, Noted.ofExcept, Noted.withNotes] at ha
  split at ha
  · rename_i s hs
    have hframes : s.frames = k.rawFrames ctx read := RawFrame.addKeyframes_ok ctx read hs
    rw [hframes] at ha
    split at ha
    · rename_i a' ha'
      cases ha
      exact ⟨a', ha', rfl, rfl⟩
    · cases ha
  · cases ha

variable (h : 0 ≤ order)

include h in
theorem RawFrame.rule_total (k : Keyframe) :
    ∃ r, (RawFrame.rule ctx read order k).result = .ok r := by
  have hframe := Specificity.ofTiers_of_nonneg Specificity.frameImportance 1 h
  unfold RawFrame.rule
  simp only [bind, Noted.bind, Noted.ofExcept, Noted.withNotes]
  rw [show Specificity.ofTiers Specificity.frameImportance 0 0 1 order = _ from hframe]
  exact ⟨_, rfl⟩

include h in
theorem RawFrame.addKeyframe_total (s : FrameSet) (k : Keyframe) :
    ∃ s', (RawFrame.addKeyframe ctx read order s k).result = .ok s' := by
  obtain ⟨r, hr⟩ := RawFrame.rule_total ctx read h k
  unfold RawFrame.addKeyframe
  simp only
  split
  · exact ⟨s, rfl⟩
  · simp only [bind, Noted.bind, hr]
    split
    · exact ⟨_, rfl⟩
    · exact ⟨_, rfl⟩

include h in
theorem RawFrame.addKeyframes_total (ks : List Keyframe) (s : FrameSet) :
    ∃ s', (ks.foldlM (RawFrame.addKeyframe ctx read order) s).result = .ok s' := by
  induction ks generalizing s with
  | nil => exact ⟨s, rfl⟩
  | cons k rest ih =>
    obtain ⟨s₁, hs₁⟩ := RawFrame.addKeyframe_total ctx read h s k
    obtain ⟨s₂, hs₂⟩ := ih s₁
    refine ⟨s₂, ?_⟩
    rw [List.foldlM_cons]
    simp only [bind, Noted.bind, hs₁]
    exact hs₂

include h in
/-- An animation is that of its frames in the order of their progress; only building it can fail. -/
theorem Animation.ofKeyframes_result (k : Keyframes) :
    ∃ width height, (Animation.ofKeyframes ctx read order k).result =
      (Animation.ofFrames k.name (RawFrame.sort (k.rawFrames ctx read))).map fun a =>
        { a with needsWidth := width, needsHeight := height } := by
  obtain ⟨s, hs⟩ := RawFrame.addKeyframes_total ctx read h k.frames {}
  refine ⟨s.needsWidth, s.needsHeight, ?_⟩
  have hset : (RawFrame.ofKeyframes ctx read order k).result = .ok s := hs
  have hraw : s.frames = k.rawFrames ctx read := RawFrame.addKeyframes_ok ctx read hs
  unfold Animation.ofKeyframes
  simp only [bind, Noted.bind, hset, hraw, Noted.ofExcept]
  cases Animation.ofFrames k.name (RawFrame.sort (k.rawFrames ctx read)) with
  | error e => rfl
  | ok a => rfl

end

theorem RawFrame.mem_valuesOf {r : StyleRule} {v : FrameValue} (h : v ∈ RawFrame.valuesOf r) :
    ∃ d ∈ r.declarations, d.value = v.value := by
  obtain ⟨d, hd, hv⟩ := List.mem_filterMap.mp h
  refine ⟨d, hd, ?_⟩
  split at hv
  · cases hv
    rfl
  · cases hv

theorem Keyframes.mem_rawFrames {ctx : BuildContext} {read : Declaration → List Instruction}
    {k : Keyframes} {f : RawFrame} (h : f ∈ k.rawFrames ctx read) :
    ∃ frame ∈ k.frames, (∃ o ∈ frame.offsets, o.progress? = some f.progress) ∧
      f.values = RawFrame.valuesOf (frame.body ctx read) ∧
      f.easing = RawFrame.easing? (frame.body ctx read) := by
  obtain ⟨frame, hframe, hf⟩ := List.mem_flatMap.mp h
  refine ⟨frame, hframe, ?_⟩
  rw [Keyframe.rawFrames_eq] at hf
  split at hf
  · cases hf
  · obtain ⟨o, ho, hprogress⟩ := List.mem_filterMap.mp hf
    obtain ⟨n, hn, rfl⟩ := Option.map_eq_some_iff.mp hprogress
    exact ⟨⟨o, ho, hn⟩, rfl, rfl⟩

/-- The values that frames set, each with its frame. -/
def RawFrame.settings (frames : List RawFrame) : List (RawFrame × FrameValue) :=
  frames.flatMap fun f => f.values.map (f, ·)

theorem RawFrame.mem_settings {frames : List RawFrame} {f : RawFrame} {v : FrameValue} :
    (f, v) ∈ RawFrame.settings frames ↔ f ∈ frames ∧ v ∈ f.values := by
  simp only [RawFrame.settings, List.mem_flatMap, List.mem_map, Prod.mk.injEq]
  constructor
  · rintro ⟨g, hg, w, hw, rfl, rfl⟩
    exact ⟨hg, hw⟩
  · rintro ⟨hf, hv⟩
    exact ⟨f, hf, v, hv, rfl, rfl⟩

theorem RawFrame.mem_sort {frames : List RawFrame} {f : RawFrame} :
    f ∈ RawFrame.sort frames ↔ f ∈ frames :=
  Sorting.mem_sort

namespace Animation

/-- The last earlier progress and the present one, when the loop comes to a frame. -/
def advance (previous current : Number) (f : RawFrame) : Number × Number :=
  if f.progress.same current then (previous, current) else (current, f.progress)

theorem addFrames_cons (name : String) (previous current : Number)
    (table : Table (List AnimationStep)) (f : RawFrame) (rest : List RawFrame) :
    addFrames name previous current table (f :: rest) =
      match f.progress.sub? (advance previous current f).1 with
      | none => .error .integerTooLarge
      | some distance =>
        match addValues name f.progress distance table f.values with
        | .error e => .error e
        | .ok table =>
          addFrames name (advance previous current f).1 (advance previous current f).2 table rest :=
  rfl

/-- All numbers that the loop takes for progress are among the given ones. -/
structure Visits (S : Number → Prop) (previous current : Number) (frames : List RawFrame) :
    Prop where
  previous : S previous
  current : S current
  frames : ∀ f ∈ frames, S f.progress

theorem Visits.next {S : Number → Prop} (previous current : Number) (f : RawFrame)
    (rest : List RawFrame) (h : Visits S previous current (f :: rest)) :
    Visits S (advance previous current f).1 (advance previous current f).2 rest := by
  obtain ⟨hf, hrest⟩ := List.forall_mem_cons.mp h.frames
  unfold advance
  split
  · exact ⟨h.previous, h.current, hrest⟩
  · exact ⟨h.current, hf, hrest⟩

/-- A value that a frame sets, and how far the frame is from the progress before it. -/
structure Setting where
  frame : RawFrame
  value : FrameValue
  distance : Number

/-- The setting under its property. -/
def Setting.entry (s : Setting) : String × Setting := (s.value.property, s)

def Setting.add (steps : Option (List AnimationStep)) (s : Setting) : List AnimationStep :=
  addStep s.frame.progress s.distance s.value.value steps

/-- The table with the steps of a frame added. -/
def withSteps (progress distance : Number) (table : Table (List AnimationStep))
    (values : List FrameValue) : Table (List AnimationStep) :=
  values.foldl (fun t v => t.alter v.property (addStep progress distance v.value)) table

theorem addValues_ok (name : String) (progress distance : Number) {values : List FrameValue}
    (h : ∀ v ∈ values, v.value.isPrimitive = true) (table : Table (List AnimationStep)) :
    addValues name progress distance table values =
      .ok (withSteps progress distance table values) := by
  induction values generalizing table with
  | nil => rfl
  | cons v rest ih =>
    obtain ⟨hv, hrest⟩ := List.forall_mem_cons.mp h
    rw [addValues, if_pos hv, ih hrest]
    rfl

theorem of_addValues {name : String} {progress distance : Number} {values : List FrameValue}
    {table table' : Table (List AnimationStep)}
    (h : addValues name progress distance table values = .ok table') :
    table' = withSteps progress distance table values := by
  induction values generalizing table with
  | nil =>
    cases h
    rfl
  | cons v rest ih =>
    rw [addValues] at h
    split at h
    · exact ih h
    · cases h

theorem withSteps_eq (f : RawFrame) (distance : Number) (table : Table (List AnimationStep))
    (values : List FrameValue) :
    withSteps f.progress distance table values =
      table.merge Setting.add ((values.map (⟨f, ·, distance⟩)).map Setting.entry) := by
  rw [Table.merge, List.foldl_map, List.foldl_map]
  rfl

section Loop

-- what is known at each round of the two numbers and of the frames to come
variable {J : Number → Number → List RawFrame → Prop}
  (hnext : ∀ previous current f rest, J previous current (f :: rest) →
    J (advance previous current f).1 (advance previous current f).2 rest)

include hnext

theorem addFrames_total
    (hsub : ∀ previous current f rest, J previous current (f :: rest) →
      ∃ d, f.progress.sub? (advance previous current f).1 = some d) (name : String)
    {frames : List RawFrame} (hvalues : ∀ f ∈ frames, ∀ v ∈ f.values, v.value.isPrimitive = true)
    {previous current : Number} (hstart : J previous current frames)
    (table : Table (List AnimationStep)) :
    ∃ table', addFrames name previous current table frames = .ok table' := by
  induction frames generalizing previous current table with
  | nil => exact ⟨table, rfl⟩
  | cons f rest ih =>
    obtain ⟨hf, hrest⟩ := List.forall_mem_cons.mp hvalues
    obtain ⟨d, hd⟩ := hsub _ _ _ _ hstart
    rw [addFrames_cons, hd]
    simp only [addValues_ok name f.progress d hf]
    exact ih hrest (hnext _ _ _ _ hstart) _

/-- The loop puts in the values that the frames set, in their order, and each with a distance that
one of its rounds comes to. -/
theorem addFrames_ok {P : RawFrame → Number → Prop} {name : String} {frames : List RawFrame}
    (hstep : ∀ previous current, ∀ f ∈ frames, ∀ rest d, J previous current (f :: rest) →
      f.progress.sub? (advance previous current f).1 = some d → P f d)
    {previous current : Number} (hstart : J previous current frames)
    {table table' : Table (List AnimationStep)}
    (h : addFrames name previous current table frames = .ok table') :
    ∃ settings : List Setting,
      settings.map (fun s => (s.frame, s.value)) = RawFrame.settings frames ∧
      (∀ s ∈ settings, P s.frame s.distance) ∧
      table' = table.merge Setting.add (settings.map Setting.entry) := by
  induction frames generalizing previous current table with
  | nil =>
    cases h
    exact ⟨[], rfl, nofun, rfl⟩
  | cons f rest ih =>
    rw [addFrames_cons] at h
    split at h
    · cases h
    · rename_i d hd
      split at h
      · cases h
      · rename_i table₁ htable₁
        have hP : P f d := hstep _ _ f List.mem_cons_self rest d hstart hd
        obtain ⟨settings, hsettings, hdistances, rfl⟩ :=
          ih (fun previous current g hg => hstep previous current g (List.mem_cons_of_mem _ hg))
            (hnext _ _ _ _ hstart) h
        refine ⟨f.values.map (⟨f, ·, d⟩) ++ settings, ?_, ?_, ?_⟩
        · simp [hsettings, RawFrame.settings]
        · intro s hs
          rcases List.mem_append.mp hs with hs | hs
          · obtain ⟨v, -, rfl⟩ := List.mem_map.mp hs
            exact hP
          · exact hdistances s hs
        · rw [List.map_append, Table.merge_append, of_addValues htable₁, withSteps_eq]

theorem addFrames_invariant {I : Table (List AnimationStep) → Prop} {name : String}
    {frames : List RawFrame}
    (hstep : ∀ previous current, ∀ f ∈ frames, ∀ rest d, J previous current (f :: rest) →
      f.progress.sub? (advance previous current f).1 = some d →
      ∀ v ∈ f.values, ∀ t, I t → I (t.alter v.property (addStep f.progress d v.value)))
    {previous current : Number} (hstart : J previous current frames)
    {table table' : Table (List AnimationStep)} (htable : I table)
    (h : addFrames name previous current table frames = .ok table') : I table' := by
  obtain ⟨settings, hsettings, hkept, rfl⟩ := addFrames_ok hnext hstep hstart h
  refine List.foldlRecOn (motive := I) _ _ htable ?_
  intro t ht e he
  obtain ⟨s, hs, rfl⟩ := List.mem_map.mp he
  have hmem : (s.frame, s.value) ∈ RawFrame.settings frames :=
    hsettings ▸ List.mem_map_of_mem hs
  exact hkept s hs s.value (RawFrame.mem_settings.mp hmem).2 t ht

end Loop

theorem of_ofFrames {name : String} {frames : List RawFrame} {a : Animation}
    (h : ofFrames name frames = .ok a) :
    addFrames name zero zero [] frames = .ok a.frames ∧ a.easings = easings? frames := by
  unfold ofFrames at h
  split at h
  · cases h
  · rename_i table htable
    cases h
    exact ⟨htable, rfl⟩

end Animation

end StyleBundle
