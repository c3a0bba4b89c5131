import StyleBundle.Proofs.Animations
import StyleBundle.Proofs.FrameOrder
import StyleBundle.Proofs.Outcome

/-!
# StyleBundle.Proofs.Easings

The easings of an animation. They go by the frames in the order of their progress: the easing of a
frame has the index of the frame, and those without one have a placeholder. The list ends with the
last frame that has an easing, and there is none if no frame has.

* `RawFrame.easing?_eq_some_iff`, `Keyframe.timing?_read`: the easing of a frame, and the
  declarations that give it.
* `Animation.EasingsOf`, `Animation.easings?_easingsOf`: the easings of frames in order.
* `ofKeyframes_easings`: the easings of all keyframes.
-/

namespace StyleBundle

section

variable (ctx : BuildContext) (read : Declaration → List Instruction)

/-- The timing functions that the declarations of a keyframe come to. -/
def Keyframe.timing? (k : Keyframe) : Option Value :=
  Table.get? "timingFunction" ((k.body ctx read).animations.getD [])

end

/-- The easing of a rule is the first of its timing functions, unless that is null. -/
theorem RawFrame.easing?_eq_some_iff {r : StyleRule} {v : Value} :
    easing? r = some v ↔ v ≠ .null ∧
      ∃ rest, Table.get? "timingFunction" (r.animations.getD []) = some (.list (v :: rest)) := by
  unfold easing?
  split
  · rename_i rest h
    simp only [h, Option.some.injEq, Value.list.injEq, List.cons.injEq, reduceCtorEq, false_iff]
    rintro ⟨hne, rest', rfl, -⟩
    exact hne rfl
  · rename_i w rest hne h
    simp only [h, Option.some.injEq, Value.list.injEq, List.cons.injEq]
    constructor
    · rintro rfl
      exact ⟨hne, rest, rfl, rfl⟩
    · rintro ⟨-, rest', rfl, -⟩
      rfl
  · rename_i hnull hlist
    refine ⟨fun h => (Option.some_ne_none v h.symm).elim, ?_⟩
    rintro ⟨-, rest, h⟩
    exact absurd h (hlist v rest)

/-- The timing functions of a keyframe are those of its last property for them, or else of its first
shorthand that has layers. -/
theorem Keyframe.timing?_read (ctx : BuildContext) (k : Keyframe) :
    k.timing? ctx Declaration.read = AnimationField.easing.value? k.declarations := by
  have hfields : (k.body ctx Declaration.read).animations.getD [] =
      k.declarations.foldl Declaration.animate [] := getD_animations ctx {} k.declarations
  rw [timing?, hfields]
  exact AnimationField.easing.get?_foldl [] k.declarations

namespace Animation

/-- The easings of frames in order: none if no frame has one, and otherwise one for every frame up
to the last that has. -/
structure EasingsOf (R : List RawFrame) (easings : Option (List Value)) : Prop where
  absent : easings = none ↔ ∀ f ∈ R, f.easing = none
  aligned : ∀ es, easings = some es → ∃ last f, R[last]? = some f ∧ f.easing ≠ none ∧
    (∀ i g, last < i → R[i]? = some g → g.easing = none) ∧ es.length = last + 1 ∧
    ∀ i, i ≤ last → ∃ g, R[i]? = some g ∧ es[i]? = some (g.easing.getD Value.placeholderEasing)

/-- The frames are those that the easings are taken from, up to the last that has one, and then
frames without any. -/
theorem exists_known (frames : List RawFrame) :
    ∃ known bare, frames = known ++ bare ∧ (∀ f ∈ bare, f.easing = none) ∧
      (∀ f, known.getLast? = some f → f.easing ≠ none) ∧
      easings? frames = nonempty (known.map (·.easing.getD Value.placeholderEasing)) := by
  let isBare (f : RawFrame) : Bool := f.easing.isNone
  refine ⟨(frames.reverse.dropWhile isBare).reverse, (frames.reverse.takeWhile isBare).reverse,
    ?_, ?_, ?_, rfl⟩
  · rw [← List.reverse_append, List.takeWhile_append_dropWhile, List.reverse_reverse]
  · intro f hf
    simpa [isBare] using List.mem_takeWhile_imp (List.mem_reverse.mp hf)
  · intro f hf hnone
    rw [List.getLast?_reverse] at hf
    have hhead := List.head?_dropWhile_not isBare frames.reverse
    rw [hf] at hhead
    simp [isBare, hnone] at hhead

theorem easings?_easingsOf (R : List RawFrame) : EasingsOf R (easings? R) := by
  obtain ⟨known, bare, rfl, hbare, hlast, heq⟩ := exists_known R
  rw [heq]
  obtain rfl | ⟨init, f, rfl⟩ := List.eq_nil_or_concat known
  · refine ⟨iff_of_true rfl hbare, ?_⟩
    intro es hes
    cases hes
  · rw [List.concat_eq_append] at hlast ⊢
    have hf : f.easing ≠ none := hlast f List.getLast?_concat
    refine ⟨iff_of_false ?_ ?_, ?_⟩
    · simp [nonempty]
    · intro hnone
      exact hf (hnone f (by simp))
    · intro es hes
      rw [nonempty, if_neg (by simp)] at hes
      cases hes
      refine ⟨init.length, f, by simp, hf, ?_, by simp, ?_⟩
      · intro i g hi hg
        rw [List.getElem?_append_right (by simp; omega)] at hg
        exact hbare g (List.mem_of_getElem? hg)
      · intro i hi
        have hlt : i < (init ++ [f]).length := by simp; omega
        refine ⟨(init ++ [f])[i], ?_, ?_⟩
        · rw [List.getElem?_append_left hlt, List.getElem?_eq_getElem hlt]
        · rw [List.getElem?_map, List.getElem?_eq_getElem hlt, Option.map_some]

end Animation

/-- Keyframes that make an animation. Its easings are aligned with its frames, put in the order of
their progress. A frame has as its easing the first of the timing functions of its keyframe; as
declarations are read, these are the last that the property gives, or else those of the first
shorthand with layers. -/
theorem ofKeyframes_easings (ctx : BuildContext) (read : Declaration → List Instruction)
    (order : Int) (k : Keyframes) (a : Animation)
    (ha : (Animation.ofKeyframes ctx read order k).result = .ok a) :
    ∃ R, R = RawFrame.sort (k.rawFrames ctx read) ∧ R.Perm (k.rawFrames ctx read) ∧
      ((∀ frame ∈ k.frames, ∀ o ∈ frame.offsets, o ≠ .percentage (some .nan)) →
        RawFrame.InOrder (k.rawFrames ctx read) R) ∧
      (∀ f ∈ R, ∃ frame ∈ k.frames, (∃ o ∈ frame.offsets, o.progress? = some f.progress) ∧
        ∀ v, f.easing = some v ↔
          v ≠ .null ∧ ∃ rest, frame.timing? ctx read = some (.list (v :: rest))) ∧
      (read = Declaration.read → ∀ frame ∈ k.frames,
        frame.timing? ctx read = AnimationField.easing.value? frame.declarations) ∧
      Animation.EasingsOf R a.easings := by
  obtain ⟨a', ha', -, heasings⟩ := Animation.ofKeyframes_ok ctx read ha
  refine ⟨_, rfl, Sorting.sort_perm _ _, ?_, ?_, ?_, ?_⟩
  · intro hoffsets
    exact RawFrame.sort_inOrder (Keyframes.rawFrames_ne_nan hoffsets)
  · intro f hf
    obtain ⟨frame, hframe, hprogress, -, heasing⟩ :=
      Keyframes.mem_rawFrames (RawFrame.mem_sort.mp hf)
    refine ⟨frame, hframe, hprogress, fun v => ?_⟩
    rw [heasing]
    exact RawFrame.easing?_eq_some_iff
  · rintro rfl frame -
    exact frame.timing?_read ctx
  · rw [heasings, (Animation.of_ofFrames ha').2]
    exact Animation.easings?_easingsOf _

/-- A frame at both ends that has a shorthand and two timing functions, one that only has a timing
function and does not count, and one without any in the middle. -/
theorem ofKeyframes_easings_both_ends :
    let half : Offset := .percentage (some (.double (.finite false (Double.one / 2))))
    let k : Keyframes := { name := "a", frames := [
      { offsets := [.finish, .start],
        declarations := [⟨"opacity", "1"⟩, ⟨"animation-timing-function", "ease-in, linear"⟩,
          ⟨"animation", "1s ease-out"⟩] },
      { offsets := [half], declarations := [⟨"animation-timing-function", "linear"⟩] },
      { offsets := [half, .other "cover" none], declarations := [⟨"opacity", "0"⟩] }] }
    ∃ a, (Animation.ofKeyframes {} Declaration.read 1 k).result = .ok a ∧
      a.easings.map (·.map Value.plainText) = some
        ["EasingFunction(type='ease-in', args=())", "EasingFunction(type='!PLACEHOLDER!', args=())",
          "EasingFunction(type='ease-in', args=())"] ∧
      ∃ R, R.Perm (k.rawFrames {} Declaration.read) ∧ Animation.EasingsOf R a.easings := by
  intro half k
  have heasings : (Animation.ofKeyframes {} Declaration.read 1 k).result.toOption.map
      (fun a => a.easings.map (·.map Value.plainText)) = some (some
        ["EasingFunction(type='ease-in', args=())", "EasingFunction(type='!PLACEHOLDER!', args=())",
          "EasingFunction(type='ease-in', args=())"]) := by
    decide +kernel
  obtain ⟨a, ha, htexts⟩ := exists_ok_of_map heasings
  obtain ⟨R, -, hperm, -, -, -, hof⟩ := ofKeyframes_easings {} Declaration.read 1 k a ha
  exact ⟨a, ha, htexts, R, hperm, hof⟩

end StyleBundle
