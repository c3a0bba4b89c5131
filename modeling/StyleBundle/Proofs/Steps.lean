import StyleBundle.Declaration.Read
import StyleBundle.Proofs.FrameOrder
import StyleBundle.Proofs.Outcome

/-!
# StyleBundle.Proofs.Steps

The steps of an animation, exactly. Its properties are those that its frames set, in the order in
which the frames, put in order, first set them. A property has one step for every time that a
frame sets it, in that order, with the value that is set; if the first of these frames is not at
the start, a step that takes over the value of the element goes before. How far on a step is
reached counts from the last progress before its own where the animation has a frame at all.

* `IsOrigin`: the number that progress counts from.
* `Paced.round`: one round of the loop over the frames knows that number.
* `Animation.StepsOf`, `Animation.ofFrames_steps`: the steps of frames in order.
* `ofKeyframes_steps`: the steps of all keyframes.
-/

namespace StyleBundle

/-- A number that stands for a progress: the progress itself, or zero for the start. -/
def Number.StandsFor (n progress : Number) : Prop :=
  n = progress ∨ progress.same Animation.zero = true ∧ n = Animation.zero

/-- The number from which a progress counts: the greatest of those before it, or zero if there is
none. -/
def IsOrigin (frames : List RawFrame) (progress origin : Number) : Prop :=
  ((∀ g ∈ frames, g.progress.less progress = false) ∧ origin = Animation.zero) ∨
    ∃ g ∈ frames, g.progress.less progress = true ∧
      (∀ h ∈ frames, h.progress.less progress = true → g.progress.less h.progress = false) ∧
      origin.StandsFor g.progress

/-- A step that a frame takes a property to: the value that it sets, as far on as its progress
is from the one it counts from. -/
structure AnimationStep.Takes (frames : List RawFrame) (f : RawFrame) (v : FrameValue)
    (step : AnimationStep) : Prop where
  value : step.value = v.value
  progress : ∃ origin, IsOrigin frames f.progress origin ∧
    f.progress.sub? origin = some step.progress

/-! ## The progress of the loop -/

theorem Number.StandsFor.position {n progress : Number} (h : n.StandsFor progress)
    (hprogress : progress ≠ .nan) : n ≠ .nan ∧ n.position = progress.position := by
  rcases h with rfl | ⟨hsame, rfl⟩
  · exact ⟨hprogress, rfl⟩
  · have hzero : Animation.zero ≠ .nan := nofun
    rw [Number.same_eq hprogress hzero, decide_eq_true_eq] at hsame
    exact ⟨hzero, hsame.symm⟩

section Pace

variable {R : List RawFrame}

/-- A frame whose progress is the present one of the loop. What is not left lies before it or
beside it. -/
structure Reached (R : List RawFrame) (previous current : Number) (rest : List RawFrame)
    (l : RawFrame) : Prop where
  mem : l ∈ R
  passed : ∀ g ∈ R, g ∉ rest → g.position ≤ l.position
  ahead : ∀ g ∈ rest, l.position ≤ g.position
  current : current.StandsFor l.progress
  previous : IsOrigin R l.progress previous

/-- What the loop knows of its two numbers when some frames are left. -/
structure Paced (R : List RawFrame) (previous current : Number) (rest : List RawFrame) : Prop where
  left : rest <:+ R
  reached : (rest = R ∧ previous = Animation.zero ∧ current = Animation.zero) ∨
    ∃ l, Reached R previous current rest l

theorem Reached.passed_cons {previous current : Number} {f l : RawFrame} {rest : List RawFrame}
    (h : Reached R previous current (f :: rest) l) :
    ∀ g ∈ R, g ∉ rest → g.position ≤ max l.position f.position := by
  intro g hg hrest
  by_cases hgf : g = f
  · exact hgf ▸ le_max_right _ _
  · exact (h.passed g hg (by simp [hgf, hrest])).trans (le_max_left _ _)

theorem paced_start : Paced R Animation.zero Animation.zero R :=
  ⟨List.suffix_refl R, .inl ⟨rfl, rfl, rfl⟩⟩

variable (hnan : ∀ f ∈ R, f.progress ≠ .nan)

include hnan

theorem RawFrame.less_iff {f g : RawFrame} (hf : f ∈ R) (hg : g ∈ R) :
    f.progress.less g.progress = true ↔ f.position < g.position := by
  rw [Number.less_eq (hnan f hf) (hnan g hg), decide_eq_true_eq]
  rfl

theorem RawFrame.less_eq_false_iff {f g : RawFrame} (hf : f ∈ R) (hg : g ∈ R) :
    f.progress.less g.progress = false ↔ g.position ≤ f.position := by
  rw [← Bool.not_eq_true, RawFrame.less_iff hnan hf hg, not_lt]

theorem IsOrigin.of_position {f g : RawFrame} (hf : f ∈ R) (hg : g ∈ R)
    (hposition : f.position = g.position) {origin : Number} (h : IsOrigin R f.progress origin) :
    IsOrigin R g.progress origin := by
  have hless : ∀ l ∈ R, l.progress.less f.progress = l.progress.less g.progress := by
    intro l hl
    rw [Bool.eq_iff_iff, RawFrame.less_iff hnan hl hf, RawFrame.less_iff hnan hl hg, hposition]
  rcases h with ⟨hnone, horigin⟩ | ⟨l, hl, hbefore, hgreatest, horigin⟩
  · refine .inl ⟨?_, horigin⟩
    intro l hl
    rw [← hless l hl]
    exact hnone l hl
  · refine .inr ⟨l, hl, ?_, ?_, horigin⟩
    · rw [← hless l hl]
      exact hbefore
    · intro h hh hbefore'
      rw [← hless h hh] at hbefore'
      exact hgreatest h hh hbefore'

/-- One more frame at the present progress. -/
theorem Reached.stay {previous current : Number} {f l : RawFrame} {rest : List RawFrame}
    (h : Reached R previous current (f :: rest) l) (hf : f ∈ R)
    (heq : f.position = l.position) :
    IsOrigin R f.progress previous ∧ Reached R previous current rest l := by
  refine ⟨h.previous.of_position hnan h.mem hf heq.symm, { h with passed := ?_, ahead := ?_ }⟩
  · intro g hg hrest
    simpa [heq] using h.passed_cons g hg hrest
  · intro g hg
    exact h.ahead g (List.mem_cons_of_mem _ hg)

/-- A new progress counts from the present one. -/
theorem Reached.move {previous current : Number} {f l : RawFrame} {rest : List RawFrame}
    (h : Reached R previous current (f :: rest) l) (hf : f ∈ R)
    (hahead : ∀ g ∈ rest, f.position ≤ g.position) (hlt : l.position < f.position) :
    IsOrigin R f.progress current ∧ Reached R current f.progress rest f := by
  have horigin : IsOrigin R f.progress current := by
    refine .inr ⟨l, h.mem, (RawFrame.less_iff hnan h.mem hf).mpr hlt, ?_, h.current⟩
    intro g hg hbefore
    rw [RawFrame.less_eq_false_iff hnan h.mem hg]
    rw [RawFrame.less_iff hnan hg hf] at hbefore
    apply h.passed g hg
    intro hmem
    rcases List.mem_cons.mp hmem with rfl | hmem
    · exact absurd hbefore (lt_irrefl _)
    · exact absurd hbefore (not_lt.mpr (hahead g hmem))
  refine ⟨horigin, hf, ?_, hahead, .inl rfl, horigin⟩
  intro g hg hrest
  simpa [hlt.le] using h.passed_cons g hg hrest

/-- No progress lies before that of the first frame. -/
theorem reached_first {f : RawFrame} {rest : List RawFrame} (hR : f :: rest = R)
    (hahead : ∀ g ∈ rest, f.position ≤ g.position) {current : Number}
    (hcurrent : current.StandsFor f.progress) :
    IsOrigin R f.progress Animation.zero ∧ Reached R Animation.zero current rest f := by
  subst hR
  have hleast : ∀ g ∈ f :: rest, f.position ≤ g.position :=
    List.forall_mem_cons.mpr ⟨le_refl _, hahead⟩
  have horigin : IsOrigin (f :: rest) f.progress Animation.zero := by
    refine .inl ⟨?_, rfl⟩
    intro g hg
    rw [RawFrame.less_eq_false_iff hnan hg List.mem_cons_self]
    exact hleast g hg
  refine ⟨horigin, List.mem_cons_self, ?_, hahead, hcurrent, horigin⟩
  intro g hg hrest
  rcases List.mem_cons.mp hg with rfl | hg
  · exact le_refl _
  · exact absurd hg hrest

/-- One round: the number that the frame counts from, and what is known after it. -/
theorem Paced.round (hR : Sorting.Ascending RawFrame.position R) {previous current : Number}
    {f : RawFrame} {rest : List RawFrame} (h : Paced R previous current (f :: rest)) :
    IsOrigin R f.progress (Animation.advance previous current f).1 ∧
      Paced R (Animation.advance previous current f).1 (Animation.advance previous current f).2
        rest := by
  have hf : f ∈ R := h.left.subset List.mem_cons_self
  have hleft : rest <:+ R := (List.suffix_cons f rest).trans h.left
  have hahead : ∀ g ∈ rest, f.position ≤ g.position :=
    (List.pairwise_cons.mp (hR.sublist h.left.sublist)).1
  unfold Animation.advance
  rcases h.reached with ⟨hstart, rfl, rfl⟩ | ⟨l, hl⟩
  · split
    · rename_i hsame
      obtain ⟨horigin, hreached⟩ := reached_first hnan hstart hahead (.inr ⟨hsame, rfl⟩)
      exact ⟨horigin, hleft, .inr ⟨f, hreached⟩⟩
    · obtain ⟨horigin, hreached⟩ := reached_first hnan hstart hahead (.inl rfl)
      exact ⟨horigin, hleft, .inr ⟨f, hreached⟩⟩
  · obtain ⟨hcurrent, hposition⟩ := hl.current.position (hnan l hl.mem)
    have hsame : f.progress.same current = true ↔ f.position = l.position := by
      rw [Number.same_eq (hnan f hf) hcurrent, decide_eq_true_eq, hposition]
      rfl
    split
    · rename_i hstay
      obtain ⟨horigin, hreached⟩ := hl.stay hnan hf (hsame.mp hstay)
      exact ⟨horigin, hleft, .inr ⟨l, hreached⟩⟩
    · rename_i hmove
      have hlt : l.position < f.position :=
        lt_of_le_of_ne (hl.ahead f List.mem_cons_self) fun heq => hmove (hsame.mpr heq.symm)
      obtain ⟨horigin, hreached⟩ := hl.move hnan hf hahead hlt
      exact ⟨horigin, hleft, .inr ⟨f, hreached⟩⟩

end Pace

/-! ## The steps of a property -/

namespace Animation

/-- What goes before the steps of a property whose first step is at the given progress. -/
def opening (progress : Number) : List AnimationStep :=
  if progress.same (.int 0) then [] else [{ value := Value.inherited, progress := .int 0 }]

def Setting.step (s : Setting) : AnimationStep := { value := s.value.value, progress := s.distance }

theorem Setting.add_none (s : Setting) : s.add none = opening s.frame.progress ++ [s.step] := by
  unfold Setting.add addStep opening Setting.step
  cases s.frame.progress.same (.int 0) with
  | true => rfl
  | false => rfl

theorem Setting.add_some {steps : List AnimationStep} (h : steps ≠ []) (s : Setting) :
    s.add (some steps) = steps ++ [s.step] := by
  unfold Setting.add addStep Setting.step
  simp [h]

/-- Once there is a step, every further setting adds its own. -/
theorem foldl_add_some (settings : List Setting) {steps : List AnimationStep} (h : steps ≠ []) :
    settings.foldl (fun old s => some (s.add old)) (some steps) =
      some (steps ++ settings.map Setting.step) := by
  induction settings generalizing steps with
  | nil => simp
  | cons s rest ih =>
    rw [List.foldl_cons, Setting.add_some h, ih (by simp)]
    simp

/-- The steps of a property are those of its settings, behind the opening for the first. -/
theorem get?_settings {p : String} {settings rest : List Setting} {s : Setting}
    (h : settings.filter (·.value.property = p) = s :: rest) :
    Table.get? p (Table.merge Setting.add [] (settings.map Setting.entry)) =
      some (opening s.frame.progress ++ (s :: rest).map Setting.step) := by
  have hfilter : (settings.map Setting.entry).filter (·.1 = p) = (s :: rest).map Setting.entry := by
    rw [List.filter_map, ← h]
    rfl
  rw [Table.get?_merge_filter, hfilter, List.foldl_map, List.foldl_cons]
  change List.foldl (fun old s => some (s.add old)) (some (s.add none)) rest = _
  rw [foldl_add_some rest (by simp [Setting.add_none]), Setting.add_none]
  simp

/-- The steps of an animation are those of frames that are in order. -/
structure StepsOf (R : List RawFrame) (a : Animation) : Prop where
  properties : a.frames.keys = ((RawFrame.settings R).map (·.2.property)).eraseDups
  steps : ∀ p f v rest, (RawFrame.settings R).filter (·.2.property = p) = (f, v) :: rest →
    ∃ steps, a.frames.get? p = some (opening f.progress ++ steps) ∧
      List.Forall₂ (fun e step => AnimationStep.Takes R e.1 e.2 step) ((f, v) :: rest) steps

theorem ofFrames_steps {R : List RawFrame} (hnan : ∀ f ∈ R, f.progress ≠ .nan)
    (hR : Sorting.Ascending RawFrame.position R) {name : String} {a : Animation}
    (ha : ofFrames name R = .ok a) : StepsOf R a := by
  obtain ⟨settings, hsettings, hdistances, htable⟩ := addFrames_ok (J := Paced R)
    (P := fun f d => ∃ origin, IsOrigin R f.progress origin ∧ f.progress.sub? origin = some d)
    (fun _ _ _ _ h => (h.round hnan hR).2)
    (fun _ _ _ _ _ _ h hd => ⟨_, (h.round hnan hR).1, hd⟩) paced_start (of_ofFrames ha).1
  constructor
  · rw [htable, Table.keys_merge_eraseDups, ← hsettings]
    simp [Table.keys, Setting.entry, Function.comp_def]
  · intro p f v rest hp
    rw [← hsettings, List.filter_map] at hp
    obtain ⟨s, rest', hfilter, hs, rfl⟩ := List.map_eq_cons_iff.mp hp
    cases hs
    refine ⟨(s :: rest').map Setting.step, ?_, ?_⟩
    · rw [htable]
      exact get?_settings hfilter
    · change List.Forall₂ _ ((s :: rest').map fun s => (s.frame, s.value)) _
      rw [List.forall₂_map_left_iff, List.forall₂_map_right_iff, List.forall₂_same]
      intro s' hs'
      have hmem : s' ∈ settings := (List.mem_filter.mp (hfilter ▸ hs')).1
      exact ⟨rfl, hdistances s' hmem⟩

end Animation

/-- Keyframes whose percentages are numbers have the steps of their frames, put in order. -/
theorem ofKeyframes_steps (ctx : BuildContext) (read : Declaration → List Instruction) (order : Int)
    (k : Keyframes) (hoffsets : ∀ f ∈ k.frames, ∀ o ∈ f.offsets, o ≠ .percentage (some .nan))
    (a : Animation) (ha : (Animation.ofKeyframes ctx read order k).result = .ok a) :
    ∃ R, RawFrame.InOrder (k.rawFrames ctx read) R ∧ Animation.StepsOf R a := by
  have hraw : ∀ f ∈ k.rawFrames ctx read, f.progress ≠ .nan := Keyframes.rawFrames_ne_nan hoffsets
  obtain ⟨a', ha', hframes, -⟩ := Animation.ofKeyframes_ok ctx read ha
  have hsteps := Animation.ofFrames_steps (fun f hf => hraw f (RawFrame.mem_sort.mp hf))
    (Sorting.sort_ascending (RawFrame.compares_position hraw)) ha'
  refine ⟨_, RawFrame.sort_inOrder hraw, ?_, ?_⟩
  · rw [hframes]
    exact hsteps.properties
  · rw [hframes]
    exact hsteps.steps

/-- Two frames share an offset, one of them stands at the finish too and is written first, and only
one property has a frame at the start. -/
theorem ofKeyframes_steps_shared :
    let zero : Number := .double (.finite false 0)
    let half : Number := .double (.finite false (Double.one / 2))
    let k : Keyframes := { name := "a", frames := [
      { offsets := [.finish, .percentage (some half)],
        declarations := [⟨"color", "red"⟩, ⟨"width", "1px"⟩] },
      { offsets := [.percentage (some half), .other "cover" none],
        declarations := [⟨"color", "blue"⟩] },
      { offsets := [.start, .percentage none], declarations := [⟨"width", "0"⟩] }] }
    let scalar : Value → Option Int × Option String
      | .int n => (some n, none)
      | .text s => (none, some s)
      | _ => (none, none)
    let progress (a : Animation) := a.frames.map fun e => (e.1, e.2.map (·.progress))
    let values (a : Animation) := a.frames.flatMap fun e => e.2.map fun s => scalar s.value
    ∃ a, (∀ f ∈ k.frames, ∀ o ∈ f.offsets, o ≠ .percentage (some .nan)) ∧
      (Animation.ofKeyframes {} Declaration.read 1 k).result = .ok a ∧
      progress a = [("width", [zero, half, half]), ("color", [.int 0, half, half, half])] ∧
      values a = [(some 0, none), (some 1, none), (some 1, none), (none, some "!INHERIT!"),
        (none, some "red"), (none, some "blue"), (none, some "red")] ∧
      ∃ R, RawFrame.InOrder (k.rawFrames {} Declaration.read) R ∧ Animation.StepsOf R a := by
  intro zero half k scalar progress values
  have hoffsets : ∀ f ∈ k.frames, ∀ o ∈ f.offsets, o ≠ .percentage (some .nan) := by decide
  have hprogress : (Animation.ofKeyframes {} Declaration.read 1 k).result.toOption.map progress =
      some [("width", [zero, half, half]), ("color", [.int 0, half, half, half])] := by
    decide +kernel
  have hvalues : (Animation.ofKeyframes {} Declaration.read 1 k).result.toOption.map values =
      some [(some 0, none), (some 1, none), (some 1, none), (none, some "!INHERIT!"),
        (none, some "red"), (none, some "blue"), (none, some "red")] := by
    decide +kernel
  obtain ⟨a, ha, hprogress⟩ := exists_ok_of_map hprogress
  rw [ha] at hvalues
  exact ⟨a, hoffsets, ha, hprogress, Option.some.inj hvalues,
    ofKeyframes_steps {} Declaration.read 1 k hoffsets a ha⟩

end StyleBundle
