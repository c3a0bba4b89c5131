import StyleBundle.Proofs.Extraction
import StyleBundle.Proofs.Failure
import StyleBundle.Proofs.Rounding

/-!
# StyleBundle.Proofs.Progress

How far on the steps of an animation are. Progress beyond the ends of the animation is taken as it
is, and then a step may lie beyond the ends too. Where all of it lies between the start and the
finish, every property begins at the start and all its steps lie between the ends.

* `Animation.addStep_timed`: the step of adding a step.
* `Animation.ofFrames_timed`: the loop over frames in the order of their progress.
* `ofSource_progress`: the animations of a bundle.
-/

namespace StyleBundle

namespace Number

/-- Whether a number lies between zero and one. -/
def isInUnit (n : Number) : Bool :=
  match n.coordinate with
  | some (side, units) => side == 0 && decide (0 ≤ units ∧ units ≤ Double.one)
  | none => false

theorem isInUnit_iff {n : Number} :
    n.isInUnit = true ↔
      ∃ units, n.coordinate = some (0, units) ∧ 0 ≤ units ∧ units ≤ Double.one := by
  unfold isInUnit
  cases n.coordinate with
  | none =>
    constructor
    · intro h
      cases h
    · rintro ⟨_, h, _⟩
      cases h
  | some p =>
    obtain ⟨side, units⟩ := p
    simp only [Bool.and_eq_true, beq_iff_eq, decide_eq_true_eq, Option.some.injEq, Prod.mk.injEq]
    constructor
    · rintro ⟨rfl, h⟩
      exact ⟨units, ⟨rfl, rfl⟩, h⟩
    · rintro ⟨_, ⟨rfl, rfl⟩, h⟩
      exact ⟨rfl, h⟩

/-- How many units a number lies from zero. -/
def units (n : Number) : Int := (n.coordinate.getD (0, 0)).2

/-- A double between zero and one. -/
structure IsFraction (n : Number) : Prop where
  double : n.IsDouble
  inUnit : n.isInUnit = true

variable {m n : Number}

theorem IsFraction.eq (h : n.IsFraction) :
    ∃ negative magnitude, n = .double (.finite negative magnitude) ∧
      n.units = Double.signed negative magnitude ∧ 0 ≤ n.units ∧ n.units ≤ Double.one := by
  obtain ⟨⟨d, rfl⟩, hunit⟩ := h
  obtain ⟨x, hcoordinate, hbounds⟩ := isInUnit_iff.mp hunit
  cases d with
  | nan => cases hcoordinate
  | infinite negative => cases negative <;> cases hcoordinate
  | finite negative magnitude =>
    cases hcoordinate
    exact ⟨negative, magnitude, rfl, rfl, hbounds⟩

theorem IsFraction.coordinate (h : n.IsFraction) : n.coordinate = some (0, n.units) := by
  obtain ⟨negative, magnitude, rfl, _, _⟩ := h.eq
  rfl

theorem isFraction_of_bounds {negative : Bool} {magnitude : Nat}
    (hnonneg : 0 ≤ Double.signed negative magnitude)
    (hle : Double.signed negative magnitude ≤ Double.one) :
    IsFraction (.double (.finite negative magnitude)) :=
  ⟨⟨_, rfl⟩, isInUnit_iff.mpr ⟨_, rfl, hnonneg, hle⟩⟩

theorem isFraction_zero : Animation.zero.IsFraction :=
  isFraction_of_bounds (Int.le_refl 0) (Int.natCast_nonneg _)

theorem IsFraction.less (hm : m.IsFraction) (hn : n.IsFraction) :
    m.less n = decide (m.units < n.units) := by
  unfold Number.less
  rw [hm.coordinate, hn.coordinate]
  simp

theorem IsFraction.same (hm : m.IsFraction) (hn : n.IsFraction) :
    m.same n = decide (m.units = n.units) := by
  unfold Number.same
  rw [hm.coordinate, hn.coordinate, Bool.eq_iff_iff]
  simp

theorem IsFraction.same_zero (hn : n.IsFraction) : n.same (.int 0) = decide (n.units = 0) := by
  have hzero : (Number.int 0).coordinate = some (0, 0) := by
    rw [Number.coordinate, Int.zero_mul]
  unfold Number.same
  rw [hn.coordinate, hzero, Bool.eq_iff_iff]
  simp

/-- The difference of two doubles between zero and one, the greater one first, is one too. -/
theorem IsFraction.sub? (hm : m.IsFraction) (hn : n.IsFraction) (hle : n.units ≤ m.units) :
    ∃ d, m.sub? n = some d ∧ d.IsFraction ∧ (m.units = n.units → d.units = 0) := by
  obtain ⟨a, x, rfl, hx, hx0, hx1⟩ := hm.eq
  obtain ⟨b, y, rfl, hy, hy0, hy1⟩ := hn.eq
  rw [hx] at hx0 hx1 hle
  rw [hy] at hy0 hy1 hle
  have hone : ((Double.one : Nat) : Int) = ((2 ^ 1074 : Nat) : Int) :=
    congrArg Int.ofNat Double.one_eq_two_pow
  have hsize : (Double.signed a x - Double.signed b y).natAbs ≤ 2 ^ 1074 := by
    rw [hone] at hx1
    generalize (2 ^ 1074 : Nat) = bound at hx1
    omega
  obtain ⟨negative, magnitude, hmagnitude, hsub, hzero, hsign⟩ := Double.sub_le hsize (by decide)
  rw [← Double.one_eq_two_pow] at hmagnitude
  have hsigned : Double.signed negative magnitude = magnitude := by
    cases negative with
    | false => rfl
    | true =>
      rw [hsign hle rfl]
      rfl
  refine ⟨.double (.finite negative magnitude), congrArg (fun d => some (Number.double d)) hsub,
    isFraction_of_bounds ?_ ?_, ?_⟩
  · rw [hsigned]
    exact Int.natCast_nonneg _
  · rw [hsigned]
    exact Int.ofNat_le.mpr hmagnitude
  · intro heq
    rw [hx, hy] at heq
    change Double.signed negative magnitude = 0
    rw [hsigned, hzero heq]
    rfl

end Number

/-! ## Steps -/

/-- Steps that begin at the start and stay between the ends. -/
structure Timed (steps : List AnimationStep) : Prop where
  first : ∃ step, steps.head? = some step ∧ step.progress.coordinate = some (0, 0)
  inUnit : ∀ step ∈ steps, step.progress.isInUnit = true

namespace Animation

variable {progress distance : Number}

/-- The opening is at zero. Without it the step is the first one and its frame is at the start, so
that the distance is none. -/
theorem addStep_timed (hprogress : progress.IsFraction) (hdistance : distance.IsFraction)
    (hzero : progress.units = 0 → distance.units = 0) (value : Value)
    {steps : Option (List AnimationStep)} (h : ∀ ss, steps = some ss → Timed ss) :
    Timed (addStep progress distance value steps) := by
  have hopening : (Number.int 0).coordinate = some (0, 0) := by
    rw [Number.coordinate, Int.zero_mul]
  have hlast : ∀ step ∈ [({ value, progress := distance } : AnimationStep)],
      step.progress.isInUnit = true := List.forall_mem_singleton.mpr hdistance.inUnit
  unfold addStep
  simp only
  cases hsteps : steps.getD [] with
  | cons first rest =>
    have hsome : steps = some (first :: rest) := by
      cases steps with
      | none => cases hsteps
      | some ss => exact congrArg some hsteps
    have hold := h _ hsome
    simp only [List.isEmpty_cons, Bool.false_and, Bool.false_eq_true, if_false, List.append_nil]
    exact ⟨hold.first, List.forall_mem_append.mpr ⟨hold.inUnit, hlast⟩⟩
  | nil =>
    simp only [List.isEmpty_nil, Bool.true_and, hprogress.same_zero, List.nil_append]
    by_cases hstart : progress.units = 0
    · simp only [hstart, decide_true, Bool.not_true, Bool.false_eq_true, if_false, List.nil_append]
      refine ⟨⟨_, rfl, ?_⟩, hlast⟩
      rw [hdistance.coordinate, hzero hstart]
    · simp only [hstart, decide_false, Bool.not_false, if_true]
      refine ⟨⟨_, rfl, hopening⟩, List.forall_mem_cons.mpr ⟨?_, hlast⟩⟩
      exact Number.isInUnit_iff.mpr ⟨0, hopening, Int.le_refl 0, Int.natCast_nonneg _⟩

/-! ## The loop -/

/-- The numbers that the loop looks at lie between the ends, and none of them is behind an earlier
one. -/
structure Ordered (previous current : Number) (frames : List RawFrame) : Prop where
  visits : Visits Number.IsFraction previous current frames
  le : previous.units ≤ current.units
  ahead : ∀ f ∈ frames, current.units ≤ f.progress.units
  sorted : Sorting.Ascending (fun f : RawFrame => f.progress.units) frames

theorem Ordered.next (previous current : Number) (f : RawFrame) (rest : List RawFrame)
    (h : Ordered previous current (f :: rest)) :
    Ordered (advance previous current f).1 (advance previous current f).2 rest := by
  obtain ⟨hf, hrest⟩ := List.forall_mem_cons.mp h.ahead
  obtain ⟨hbehind, hsorted⟩ := List.pairwise_cons.mp h.sorted
  have hprogress := Visits.next previous current f rest h.visits
  unfold advance at hprogress ⊢
  split
  · rename_i hsame
    rw [if_pos hsame] at hprogress
    exact ⟨hprogress, h.le, hrest, hsorted⟩
  · rename_i hsame
    rw [if_neg hsame] at hprogress
    exact ⟨hprogress, hf, hbehind, hsorted⟩

theorem Ordered.advance_le {previous current : Number} {f : RawFrame} {rest : List RawFrame}
    (h : Ordered previous current (f :: rest)) :
    (advance previous current f).1.units ≤ f.progress.units := by
  have hf := h.ahead f List.mem_cons_self
  unfold advance
  split
  · exact h.le.trans hf
  · exact hf

theorem Ordered.addStep {previous current : Number} {f : RawFrame} {rest : List RawFrame}
    (h : Ordered previous current (f :: rest)) {d : Number}
    (hd : f.progress.sub? (advance previous current f).1 = some d) (v : FrameValue)
    {t : Table (List AnimationStep)} (ht : ∀ e ∈ t, Timed e.2) :
    ∀ e ∈ t.alter v.property (Animation.addStep f.progress d v.value), Timed e.2 := by
  have hf : f.progress.IsFraction := h.visits.frames f List.mem_cons_self
  have hprevious := (Visits.next previous current f rest h.visits).previous
  obtain ⟨d', hd', hfraction, hzero⟩ := hf.sub? hprevious h.advance_le
  obtain rfl : d' = d := Option.some.inj (hd'.symm.trans hd)
  refine Table.forall_alter (R := fun _ steps => Timed steps) ht ?_
  intro old hold
  refine addStep_timed hf hfraction ?_ v.value hold
  intro hstart
  -- no progress is below zero, so before the start there is only the start
  obtain ⟨_, _, _, _, hnonneg, _⟩ := hprevious.eq
  have hle := h.advance_le
  exact hzero (by omega)

theorem ofFrames_timed {name : String} {frames : List RawFrame} {a : Animation}
    (hprogress : ∀ f ∈ frames, f.progress.IsFraction)
    (hsorted : Sorting.Ascending (fun f : RawFrame => f.progress.units) frames)
    (h : ofFrames name frames = .ok a) : ∀ e ∈ a.frames, Timed e.2 := by
  have hstart : Ordered zero zero frames := by
    refine ⟨⟨Number.isFraction_zero, Number.isFraction_zero, hprogress⟩, Int.le_refl _, ?_, hsorted⟩
    intro f hf
    obtain ⟨_, _, _, _, hnonneg, _⟩ := (hprogress f hf).eq
    exact hnonneg
  refine addFrames_invariant (I := fun t => ∀ e ∈ t, Timed e.2) Ordered.next ?_ hstart ?_
    (of_ofFrames h).1
  · intro previous current f _ rest d hordered hd v _ t ht
    exact hordered.addStep hd v ht
  · intro e he
    cases he

end Animation

/-! ## Bundles -/

/-- The progress of all frames of an animation. -/
def Keyframes.allProgress (k : Keyframes) : List Number :=
  k.frames.flatMap fun f => f.offsets.filterMap Offset.progress?

/-- The animations of a sheet that are reached. -/
def Sheet.keyframes (rules : List Rule) : List Keyframes :=
  (Sheet.reached rules).filterMap fun l =>
    match l.rule with
    | .keyframes k => some k
    | _ => none

theorem Keyframes.rawFrames_ascending {ctx : BuildContext} {read : Declaration → List Instruction}
    {k : Keyframes} (h : ∀ f ∈ k.rawFrames ctx read, f.progress.IsFraction) :
    Sorting.Ascending (fun f : RawFrame => f.progress.units)
      (RawFrame.sort (k.rawFrames ctx read)) :=
  Sorting.sort_ascending fun f hf g hg => (h f hf).less (h g hg)

theorem Sheet.Animates.mem_keyframes {c : Settings} {rules : List Rule} {name : String}
    {a : Animation} {k : Keyframes} (h : Sheet.Animates c rules name a k) :
    k ∈ Sheet.keyframes rules := by
  obtain ⟨l, hl, hk⟩ := h.reached
  exact List.mem_filterMap.mpr ⟨l, hl, by rw [hk]⟩

/-- Frames have the progress of their keyframes, and those are read from the source. -/
theorem Sheet.Animates.progress {c : Settings} {source : String} {rules : List Rule}
    (hparse : (Sheet.parse source).result = .ok rules) {name : String} {a : Animation}
    {k : Keyframes} (h : Sheet.Animates c rules name a k) {ctx : BuildContext}
    {read : Declaration → List Instruction} {f : RawFrame} (hf : f ∈ k.rawFrames ctx read) :
    f.progress ∈ k.allProgress ∧
      Sheet.FrameProgress (Token.atomsAll (Token.ofText source)) f.progress := by
  obtain ⟨l, hl, hk⟩ := h.reached
  have hread : ∀ f ∈ k.frames, f.ReadFrom (Token.atomsAll (Token.ofText source)) := by
    have hleaf := Sheet.parse_readFrom hparse [] l (List.mem_filter.mp hl).1
    rwa [hk] at hleaf
  obtain ⟨frame, hframe, ⟨off, hoff, hprogress⟩, _⟩ := Keyframes.mem_rawFrames hf
  refine ⟨?_, hread frame hframe off hoff _ hprogress⟩
  exact List.mem_flatMap.mpr ⟨frame, hframe, List.mem_filterMap.mpr ⟨off, hoff, hprogress⟩⟩

/-- Where the progress of an animation lies between its ends, each property begins at the start, and
all its steps lie between the ends. -/
theorem ofSource_progress (o : Options) (source : String) (rules : List Rule)
    (hparse : (Sheet.parse source).result = .ok rules) (b : Bundle)
    (hb : (Bundle.ofSource o source).result = .ok b) (name : String) (a : Animation)
    (ha : (name, a) ∈ b.keyframes)
    (hprogress : ∀ k ∈ Sheet.keyframes rules, k.name = name →
      ∀ n ∈ k.allProgress, n.isInUnit = true) :
    ∀ e ∈ a.frames, Timed e.2 := by
  rw [Bundle.ofSource, Bundle.ofParsed_of_parse hparse] at hb
  obtain ⟨c, b', -, hcompiled, rfl⟩ := Bundle.of_ofRules hb
  rw [Bundle.of_compile hcompiled] at ha
  obtain ⟨k, hk⟩ := extractAll_keyframes c o.darkMode rules (name, a) ha
  obtain ⟨a', ha', hframes, _⟩ := hk.frames
  have hfractions : ∀ f ∈ k.rawFrames (c.buildContext []) c.read, f.progress.IsFraction := by
    intro f hf
    obtain ⟨hmem, hsource⟩ := hk.progress hparse hf
    exact ⟨hsource.isDouble, hprogress k hk.mem_keyframes hk.name _ hmem⟩
  rw [hframes]
  exact Animation.ofFrames_timed (fun f hf => hfractions f (RawFrame.mem_sort.mp hf))
    (Keyframes.rawFrames_ascending hfractions) ha'

/-- Three frames, out of order and with a progress that no double is, for two properties. -/
theorem ofSource_progress_three_frames :
    let source := "@keyframes a\x7b50%\x7bcolor:red;width:1px\x7d" ++
      "to\x7bcolor:blue\x7d30.5%,from\x7bwidth:0\x7d\x7d"
    ∃ rules b a, (Sheet.parse source).result = .ok rules ∧
      (Bundle.ofSource {} source).result = .ok b ∧ ("a", a) ∈ b.keyframes ∧
      (∀ k ∈ Sheet.keyframes rules, k.name = "a" → ∀ n ∈ k.allProgress, n.isInUnit = true) ∧
      a.frames.map (fun e => (e.1, e.2.length)) = [("width", 3), ("color", 3)] ∧
      ∀ e ∈ a.frames, Timed e.2 := by
  intro source
  have hprogress : (Sheet.parse source).result.toOption.map
      (fun rules => (Sheet.keyframes rules).all fun k => k.allProgress.all Number.isInUnit) =
        some true := by decide +kernel
  have hframes : (Bundle.ofSource {} source).result.toOption.map
      (fun b => b.keyframes.map fun e => (e.1, e.2.frames.map fun f => (f.1, f.2.length))) =
        some [("a", [("width", 3), ("color", 3)])] := by decide +kernel
  obtain ⟨rules, hparse, hprogress⟩ := exists_ok_of_map hprogress
  obtain ⟨b, hb, hframes⟩ := exists_ok_of_map hframes
  obtain ⟨⟨name, a⟩, hbundle, ha⟩ := List.map_eq_singleton_iff.mp hframes
  obtain ⟨rfl, hlengths⟩ := Prod.mk.inj ha
  have hmem : ("a", a) ∈ b.keyframes := by
    rw [hbundle]
    exact List.mem_singleton.mpr rfl
  have hunit : ∀ k ∈ Sheet.keyframes rules, k.name = "a" →
      ∀ n ∈ k.allProgress, n.isInUnit = true := by
    intro k hk _
    exact List.all_eq_true.mp (List.all_eq_true.mp hprogress k hk)
  exact ⟨rules, b, a, hparse, hb, hmem, hunit, hlengths,
    ofSource_progress {} source rules hparse b hb "a" a hmem hunit⟩

/-- Progress beyond the finish, and one before the start: a step may lie beyond the ends, and a
property may begin elsewhere than at the start. -/
theorem progress_beyond_ends :
    let progress (source : String) := (Bundle.ofSource {} source).result.toOption.map fun b =>
      b.keyframes.flatMap fun e => e.2.frames.map fun f => (f.1, f.2.map (·.progress))
    let half := Double.one / 2
    progress "@keyframes a\x7b150%\x7bcolor:red\x7d\x7d" =
      some [("color", [.int 0, .double (.finite false (3 * half))])] ∧
    progress "@keyframes a\x7b-50%\x7bcolor:red\x7d0%\x7bopacity:1\x7d\x7d" =
      some [("color", [.int 0, .double (.finite true half)]),
        ("opacity", [.double (.finite false half)])] := by
  decide +kernel

end StyleBundle
