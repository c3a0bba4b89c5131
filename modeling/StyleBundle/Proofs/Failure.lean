import StyleBundle.Proofs.Context
import StyleBundle.Proofs.Keyframes
import StyleBundle.Proofs.Reading
import StyleBundle.Proofs.Sources

/-!
# StyleBundle.Proofs.Failure

Only a malformed source is fatal. Declarations are read into values that can be animated, the
progress of frames is a double, so that there is a difference, and no block has an order number
below zero. What is left is the source itself: `compile_error_iff`.
-/

namespace StyleBundle

theorem Instruction.Within.values {P : Bounds} {Q : Value → Prop} {i : Instruction}
    (h : i.Within P Q) : ∀ v ∈ i.values, v.Plain P := by
  cases i with
  | style name value path => exact List.forall_mem_singleton.mpr h
  | transform name value => exact List.forall_mem_singleton.mpr h
  | transformShorthand name parts => exact List.forall_mem_map.mpr h
  | styleShorthand name parts => exact List.forall_mem_map.mpr h
  | _ => nofun

/-! ## Any number and any type of container -/

def Bounds.any : Bounds where
  number _ := True
  time _ := True

theorem Atom.over_any (a : Atom) : a.Over .any := by
  cases a with
  | dimension n unit => exact ⟨fun _ => trivial, fun _ => trivial⟩
  | _ => exact trivial

theorem admits_any : Admits .any fun _ => True where
  zero := trivial
  one := trivial
  noTime := trivial
  null := trivial
  text _ := trivial

theorem Declaration.within_any (d : Declaration) : d.Within .any fun _ => True where
  numbers a _ := a.over_any
  kind _ := trivial

theorem Declaration.read_primitive {d : Declaration} {i : Instruction} (hi : i ∈ read d) {v : Value}
    (hv : v ∈ i.values) : v.isPrimitive = true :=
  ((read_within admits_any (within_any d) i hi).values v hv).primitive

theorem Keyframe.body_primitive (ctx : BuildContext) (k : Keyframe) :
    ∀ v ∈ RawFrame.valuesOf (k.body ctx Declaration.read), v.value.isPrimitive = true := by
  intro v hv
  obtain ⟨d, hd, hvalue⟩ := RawFrame.mem_valuesOf hv
  have hbody : (k.body ctx Declaration.read).Within .any fun _ => True :=
    buildRule_within admits_any ctx {} fun d _ => Declaration.read_within admits_any d.within_any
  rw [← hvalue]
  exact (hbody.declarations d hd).primitive

/-! ## Keyframes -/

/-- A number that is a double. -/
def Number.IsDouble (n : Number) : Prop := ∃ d, n = .double d

theorem Number.IsDouble.sub? {m n : Number} (hm : m.IsDouble) (hn : n.IsDouble) :
    ∃ d, m.sub? n = some d := by
  obtain ⟨x, rfl⟩ := hm
  obtain ⟨y, rfl⟩ := hn
  exact ⟨.double (x.sub y), rfl⟩

theorem Sheet.FrameProgress.isDouble {as : List Atom} {n : Number} (h : Sheet.FrameProgress as n) :
    n.IsDouble := by
  cases h with
  | start => exact ⟨_, rfl⟩
  | finish => exact ⟨_, rfl⟩
  | percentage h => exact ⟨_, rfl⟩

theorem Animation.ofFrames_ok (name : String) {frames : List RawFrame}
    (hprogress : ∀ f ∈ frames, f.progress.IsDouble)
    (hvalues : ∀ f ∈ frames, ∀ v ∈ f.values, v.value.isPrimitive = true) :
    ∃ a, ofFrames name frames = .ok a := by
  have hsub : ∀ previous current f rest,
      Visits Number.IsDouble previous current (f :: rest) →
      ∃ d, f.progress.sub? (advance previous current f).1 = some d := by
    intro previous current f rest h
    exact (h.frames f List.mem_cons_self).sub? (Visits.next previous current f rest h).previous
  have hstart : Visits Number.IsDouble zero zero frames := ⟨⟨_, rfl⟩, ⟨_, rfl⟩, hprogress⟩
  obtain ⟨table, htable⟩ := addFrames_total Visits.next hsub name hvalues hstart []
  rw [ofFrames, htable]
  exact ⟨_, rfl⟩

theorem addKeyframes_ok {c : Settings} (hread : c.read = Declaration.read) {s : State}
    (hs : 0 ≤ s.order) {as : List Atom} {k : Keyframes} (hk : ∀ f ∈ k.frames, f.ReadFrom as) :
    (s.addKeyframes c k).failure = none := by
  obtain ⟨width, height, hresult⟩ :=
    Animation.ofKeyframes_result (c.buildContext []) Declaration.read hs k
  have hframes : ∀ f ∈ RawFrame.sort (k.rawFrames (c.buildContext []) Declaration.read),
      f.progress.IsDouble ∧ ∀ v ∈ f.values, v.value.isPrimitive = true := by
    intro f hf
    obtain ⟨frame, hframe, ⟨o, ho, hprogress⟩, hvalues, _⟩ :=
      Keyframes.mem_rawFrames (RawFrame.mem_sort.mp hf)
    rw [hvalues]
    exact ⟨(hk frame hframe o ho _ hprogress).isDouble, frame.body_primitive _⟩
  obtain ⟨a, ha⟩ := Animation.ofFrames_ok k.name (fun f hf => (hframes f hf).1)
    fun f hf => (hframes f hf).2
  unfold State.addKeyframes
  rw [hread, Outcome.ofNoted_of_ok (hresult.trans (by rw [ha]; rfl))]

/-! ## Sheets -/

theorem perform_ok {c : Settings} (hread : c.read = Declaration.read) {s : State}
    (hs : 0 ≤ s.order) {as : List Atom} {l : Leaf} (hl : l.rule.ReadFrom as) :
    (l.perform c s).failure = none ∧ 0 ≤ (l.perform c s).state.order := by
  constructor
  · obtain ⟨wrappers, rule⟩ := l
    cases rule with
    | style b => exact addBlock_failure c _ hs b
    | keyframes k => exact addKeyframes_ok hread hs hl
    | directive d => exact addDirective_failure s d
    | unknown kind => rfl
  · exact perform_nonneg c hs l

theorem extractAll_parsed {c : Settings} (hread : c.read = Declaration.read) {source : String}
    {rules : List Rule} (h : (Sheet.parse source).result = .ok rules) {s : State}
    (hs : 0 ≤ s.order) : (s.extractAll c {} rules).failure = none := by
  refine extractAll_ok (P := fun s => 0 ≤ s.order) ?_ hs
  intro s l hl hs
  have hleaf : l ∈ Rule.leavesAll [] rules := (List.mem_filter.mp hl).1
  exact perform_ok hread hs (Sheet.parse_readFrom h [] l hleaf)

theorem Bundle.compile_parsed {c : Settings} (hread : c.read = Declaration.read) (dark : DarkMode)
    {source : String} {rules : List Rule} (h : (Sheet.parse source).result = .ok rules) :
    ∃ b, (compile c { darkMode := dark } rules).result = .ok b :=
  ⟨_, compile_of_ok (extractAll_parsed hread h Int.one_nonneg)⟩

/-- Whatever names are groups and whatever warnings are ignored, a compilation gives a bundle
exactly if the source can be read, and otherwise fails with the error of the source; options that
come to such settings compile to the same. No declaration is read into a value of a property that
cannot be animated. -/
theorem compile_error_iff (c : Settings) (dark : DarkMode) (source : String) :
    let c := { c with read := Declaration.read }
    let result := (Bundle.ofParsed (Bundle.compile c { darkMode := dark }) source).result
    ((∃ b, result = .ok b) ↔ ∃ rules, (Sheet.parse source).result = .ok rules) ∧
    (∀ e, result = .error e ↔ ∃ e', (Sheet.parse source).result = .error e' ∧ e = .source e') ∧
    (∀ o : Options, o.settings = .ok c → o.darkMode = dark → o.arrange = id →
      (Bundle.ofSource o source).result = result) ∧
    ∀ d, ∀ i ∈ Declaration.read d, ∀ v ∈ i.values, v.isPrimitive = true := by
  intro c result
  have hoptions : ∀ o : Options, o.settings = .ok c → o.darkMode = dark → o.arrange = id →
      (Bundle.ofSource o source).result = result := by
    intro o hc hdark harrange
    rw [Bundle.ofSource_of_unarranged hc harrange, Bundle.start, hdark]
  refine and_assoc.mp ⟨?_, hoptions, fun d i hi v hv => Declaration.read_primitive hi hv⟩
  cases hparse : (Sheet.parse source).result with
  | error e' =>
    have hresult : result = .error (.source e') := by
      simp only [result, Bundle.ofParsed_result, hparse]
      rfl
    simp [hresult, eq_comm]
  | ok rules =>
    obtain ⟨b, hb⟩ := Bundle.compile_parsed (c := c) rfl dark hparse
    have hresult : result = .ok b := (Bundle.ofParsed_of_parse hparse _).trans hb
    simp [hresult]

/-- A frame beyond the end with a shorthand, a transform and an address, and a sheet that breaks
off. -/
theorem compile_error_iff_frames :
    let c : Settings :=
      { isGroup := (· == "group"), ignores := (· ∈ ["cursor", "float"]), classifier := .standard,
        read := Declaration.read }
    let source :=
      "@keyframes a\x7b150%,from\x7bmargin:1px 2em;transform:scale(2) none;all:url(x)\x7d\x7d"
    (∃ b, (Bundle.ofParsed (Bundle.compile c {}) source).result = .ok b) ∧
    (Bundle.ofParsed (Bundle.compile c {}) ".a\x7b\x7d .b").result = .error (.source
      { problem := Problem.endReached.text, line := some 1, column := some 7 }) := by
  intro c source
  constructor
  · refine (compile_error_iff c {} _).1.mpr ?_
    have hread : (Sheet.parse source).result.isOk = true := by decide +kernel
    cases hparse : (Sheet.parse source).result with
    | ok rules => exact ⟨rules, rfl⟩
    | error e =>
      rw [hparse] at hread
      cases hread
  · refine ((compile_error_iff c {} _).2.1 _).mpr ⟨_, eq_error_of_error? ?_, rfl⟩
    decide +kernel

end StyleBundle
