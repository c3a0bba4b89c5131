import StyleBundle.Proofs.Filing
import StyleBundle.Proofs.Keyframes

/-!
# StyleBundle.Proofs.Extraction

What an extraction leaves in the parts of a state.

* `extractAll_kept`: what every leaf keeps, an extraction keeps.
* `addBlock_invariant`: what filing one rule for one variant keeps, a whole block keeps.
* `extractAll_keyframes`: the animations of a sheet are those of its keyframes.
-/

namespace StyleBundle

/-- What every leaf keeps from an order number that is not below zero, an extraction keeps. -/
theorem extractAll_kept {P : State → Prop} {c : Settings} {rules : List Rule}
    (hstep : ∀ s, 0 ≤ s.order → ∀ l ∈ Sheet.reached rules, P s → P (l.perform c s).state)
    {s : State} (horder : 0 ≤ s.order) (hs : P s) : P (s.extractAll c {} rules).state := by
  refine (extractAll_invariant (P := fun s => 0 ≤ s.order ∧ P s) ?_ ⟨horder, hs⟩).2
  intro s l hl ⟨horder, hs⟩
  exact ⟨perform_nonneg c horder l, hstep s horder l hl hs⟩

theorem fileAll_invariant {P : State → Prop} (c : Settings) (selectors : List String)
    {rs : List StyleRule}
    (hvariant : ∀ r ∈ rs, ∀ s v, P s → P (State.fileVariant r s v)) {s : State} (hs : P s) :
    P (s.fileAll c selectors rs) := by
  refine List.foldlRecOn (motive := P) _ _ hs ?_
  intro s hs r hr
  rw [file_state]
  refine List.foldlRecOn (motive := P) _ _ hs ?_
  intro s hs selector _
  rw [fileSelector_state]
  refine List.foldlRecOn (motive := P) _ _ hs ?_
  intro s hs v _
  exact hvariant r hr s v hs

theorem addBlock_invariant {P : State → Prop} {c : Settings} {ctx : Context} {s : State}
    {b : StyleBlock}
    (hvariant : ∀ r ∈ SheetBlock.rules c s.order.toNat ⟨b, ctx, s.darkMode⟩, ∀ s v, P s →
      P (State.fileVariant r s v))
    (hnext : ∀ s n, P s → P { s with order := n }) (hs : P s) :
    P (s.addBlock c ctx b).state := by
  by_cases hb : b.hasDeclarations = true
  · by_cases horder : 0 ≤ s.order
    · rw [(addBlock_eq c ctx horder hb).2]
      exact hnext _ _ (fileAll_invariant c b.selectors hvariant hs)
    · rw [addBlock_of_neg (Int.not_le.mp horder)]
      exact hs
  · rw [State.addBlock, if_neg hb]
    exact hs

/-- A part of the state that neither rules nor custom properties nor order numbers are kept in is
left alone by a block. -/
theorem addBlock_keeps {α : Type} (part : State → α)
    (hrules : ∀ s t, part { s with rules := t } = part s)
    (hvariables : ∀ s rem root universal,
      part { s with rem, rootVariables := root, universalVariables := universal } = part s)
    (hnext : ∀ s n, part { s with order := n } = part s) (c : Settings) (ctx : Context) (s : State)
    (b : StyleBlock) : part (s.addBlock c ctx b).state = part s := by
  refine addBlock_invariant (P := fun t => part t = part s) ?_
    (fun t n ht => (hnext t n).trans ht) rfl
  intro r _ t v ht
  cases v with
  | className target =>
    refine List.foldlRecOn (motive := fun t : State => part t = part s) _ _ ht ?_
    intro t ht e _
    exact (hrules t _).trans ht
  | customProperties scope subtype =>
    cases scope with
    | root => exact (hvariables t _ _ t.universalVariables).trans ht
    | universal => exact (hvariables t _ t.rootVariables _).trans ht

theorem addBlock_keyframes (c : Settings) (ctx : Context) (s : State) (b : StyleBlock) :
    (s.addBlock c ctx b).state.keyframes = s.keyframes :=
  addBlock_keeps State.keyframes (fun _ _ => rfl) (fun _ _ _ _ => rfl) (fun _ _ => rfl) c ctx s b

/-! ## Animations -/

/-- An animation that a sheet has under a name: that of the frames of a keyframes rule that is
reached, in the order of their progress. -/
structure Sheet.Animates (c : Settings) (rules : List Rule) (name : String) (a : Animation)
    (k : Keyframes) : Prop where
  reached : ∃ l ∈ Sheet.reached rules, l.rule = .keyframes k
  name : k.name = name
  frames : ∃ a', Animation.ofFrames k.name
      (RawFrame.sort (k.rawFrames (c.buildContext []) c.read)) = .ok a' ∧
    a.frames = a'.frames ∧ a.easings = a'.easings

theorem addKeyframes_keyframes {c : Settings} {s : State} (hs : 0 ≤ s.order) {rules : List Rule}
    {l : Leaf} (hl : l ∈ Sheet.reached rules) {k : Keyframes} (hk : l.rule = .keyframes k)
    (h : ∀ e ∈ s.keyframes, ∃ k, Sheet.Animates c rules e.1 e.2 k) :
    ∀ e ∈ (s.addKeyframes c k).state.keyframes, ∃ k, Sheet.Animates c rules e.1 e.2 k := by
  obtain ⟨width, height, hresult⟩ :=
    Animation.ofKeyframes_result (c.buildContext []) c.read hs k
  unfold State.addKeyframes Outcome.ofNoted
  rw [hresult]
  cases ha : Animation.ofFrames k.name
      (RawFrame.sort (k.rawFrames (c.buildContext []) c.read)) with
  | error e => exact h
  | ok a =>
    refine Table.forall_alter (R := fun name a => ∃ k, Sheet.Animates c rules name a k) h ?_
    intro _ _
    exact ⟨k, ⟨l, hl, hk⟩, rfl, a, ha, rfl, rfl⟩

theorem extractAll_keyframes (c : Settings) (dark : DarkMode) (rules : List Rule) :
    ∀ e ∈ (State.extractAll c {} { darkMode := dark } rules).state.keyframes,
      ∃ k, Sheet.Animates c rules e.1 e.2 k := by
  refine extractAll_kept
    (P := fun s => ∀ e ∈ s.keyframes, ∃ k, Sheet.Animates c rules e.1 e.2 k) ?_ Int.one_nonneg ?_
  · intro s hs l hl hkeyframes
    obtain ⟨wrappers, rule⟩ := l
    cases rule with
    | style b =>
      rw [Leaf.perform, addBlock_keyframes]
      exact hkeyframes
    | keyframes k => exact addKeyframes_keyframes hs hl rfl hkeyframes
    | directive d =>
      rw [Leaf.perform, addDirective_state]
      exact hkeyframes
    | unknown kind => exact hkeyframes
  · intro e he
    cases he

end StyleBundle
