import StyleBundle.Proofs.Classification
import StyleBundle.Proofs.Variables

/-!
# StyleBundle.Proofs.DarkTheme

Which custom properties are kept for the dark theme, where media queries tell it.

* `MediaQuery.MentionsDark`, `MediaQuery.IsNegated`, `MediaQuery.AsksForDark`: what a query says of
  the dark theme.
* `SheetBlock.recordings`: what a block records of custom properties, and for which theme.
* `fileVariant_records`, `perform_records`, `extractAll_records`: what one variant of a selector,
  one leaf and a whole sheet leave in the state.
* `SheetBlock.mem_recordings_media`: what a block records, if media queries tell the dark theme.
* `extractAll_dark`: the two together. Every query that mentions the dark theme counts, negated or
  not.
-/

namespace StyleBundle

/-! ## Queries -/

theorem Text.occursIn_iff {needle cs : List Char} :
    Text.occursIn needle cs = true ↔ needle <:+: cs := by
  induction cs with
  | nil => simp [Text.occursIn]
  | cons c rest ih =>
    rw [Text.occursIn, Bool.or_eq_true, ih, List.isPrefixOf_iff_prefix, List.infix_cons_iff]

namespace MediaQuery

/-- The condition of a query has the dark theme in it, whatever the case and the blanks. -/
def MentionsDark (q : MediaQuery) : Prop :=
  "prefers-color-scheme:dark".toList <:+: Text.folded (Text.withoutBlanks (q.condition.getD ""))

/-- A query has the qualifier `not`, or its condition begins with that word. -/
def IsNegated (q : MediaQuery) : Prop :=
  Text.lower (q.qualifier.getD "") = "not" ∨
    (Token.skipIdle (Token.ofText (q.condition.getD ""))).head?.any (·.isKeyword ["not"]) = true

/-- A query that holds under the dark theme only. -/
def AsksForDark (q : MediaQuery) : Prop := q.MentionsDark ∧ ¬ q.IsNegated

theorem mentionsDark_iff {q : MediaQuery} :
    Selector.mentionsDark q = true ↔ q.MentionsDark := Text.occursIn_iff

instance (q : MediaQuery) : Decidable q.MentionsDark := decidable_of_iff _ mentionsDark_iff

instance (q : MediaQuery) : Decidable q.IsNegated := inferInstanceAs (Decidable (_ ∨ _))

instance (q : MediaQuery) : Decidable q.AsksForDark := inferInstanceAs (Decidable (_ ∧ _))

/-- Either a query asks for the dark theme, or all that mention it are negated. -/
theorem exists_mentionsDark_iff {media : List MediaQuery} :
    (∃ q ∈ media, q.MentionsDark) ↔
      (∃ q ∈ media, q.AsksForDark) ∨
        (∃ q ∈ media, q.MentionsDark) ∧ ∀ q ∈ media, q.MentionsDark → q.IsNegated := by
  constructor
  · intro hmentions
    by_cases hnegated : ∀ q ∈ media, q.MentionsDark → q.IsNegated
    · exact .inr ⟨hmentions, hnegated⟩
    · push Not at hnegated
      exact .inl hnegated
  · rintro (⟨q, hq, hmentions, -⟩ | ⟨hmentions, -⟩)
    · exact ⟨q, hq, hmentions⟩
    · exact hmentions

end MediaQuery

/-! ## Recordings -/

/-- A value of a custom property for a theme, and where it is kept. -/
structure Recording where
  scope : Scope
  subtype : String
  name : String
  value : Value

/-- The value that is recorded last for a name and a theme. -/
def Recording.last? (scope : Scope) (subtype name : String) (rs : List Recording) : Option Value :=
  ((rs.filter fun r => r.scope = scope ∧ r.subtype = subtype ∧ r.name = name).getLast?).map
    (·.value)

theorem Recording.last?_append (scope : Scope) (subtype name : String) (rs rs' : List Recording) :
    last? scope subtype name (rs ++ rs') =
      (last? scope subtype name rs').or (last? scope subtype name rs) := by
  rw [last?, List.filter_append, List.getLast?_append, Option.map_or]
  rfl

/-- What the custom properties of a rule come to for a variant of a selector. -/
def Variant.recordings (entries : List (String × Value)) : Variant → List Recording
  | .className _ => []
  | .customProperties scope subtype => entries.map fun e => ⟨scope, subtype, e.1, e.2⟩

namespace SheetBlock

/-- The custom properties of a block, those that are important or the others. -/
def customProperties (c : Settings) (p : SheetBlock) (important : Bool) : List (String × Value) :=
  (buildRule (c.buildContext (.ofDirectives p.block.directives)) c.read {}
    (p.block.declarationsOf important)).rule.customProperties.getD []

def recordingsOf (c : Settings) (p : SheetBlock) (important : Bool) : List Recording :=
  p.block.selectors.flatMap fun selector =>
    (c.classify p.darkMode p.context.media selector).flatMap
      (Variant.recordings (p.customProperties c important))

/-- Everything that a block records, the normal declarations first. -/
def recordings (c : Settings) (p : SheetBlock) : List Recording :=
  p.recordingsOf c false ++ p.recordingsOf c true

end SheetBlock

/-! ## What is left in the state -/

def Variables.value? (v : Variables) (subtype name : String) : Option Value :=
  (Table.get? name v).bind (Table.get? subtype)

theorem Variables.value?_put (v : Variables) (subtype name : String) (value : Value)
    (subtype' name' : String) :
    (v.put subtype name value).value? subtype' name' =
      if subtype = subtype' ∧ name = name' then some value else v.value? subtype' name' := by
  unfold Variables.value? Variables.put
  by_cases hname : name = name'
  · subst hname
    rw [Table.get?_alter_self, Option.bind_some, Table.put]
    by_cases hsubtype : subtype = subtype'
    · subst hsubtype
      rw [Table.get?_alter_self, if_pos ⟨rfl, rfl⟩]
    · rw [Table.get?_alter_of_ne (Ne.symm hsubtype), if_neg fun h => hsubtype h.1]
      cases Table.get? name v <;> rfl
  · rw [Table.get?_alter_of_ne (Ne.symm hname), if_neg fun h => hname h.2]

/-- The value that a state has for a name and a theme. -/
def State.recorded? (s : State) (scope : Scope) (subtype name : String) : Option Value :=
  (s.variables scope).value? subtype name

/-- A state has what is recorded besides, and otherwise what another has. -/
def Records (s s' : State) (rs : List Recording) : Prop :=
  ∀ scope subtype name, s'.recorded? scope subtype name =
    (Recording.last? scope subtype name rs).or (s.recorded? scope subtype name)

theorem Records.refl (s : State) : Records s s [] := fun _ _ _ => rfl

theorem Records.trans {s s' s'' : State} {rs rs' : List Recording} (h : Records s s' rs)
    (h' : Records s' s'' rs') : Records s s'' (rs ++ rs') := by
  intro scope subtype name
  rw [h' scope subtype name, h scope subtype name, Recording.last?_append, Option.or_assoc]

theorem Records.of_variables {s s' : State} (h : s'.variables = s.variables) : Records s s' [] := by
  intro scope subtype name
  rw [State.recorded?, h]
  rfl

theorem Variables.value?_addAll (scope : Scope) (subtype : String) (entries : List (String × Value))
    (v : Variables) (subtype' name : String) :
    (v.addAll subtype entries).value? subtype' name =
      (Recording.last? scope subtype' name
        ((Variant.customProperties scope subtype).recordings entries)).or
        (v.value? subtype' name) := by
  induction entries generalizing v with
  | nil => rfl
  | cons e rest ih =>
    have hone : (v.put subtype e.1 e.2).value? subtype' name =
        (Recording.last? scope subtype' name [⟨scope, subtype, e.1, e.2⟩]).or
          (v.value? subtype' name) := by
      rw [Variables.value?_put, Recording.last?]
      by_cases h : subtype = subtype' ∧ e.1 = name
      · simp [h]
      · simp [h]
    rw [Variables.addAll, List.foldl_cons]
    refine (ih _).trans ?_
    rw [hone, ← Option.or_assoc, ← Recording.last?_append]
    rfl

theorem Recording.last?_other {scope other : Scope} (h : other ≠ scope) (subtype : String)
    (entries : List (String × Value)) (subtype' name : String) :
    last? other subtype' name ((Variant.customProperties scope subtype).recordings entries) =
      none := by
  have hnone : ((Variant.customProperties scope subtype).recordings entries).filter
      (fun r => r.scope = other ∧ r.subtype = subtype' ∧ r.name = name) = [] := by
    rw [List.filter_eq_nil_iff]
    intro r hr
    obtain ⟨e, -, rfl⟩ := List.mem_map.mp hr
    simp [Ne.symm h]
  rw [last?, hnone]
  rfl

theorem variables_addVariables (s : State) (scope scope' : Scope) (subtype : String)
    (r : StyleRule) :
    (s.addVariables scope subtype r).variables scope' =
      if scope' = scope then (s.variables scope).addAll subtype (r.customProperties.getD [])
      else s.variables scope' := by
  cases scope <;> cases scope' <;> rfl

theorem addVariables_records (s : State) (scope : Scope) (subtype : String) (r : StyleRule) :
    Records s (s.addVariables scope subtype r)
      ((Variant.customProperties scope subtype).recordings (r.customProperties.getD [])) := by
  intro scope' subtype' name
  rw [State.recorded?, variables_addVariables]
  by_cases hscope : scope' = scope
  · subst hscope
    rw [if_pos rfl]
    exact Variables.value?_addAll _ _ _ _ _ _
  · rw [if_neg hscope, Recording.last?_other hscope, Option.none_or]
    rfl

theorem fileVariant_records (r : StyleRule) (s : State) (v : Variant) :
    Records s (State.fileVariant r s v) (v.recordings (r.customProperties.getD [])) := by
  cases v with
  | className target =>
    apply Records.of_variables
    refine List.foldlRecOn (motive := fun t : State => t.variables = s.variables) _ _ rfl ?_
    intro t ht e _
    rw [← ht]
    funext scope
    cases scope <;> rfl
  | customProperties scope subtype => exact addVariables_records s scope subtype r

theorem fileVariants_records (r : StyleRule) (s : State) (vs : List Variant) :
    Records s (vs.foldl (State.fileVariant r) s)
      (vs.flatMap (Variant.recordings (r.customProperties.getD []))) := by
  induction vs generalizing s with
  | nil => exact .refl s
  | cons v rest ih => exact (fileVariant_records r s v).trans (ih _)

/-- All selectors of a rule are classified alike, since filing keeps how the dark theme is told. -/
theorem file_records (c : Settings) (selectors : List String) (s : State) (r : StyleRule) :
    Records s (State.file c selectors s r).state
      (selectors.flatMap fun selector =>
        (c.classify s.darkMode (r.media.getD []) selector).flatMap
          (Variant.recordings (r.customProperties.getD []))) := by
  rw [file_state]
  induction selectors generalizing s with
  | nil => exact .refl s
  | cons selector rest ih =>
    have hone := fileVariants_records r s (c.classify s.darkMode (r.media.getD []) selector)
    have hfiles := fileVariants_files 0 false selector r s
      (c.classify s.darkMode (r.media.getD []) selector)
    rw [← fileSelector_state] at hone hfiles
    have hrest := ih (State.fileSelector c r s selector).state
    rw [hfiles.darkMode] at hrest
    exact hone.trans hrest

section Block

variable {c : Settings} {p : SheetBlock} {order : Nat}

theorem SheetBlock.recordingsOf_none {important : Bool}
    (h : p.rule? c order important = none) : p.recordingsOf c important = [] := by
  have hnil : p.customProperties c important = [] := by
    rw [customProperties, rule?_eq_none_iff.mp h]
    rfl
  have hvariant : ∀ v : Variant, v.recordings [] = [] := by
    intro v
    cases v <;> rfl
  simp [recordingsOf, hnil, hvariant]

theorem fileRule_records (important : Bool) {s : State} (hdark : s.darkMode = p.darkMode) :
    Records s (s.fileAll c p.block.selectors (p.rule? c order important).toList)
      (p.recordingsOf c important) := by
  cases hr : p.rule? c order important with
  | none =>
    rw [SheetBlock.recordingsOf_none hr]
    exact .refl s
  | some r =>
    obtain ⟨-, hmedia, -, hbody⟩ := SheetBlock.rule?_eq hr
    have hproperties : r.body.customProperties.getD [] = p.customProperties c important := by
      rw [hbody]
      rfl
    have hfile := file_records c p.block.selectors s r
    rw [hdark, hmedia, getD_nonempty] at hfile
    rw [SheetBlock.recordingsOf, ← hproperties]
    exact hfile

theorem fileRules_records {s : State} (hdark : s.darkMode = p.darkMode) :
    Records s (s.fileAll c p.block.selectors (p.rules c order)) (p.recordings c) := by
  rw [SheetBlock.rules, State.fileAll, List.foldl_append]
  let s' := s.fileAll c p.block.selectors (p.rule? c order false).toList
  have hnormal : Records s s' (p.recordingsOf c false) := fileRule_records false hdark
  have hfiles : Files s s' (p.filingsOf c order false) := fileRule_files false hdark
  have himportant : Records s' (s'.fileAll c p.block.selectors (p.rule? c order true).toList)
      (p.recordingsOf c true) := fileRule_records true (hfiles.darkMode.trans hdark)
  exact hnormal.trans himportant

end Block

/-- What one leaf records: what its block does, if it is one that counts. -/
theorem perform_records (c : Settings) {s : State} (hs : 0 ≤ s.order) (l : Leaf) :
    Records s (l.perform c s).state ((l.block? s.darkMode).toList.flatMap (·.recordings c)) := by
  obtain ⟨wrappers, rule⟩ := l
  cases rule with
  | style b =>
    simp only [Leaf.perform, Leaf.block?]
    by_cases hb : b.hasDeclarations = true
    · rw [if_pos hb, (addBlock_eq c _ hs hb).2, Option.toList_some, List.flatMap_singleton]
      exact fileRules_records (p := ⟨b, _, s.darkMode⟩) rfl
    · rw [if_neg hb, State.addBlock, if_neg hb]
      exact .refl s
  | keyframes k =>
    simp only [Leaf.perform, Leaf.block?]
    rw [addKeyframes_state]
    exact .refl s
  | directive d =>
    simp only [Leaf.perform, Leaf.block?]
    rw [addDirective_state]
    exact .refl s
  | unknown kind => exact .refl s

theorem performAll_records (c : Settings) (ls : List Leaf) {s : State} (hs : 0 ≤ s.order) :
    Records s (ls.foldl (fun s l => (l.perform c s).state) s)
      ((Sheet.blocks s.darkMode ls).flatMap (·.recordings c)) := by
  induction ls generalizing s with
  | nil => exact .refl s
  | cons l rest ih =>
    have hrest := ih (perform_nonneg c hs l)
    rw [(perform_files c hs l).1] at hrest
    rw [Sheet.blocks, List.flatMap_append]
    exact (perform_records c hs l).trans hrest

theorem extractAll_records (c : Settings) {s : State} (hs : 0 ≤ s.order) (rules : List Rule) :
    Records s (s.extractAll c {} rules).state
      ((Sheet.blocks s.darkMode (Sheet.carried c s rules)).flatMap (·.recordings c)) := by
  rw [(Outcome.silent_eq_iff.mp (extractAll_leaves c s rules)).1,
    Outcome.each_state (perform_stopped c)]
  exact performAll_records c _ hs

/-! ## Where media queries tell the dark theme -/

/-- A selector without ancestors that names a scope of custom properties. -/
def Selector.NamesScope (selector : String) (scope : Scope) : Prop :=
  ∃ subject, Spells (Token.ofText selector) [subject] ∧ IsScope subject ∧
    (scope = .root ↔ .root ∈ subject)

theorem Scope.eq_of_root_iff {scope scope' : Scope} (h : scope = .root ↔ scope' = .root) :
    scope = scope' := by
  cases scope <;> cases scope' <;> simp_all

theorem Selector.scope_mem_media {isGroup : String → Bool} {dark : DarkMode}
    (hdark : dark.strategy = .media) {media : List MediaQuery} {selector : String} {scope : Scope}
    {subtype : String} :
    .customProperties scope subtype ∈ Classifier.standard isGroup dark media selector ↔
      NamesScope selector scope ∧
        (subtype = "dark" ∧ (∃ q ∈ media, q.MentionsDark) ∨
          subtype = "default" ∧ ¬ ∃ q ∈ media, q.MentionsDark) := by
  -- no class and no attribute tells the dark theme
  have htell (run : List Simple) : ¬ Simple.TellDark dark run := by
    rw [← isDarkMarker_ofRun, isDarkMarker_media hdark]
    exact Bool.false_ne_true
  have hforDark (runs : List (List Simple)) :
      ForDark dark media runs ↔ ∃ q ∈ media, q.MentionsDark := by
    simp [ForDark, hdark, htell, MediaQuery.mentionsDark_iff]
  constructor
  · intro hmem
    obtain ⟨ancestors, subject, hspells⟩ := spells_of_mem_standard hmem
    have hselects := selectsScope_of_mem hspells hmem
    have hancestors : ancestors = [] :=
      List.eq_nil_iff_forall_not_mem.mpr fun a ha => htell a (hselects.around a ha)
    subst hancestors
    have hsubtype := hselects.subtype
    rw [hforDark] at hsubtype
    exact ⟨⟨subject, hspells, hselects.isScope, hselects.scope⟩, hsubtype⟩
  · rintro ⟨⟨subject, hspells, hsubject, hscope⟩, hsubtype⟩
    have hspells : Spells (Token.ofText selector) ([] ++ [subject]) := hspells
    have hsome : ∃ scope subtype,
        .customProperties scope subtype ∈ Classifier.standard isGroup dark media selector := by
      rw [exists_scope_iff hspells]
      exact ⟨hsubject, fun a ha => absurd ha List.not_mem_nil⟩
    obtain ⟨scope', subtype', hmem⟩ := hsome
    have hselects := selectsScope_of_mem hspells hmem
    have hscope' : scope' = scope := Scope.eq_of_root_iff (hselects.scope.trans hscope.symm)
    have hsubtype' := hselects.subtype
    rw [hforDark] at hsubtype'
    have hsame : subtype' = subtype := by
      rcases hsubtype with ⟨rfl, hmentions⟩ | ⟨rfl, hmentions⟩
      · simpa [hmentions] using hsubtype'
      · simpa [hmentions] using hsubtype'
    rw [← hscope', ← hsame]
    exact hmem

/-- A block gives a value to a custom property of a scope, for whatever theme. -/
def SheetBlock.Gives (c : Settings) (p : SheetBlock) (scope : Scope) (name : String)
    (value : Value) : Prop :=
  (∃ selector ∈ p.block.selectors, Selector.NamesScope selector scope) ∧
    ∃ important, (name, value) ∈ p.customProperties c important

theorem Variant.mem_recordings {entries : List (String × Value)} {v : Variant} {r : Recording} :
    r ∈ v.recordings entries ↔
      v = .customProperties r.scope r.subtype ∧ (r.name, r.value) ∈ entries := by
  obtain ⟨scope, subtype, name, value⟩ := r
  cases v with
  | className target => simp [Variant.recordings]
  | customProperties scope' subtype' =>
    simp only [Variant.recordings, List.mem_map, Recording.mk.injEq, Variant.customProperties.injEq]
    constructor
    · rintro ⟨e, he, rfl, rfl, rfl, rfl⟩
      exact ⟨⟨rfl, rfl⟩, he⟩
    · rintro ⟨⟨rfl, rfl⟩, he⟩
      exact ⟨_, he, rfl, rfl, rfl, rfl⟩

theorem SheetBlock.mem_recordings {c : Settings} {p : SheetBlock} {r : Recording} :
    r ∈ p.recordings c ↔
      (∃ selector ∈ p.block.selectors,
        .customProperties r.scope r.subtype ∈ c.classify p.darkMode p.context.media selector) ∧
      ∃ important, (r.name, r.value) ∈ p.customProperties c important := by
  have hof (important : Bool) : r ∈ p.recordingsOf c important ↔
      (∃ selector ∈ p.block.selectors,
        .customProperties r.scope r.subtype ∈ c.classify p.darkMode p.context.media selector) ∧
      (r.name, r.value) ∈ p.customProperties c important := by
    simp only [recordingsOf, List.mem_flatMap, Variant.mem_recordings]
    constructor
    · rintro ⟨selector, hselector, v, hv, rfl, hentry⟩
      exact ⟨⟨selector, hselector, hv⟩, hentry⟩
    · rintro ⟨⟨selector, hselector, hv⟩, hentry⟩
      exact ⟨selector, hselector, _, hv, rfl, hentry⟩
  rw [recordings, List.mem_append, hof, hof, ← and_or_left, Bool.exists_bool]

/-- Where media queries tell the dark theme, a value is recorded for it exactly if one of them
mentions it, and as the one for all themes otherwise. -/
theorem SheetBlock.mem_recordings_media {c : Settings} {p : SheetBlock}
    (hdark : p.darkMode.strategy = .media) {r : Recording} :
    r ∈ p.recordings c.standard ↔
      p.Gives c.standard r.scope r.name r.value ∧
        (r.subtype = "dark" ∧ (∃ q ∈ p.context.media, q.MentionsDark) ∨
          r.subtype = "default" ∧ ¬ ∃ q ∈ p.context.media, q.MentionsDark) := by
  rw [mem_recordings, Gives]
  simp only [Settings.classify, Settings.standard, Selector.scope_mem_media hdark]
  constructor
  · rintro ⟨⟨selector, hselector, hscope, hsubtype⟩, hentry⟩
    exact ⟨⟨⟨selector, hselector, hscope⟩, hentry⟩, hsubtype⟩
  · rintro ⟨⟨⟨selector, hselector, hscope⟩, hentry⟩, hsubtype⟩
    exact ⟨⟨selector, hselector, hscope, hsubtype⟩, hentry⟩

/-- A custom property has, for each theme, the value that was recorded last. A block in which media
queries tell the dark theme records its values for it exactly if some query of its context asks for
it, or if there are queries that mention it and all of these are negated. -/
theorem extractAll_dark (c : Settings) (dark : DarkMode) (rules : List Rule) :
    let s : State := { darkMode := dark }
    let blocks := Sheet.blocks dark (Sheet.carried c.standard s rules)
    (∀ scope subtype name, (s.extractAll c.standard {} rules).state.recorded? scope subtype name =
      Recording.last? scope subtype name (blocks.flatMap (·.recordings c.standard))) ∧
    ∀ p ∈ blocks, p.darkMode.strategy = .media → ∀ scope name value,
      (⟨scope, "dark", name, value⟩ ∈ p.recordings c.standard ↔
        p.Gives c.standard scope name value ∧
          ((∃ q ∈ p.context.media, q.AsksForDark) ∨
            (∃ q ∈ p.context.media, q.MentionsDark) ∧
              ∀ q ∈ p.context.media, q.MentionsDark → q.IsNegated)) ∧
      (⟨scope, "default", name, value⟩ ∈ p.recordings c.standard ↔
        p.Gives c.standard scope name value ∧ ∀ q ∈ p.context.media, ¬ q.MentionsDark) := by
  intro s blocks
  constructor
  · intro scope subtype name
    have hnone : s.recorded? scope subtype name = none := by cases scope <;> rfl
    have hrecords := extractAll_records c.standard (s := s) Int.one_nonneg rules scope subtype name
    rw [hnone, Option.or_none] at hrecords
    exact hrecords
  · intro p _ hdark scope name value
    rw [SheetBlock.mem_recordings_media hdark, SheetBlock.mem_recordings_media hdark,
      ← MediaQuery.exists_mentionsDark_iff]
    simp

/-- One query of a context asks for the dark theme, another that mentions it is negated. -/
theorem extractAll_dark_nested :
    let c : Settings := ⟨fun _ => false, fun _ => false, .standard, Declaration.read⟩
    let asks : MediaQuery := { condition := some "( Prefers-Color-Scheme : dark )" }
    let negated : MediaQuery := { condition := some "not (prefers-color-scheme: dark)" }
    let b : StyleBlock := { selectors := [".a", ":root"], declarations := [⟨"--x", "1"⟩] }
    let rules : List Rule :=
      [.media [negated, { mediaType := some "print" }] [.media [asks] [.style b]]]
    let p : SheetBlock := ⟨b, { media := [negated, asks] }, {}⟩
    (p ∈ Sheet.blocks {} (Sheet.carried c.standard {} rules) ∧ p.darkMode.strategy = .media) ∧
      asks.AsksForDark ∧ negated.MentionsDark ∧ negated.IsNegated ∧
      ((State.extractAll c.standard {} {} rules).state.recorded? .root "dark" "--x").bind
        Value.size? = some (.int 1) ∧
      ∃ value, p.Gives c.standard .root "--x" value ∧ value.size? = some (.int 1) := by
  intro c asks negated b rules p
  have hblock : p ∈ Sheet.blocks {} (Sheet.carried c.standard {} rules) := by
    have hblocks : (Sheet.blocks {} (Sheet.carried c.standard {} rules)).map
        (fun p => (p.block, p.context, p.darkMode)) = [(p.block, p.context, p.darkMode)] := by
      decide +kernel
    obtain ⟨p', hp', heq⟩ := List.map_eq_singleton_iff.mp hblocks
    cases p'
    cases heq
    rw [hp']
    exact List.mem_singleton_self _
  have hrecordings : (p.recordings c.standard).map
      (fun r => (r.scope, r.subtype, r.name, r.value.size?)) =
        [(.root, "dark", "--x", some (.int 1))] := by
    decide +kernel
  obtain ⟨r, hr, heq⟩ := List.map_eq_singleton_iff.mp hrecordings
  obtain ⟨scope, subtype, name, value⟩ := r
  simp only [Prod.mk.injEq] at heq
  obtain ⟨rfl, rfl, rfl, hvalue⟩ := heq
  have hdark := ((extractAll_dark c {} rules).2 p hblock rfl .root "--x" value).1
  exact ⟨⟨hblock, rfl⟩, by decide +kernel, by decide +kernel, by decide +kernel, by decide +kernel,
    value, (hdark.mp (hr ▸ List.mem_singleton_self _)).1, hvalue⟩

/-- Blocks under queries that are all negated are recorded for the dark theme. -/
theorem negated_query_counts_as_dark :
    (∀ q ∈ MediaQuery.listOfTokens (Token.ofText
        "not all and (prefers-color-scheme: dark), not (prefers-color-scheme: dark)"),
      q.MentionsDark ∧ q.IsNegated) ∧
    (Bundle.ofSource {}
        ("@media not all and (prefers-color-scheme: dark) \x7b :root \x7b --x: 1 \x7d \x7d" ++
        "@media not (prefers-color-scheme: dark) \x7b * \x7b --y: 2 \x7d \x7d")).result.toOption.map
      (fun b => ((b.rootVariables.value? "dark" "--x").bind Value.size?,
        (b.universalVariables.value? "dark" "--y").bind Value.size?)) =
      some (some (.int 1), some (.int 2)) := by
  decide +kernel

end StyleBundle
