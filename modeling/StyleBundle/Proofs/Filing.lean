import StyleBundle.Proofs.Build
import StyleBundle.Proofs.Leaves
import StyleBundle.Proofs.Table

/-!
# StyleBundle.Proofs.Filing

What a style block files under which keys. A block is compiled into at most two rules, one for its
normal and one for its important declarations; each is filed for every selector of the block, under
the class that the selector selects and, as a mark, under the group that it asks for.

* `SheetBlock.filings`: everything that a block files, with where it comes from (`mem_filings`).
* `addBlock_files`: extracting a block adds exactly its filings to the table, in their order.
* `Sheet.blocks`: the blocks of a style sheet that are extracted, numbered by `Sheet.filed`.
* `extractAll_files`: the table after an extraction holds exactly the filings of these blocks;
  `extractAll_under` says it of one key, from the start.
-/

namespace StyleBundle

/-- The important declarations of a block, or the others. -/
def StyleBlock.declarationsOf (b : StyleBlock) (important : Bool) : List Declaration :=
  if important then b.important else b.declarations

/-- A style block where it is extracted: in its context, with the dark theme told as it is there. -/
structure SheetBlock where
  block : StyleBlock
  context : Context
  darkMode : DarkMode
  deriving Inhabited

/-- A rule that is filed, and where it comes from. -/
structure Filed where
  key : String
  rule : StyleRule
  /-- The number of the block. -/
  order : Nat
  important : Bool
  selector : String
  /-- What the selector selects. -/
  target : ClassSelector
  /-- Whether the rule only marks a group. -/
  isMark : Bool
  deriving Inhabited

def Filed.entry (f : Filed) : String × StyleRule := (f.key, f.rule)

/-- What is filed for a variant of a selector. -/
def Variant.filings (order : Nat) (important : Bool) (selector : String) (r : StyleRule) :
    Variant → List Filed
  | .className target =>
    (target.group?.map fun group =>
      { key := group, rule := target.mark r group, order, important, selector, target,
        isMark := true }).toList ++
      [{ key := target.className, rule := target.qualify r, order, important, selector, target,
         isMark := false }]
  | .customProperties _ _ => []

namespace SheetBlock

/-- The specificity that the rules of a block start from. -/
def specificity (order : Nat) (important : Bool) : Specificity where
  important := if important then 1 else 0
  order := order

/-- The rule that is built from the important declarations of a block, or from the others, in its
context. -/
def built (c : Settings) (order : Nat) (p : SheetBlock) (important : Bool) : StyleRule :=
  p.context.apply (buildRule (c.buildContext (.ofDirectives p.block.directives)) c.read
    (specificity order important) (p.block.declarationsOf important)).rule

/-- The rule of a block for an importance, if there are declarations of it. -/
def rule? (c : Settings) (order : Nat) (p : SheetBlock) (important : Bool) : Option StyleRule :=
  if p.block.declarationsOf important = [] then none else some (p.built c order important)

/-- The rules of a block, the normal one first. -/
def rules (c : Settings) (order : Nat) (p : SheetBlock) : List StyleRule :=
  (p.rule? c order false).toList ++ (p.rule? c order true).toList

/-- What a block files for its important declarations, or for the others. -/
def filingsOf (c : Settings) (order : Nat) (p : SheetBlock) (important : Bool) : List Filed :=
  (p.rule? c order important).toList.flatMap fun r =>
    p.block.selectors.flatMap fun selector =>
      (c.classify p.darkMode (r.media.getD []) selector).flatMap
        (Variant.filings order important selector r)

/-- Everything that a block files, the normal declarations first. -/
def filings (c : Settings) (order : Nat) (p : SheetBlock) : List Filed :=
  p.filingsOf c order false ++ p.filingsOf c order true

end SheetBlock

/-! ## Where filings come from -/

/-- A filing comes from the rule `r` of a block: as the mark of a group that a selector of the block
asks for, or as `r` itself under the conditions of that selector. -/
structure Filed.From (c : Settings) (p : SheetBlock) (r : StyleRule) (f : Filed) : Prop where
  selector : f.selector ∈ p.block.selectors
  target : .className f.target ∈ c.classify p.darkMode (r.media.getD []) f.selector
  mark : f.isMark = true → f.target.group? = some f.key ∧ f.rule = f.target.mark r f.key
  plain : f.isMark = false → f.key = f.target.className ∧ f.rule = f.target.qualify r

theorem Variant.mem_filings {order : Nat} {important : Bool} {selector : String} {r : StyleRule}
    {v : Variant} {f : Filed} (h : f ∈ v.filings order important selector r) :
    v = .className f.target ∧ f.order = order ∧ f.important = important ∧ f.selector = selector ∧
    (f.isMark = true → f.target.group? = some f.key ∧ f.rule = f.target.mark r f.key) ∧
    (f.isMark = false → f.key = f.target.className ∧ f.rule = f.target.qualify r) := by
  cases v with
  | className target =>
    simp only [filings, List.mem_append, Option.mem_toList, Option.map_eq_some_iff,
      List.mem_singleton] at h
    rcases h with ⟨group, hgroup, rfl⟩ | rfl
    · exact ⟨rfl, rfl, rfl, rfl, fun _ => ⟨hgroup, rfl⟩, nofun⟩
    · exact ⟨rfl, rfl, rfl, rfl, nofun, fun _ => ⟨rfl, rfl⟩⟩
  | customProperties scope subtype => cases h

theorem SheetBlock.mem_filingsOf {c : Settings} {order : Nat} {p : SheetBlock} {important : Bool}
    {f : Filed} (h : f ∈ p.filingsOf c order important) :
    f.order = order ∧ f.important = important ∧
    ∃ r, p.rule? c order important = some r ∧ f.From c p r := by
  simp only [filingsOf, List.mem_flatMap, Option.mem_toList] at h
  obtain ⟨r, hr, selector, hselector, v, hv, hf⟩ := h
  obtain ⟨rfl, horder, himportant, rfl, hmark, hplain⟩ := Variant.mem_filings hf
  exact ⟨horder, himportant, r, hr, hselector, hv, hmark, hplain⟩

theorem SheetBlock.mem_filings_iff {c : Settings} {order : Nat} {p : SheetBlock} {f : Filed} :
    f ∈ p.filings c order ↔ ∃ important, f ∈ p.filingsOf c order important := by
  simp [filings]

theorem SheetBlock.mem_filings {c : Settings} {order : Nat} {p : SheetBlock} {f : Filed}
    (h : f ∈ p.filings c order) :
    f.order = order ∧ ∃ r, p.rule? c order f.important = some r ∧ f.From c p r := by
  obtain ⟨important, h⟩ := mem_filings_iff.mp h
  obtain ⟨horder, rfl, hr⟩ := mem_filingsOf h
  exact ⟨horder, hr⟩

section Rule

variable {c : Settings} {order : Nat} {p : SheetBlock} {important : Bool} {r : StyleRule}

theorem SheetBlock.rule?_of_nil (h : p.block.declarationsOf important = []) :
    p.rule? c order important = none := if_pos h

theorem SheetBlock.rule?_of_ne_nil (h : p.block.declarationsOf important ≠ []) :
    p.rule? c order important = some (p.built c order important) := if_neg h

theorem SheetBlock.rule?_eq_none_iff :
    p.rule? c order important = none ↔ p.block.declarationsOf important = [] := by
  simp [rule?]

theorem SheetBlock.rule?_eq_some_iff :
    p.rule? c order important = some r ↔
      p.block.declarationsOf important ≠ [] ∧ p.built c order important = r := by
  simp [rule?]

/-- The rule of a block has the order number of the block and the conditions of its context; what it
says depends on neither. -/
theorem SheetBlock.rule?_eq (h : p.rule? c order important = some r) :
    r.specificity = specificity order important ∧
    r.media = nonempty p.context.media ∧
    r.containerQuery = nonempty p.context.containers ∧
    r.body = (buildRule (c.buildContext (.ofDirectives p.block.directives)) c.read {}
      (p.block.declarationsOf important)).rule.body := by
  obtain ⟨-, rfl⟩ := rule?_eq_some_iff.mp h
  rw [built, buildRule_eq]
  refine ⟨rfl, ?_, ?_, rfl⟩
  · exact congrArg nonempty (List.append_nil _)
  · exact congrArg nonempty (List.append_nil _)

/-- What a block is compiled into for an importance, in its context. -/
theorem SheetBlock.map_apply_rule? :
    (StyleBlock.rule? (c.buildContext (.ofDirectives p.block.directives)) c.read
      (specificity order important) (p.block.declarationsOf important)).map
        (fun d => p.context.apply d.rule) = p.rule? c order important := by
  unfold StyleBlock.rule? rule?
  simp only [List.isEmpty_iff]
  split <;> rfl

end Rule

/-! ## One block -/

/-- A state differs from another only in rules that are filed besides, and in what is kept of
custom properties. -/
structure Files (s s' : State) (fs : List Filed) : Prop where
  rules : s'.rules = s.rules.pushAll (fs.map Filed.entry)
  order : s'.order = s.order
  darkMode : s'.darkMode = s.darkMode

theorem Files.refl (s : State) : Files s s [] := ⟨rfl, rfl, rfl⟩

theorem Files.trans {s s' s'' : State} {fs fs' : List Filed} (h : Files s s' fs)
    (h' : Files s' s'' fs') : Files s s'' (fs ++ fs') where
  rules := by rw [h'.rules, h.rules, List.map_append, Table.pushAll_append]
  order := h'.order.trans h.order
  darkMode := h'.darkMode.trans h.darkMode

theorem fileVariant_files (order : Nat) (important : Bool) (selector : String) (r : StyleRule)
    (s : State) (v : Variant) :
    Files s (State.fileVariant r s v) (v.filings order important selector r) := by
  cases v with
  | className target =>
    cases hg : target.group? with
    | none =>
      simp only [State.fileVariant, ClassSelector.entries, Variant.filings, hg]
      exact ⟨rfl, rfl, rfl⟩
    | some group =>
      simp only [State.fileVariant, ClassSelector.entries, Variant.filings, hg]
      exact ⟨rfl, rfl, rfl⟩
  | customProperties scope subtype =>
    cases scope with
    | root => exact ⟨rfl, rfl, rfl⟩
    | universal => exact ⟨rfl, rfl, rfl⟩

theorem fileVariants_files (order : Nat) (important : Bool) (selector : String) (r : StyleRule)
    (s : State) (vs : List Variant) :
    Files s (vs.foldl (State.fileVariant r) s)
      (vs.flatMap (Variant.filings order important selector r)) := by
  induction vs generalizing s with
  | nil => exact .refl s
  | cons v rest ih => exact (fileVariant_files order important selector r s v).trans (ih _)

theorem fileSelector_failure (c : Settings) (r : StyleRule) (s : State) (selector : String) :
    (State.fileSelector c r s selector).failure = none := by
  unfold State.fileSelector
  split <;> rfl

theorem fileSelector_state (c : Settings) (r : StyleRule) (s : State) (selector : String) :
    (State.fileSelector c r s selector).state =
      (c.classify s.darkMode (r.media.getD []) selector).foldl (State.fileVariant r) s := by
  unfold State.fileSelector
  split
  · rename_i h
    rw [h]
    rfl
  · rfl

theorem file_failure (c : Settings) (selectors : List String) (s : State) (r : StyleRule) :
    (State.file c selectors s r).failure = none :=
  (Outcome.each_total (fileSelector_failure c r) s selectors).1

theorem file_state (c : Settings) (selectors : List String) (s : State) (r : StyleRule) :
    (State.file c selectors s r).state =
      selectors.foldl (fun s selector => (State.fileSelector c r s selector).state) s :=
  (Outcome.each_total (fileSelector_failure c r) s selectors).2

/-- Filing a rule keeps the dark theme as it is, so that all selectors are classified alike. -/
theorem file_files (c : Settings) (order : Nat) (important : Bool) (selectors : List String)
    (s : State) (r : StyleRule) :
    Files s (State.file c selectors s r).state
      (selectors.flatMap fun selector =>
        (c.classify s.darkMode (r.media.getD []) selector).flatMap
          (Variant.filings order important selector r)) := by
  rw [file_state]
  induction selectors generalizing s with
  | nil => exact .refl s
  | cons selector rest ih =>
    have hone := fileVariants_files order important selector r s
      (c.classify s.darkMode (r.media.getD []) selector)
    rw [← fileSelector_state] at hone
    have hrest := ih (State.fileSelector c r s selector).state
    rw [hone.darkMode] at hrest
    exact hone.trans hrest

theorem StyleBlock.rules_result (ctx : BuildContext) (read : Declaration → List Instruction)
    {order : Int} (h : 0 ≤ order) (b : StyleBlock) :
    (StyleBlock.rules ctx read order b).result = .ok
      (((rule? ctx read (SheetBlock.specificity order.toNat false)
          (b.declarationsOf false)).toList ++
        (rule? ctx read (SheetBlock.specificity order.toNat true)
          (b.declarationsOf true)).toList).map (·.rule)) := by
  have hbase : Specificity.ofTiers 0 0 0 0 order = .ok { order := order.toNat } :=
    Specificity.ofTiers_of_nonneg 0 0 h
  unfold StyleBlock.rules
  rw [hbase]
  rfl

/-- The state after some rules are filed one after the other. -/
def State.fileAll (c : Settings) (selectors : List String) (s : State) (rs : List StyleRule) :
    State :=
  rs.foldl (fun s r => (State.file c selectors s r).state) s

section Block

variable {c : Settings} {order : Nat} {p : SheetBlock}

/-- The rule for one importance is filed, if there is one. -/
theorem fileRule_files (important : Bool) {s : State} (hdark : s.darkMode = p.darkMode) :
    Files s (s.fileAll c p.block.selectors (p.rule? c order important).toList)
      (p.filingsOf c order important) := by
  unfold SheetBlock.filingsOf
  cases p.rule? c order important with
  | none => exact .refl s
  | some r =>
    have h := file_files c order important p.block.selectors s r
    rw [hdark] at h
    simpa [State.fileAll] using h

theorem fileRules_files {s : State} (hdark : s.darkMode = p.darkMode) :
    Files s (s.fileAll c p.block.selectors (p.rules c order)) (p.filings c order) := by
  rw [SheetBlock.rules, State.fileAll, List.foldl_append]
  have hnormal : Files s _ (p.filingsOf c order false) := fileRule_files false hdark
  have himportant : Files _ _ (p.filingsOf c order true) :=
    fileRule_files true (hnormal.darkMode.trans hdark)
  exact hnormal.trans himportant

end Block

/-- A block with declarations never stops the extraction. Its rules are filed one after the other,
and the next block has the next order number. -/
theorem addBlock_eq (c : Settings) (ctx : Context) {s : State} (hs : 0 ≤ s.order)
    {b : StyleBlock} (hb : b.hasDeclarations = true) :
    (s.addBlock c ctx b).failure = none ∧
    (s.addBlock c ctx b).state =
      { s.fileAll c b.selectors (SheetBlock.rules c s.order.toNat ⟨b, ctx, s.darkMode⟩) with
        order := s.order + 1 } := by
  let p : SheetBlock := ⟨b, ctx, s.darkMode⟩
  let table := Relocations.ofDirectives b.directives
  let m : Noted Error (List StyleRule) := do
    .take table.notes
    StyleBlock.rules (c.buildContext table) c.read s.order b
  have hm : ∃ rs : List StyleRule, m.result = .ok rs ∧
      rs.map ctx.apply = p.rules c s.order.toNat := by
    refine ⟨_, StyleBlock.rules_result (c.buildContext table) c.read hs b, ?_⟩
    simp only [SheetBlock.rules, ← SheetBlock.map_apply_rule?, Option.toList_map, List.map_append,
      List.map_map]
    rfl
  obtain ⟨rs, hresult, hrs⟩ := hm
  obtain ⟨hok, hstate⟩ :=
    Outcome.each_total (file_failure c b.selectors) s (p.rules c s.order.toNat)
  have hfiles : Files s (s.fileAll c p.block.selectors (p.rules c s.order.toNat))
      (p.filings c s.order.toNat) := fileRules_files rfl
  have horder : ((p.rules c s.order.toNat).foldl
      (fun s r => (State.file c b.selectors s r).state) s).order = s.order := hfiles.order
  have hblock : s.addBlock c ctx b = Outcome.ofNoted s m fun rs =>
      (Outcome.each (State.file c b.selectors) s (rs.map ctx.apply)).andThen fun s =>
        { state := { s with order := s.order + 1 } } := by
    rw [State.addBlock, if_pos hb]
  rw [hblock, Outcome.ofNoted, hresult]
  simp only [hrs, Outcome.andThen_of_ok hok, horder, hstate, true_and]
  rfl

theorem addBlock_failure (c : Settings) (ctx : Context) {s : State} (hs : 0 ≤ s.order)
    (b : StyleBlock) : (s.addBlock c ctx b).failure = none := by
  by_cases hb : b.hasDeclarations = true
  · exact (addBlock_eq c ctx hs hb).1
  · rw [State.addBlock, if_neg hb]

theorem addBlock_files (c : Settings) (ctx : Context) {s : State} (hs : 0 ≤ s.order)
    {b : StyleBlock} (hb : b.hasDeclarations = true) :
    (s.addBlock c ctx b).state.order = s.order + 1 ∧
    (s.addBlock c ctx b).state.darkMode = s.darkMode ∧
    (s.addBlock c ctx b).state.rules = s.rules.pushAll
      ((SheetBlock.filings c s.order.toNat ⟨b, ctx, s.darkMode⟩).map Filed.entry) := by
  let p : SheetBlock := ⟨b, ctx, s.darkMode⟩
  have hfiles : Files s (s.fileAll c p.block.selectors (p.rules c s.order.toNat))
      (p.filings c s.order.toNat) := fileRules_files rfl
  rw [(addBlock_eq c ctx hs hb).2]
  exact ⟨rfl, hfiles.darkMode, hfiles.rules⟩

/-! ## A whole style sheet -/

/-- How a directive has the dark theme told, if it says so. -/
def Directive.darkMode? (d : Directive) : Option DarkMode :=
  if d.name = Sheet.optionName then
    match d.words with
    | "set" :: name :: rest =>
      if name = State.darkModeName then (DarkMode.ofWords rest).1 else none
    | _ => none
  else none

namespace Leaf

/-- The block that a leaf is, where it is extracted; blocks without declarations do not count. -/
def block? (dark : DarkMode) (l : Leaf) : Option SheetBlock :=
  match l.rule with
  | .style b => if b.hasDeclarations then some ⟨b, l.context, dark⟩ else none
  | _ => none

/-- How the dark theme is told after a leaf. -/
def darkAfter (dark : DarkMode) (l : Leaf) : DarkMode :=
  match l.rule with
  | .directive d => d.darkMode?.getD dark
  | _ => dark

end Leaf

namespace Sheet

/-- The blocks with declarations among some leaves, in their order. -/
def blocks (dark : DarkMode) : List Leaf → List SheetBlock
  | [] => []
  | l :: rest => (l.block? dark).toList ++ blocks (l.darkAfter dark) rest

/-- What some blocks file, numbered from an order number on. -/
def filed (c : Settings) (order : Nat) (blocks : List SheetBlock) : List Filed :=
  (blocks.zipIdx order).flatMap fun b => b.1.filings c b.2

/-- The leaves that an extraction carries out: all that are reached, unless one of them stops it. -/
def carried (c : Settings) (s : State) (rules : List Rule) : List Leaf :=
  Outcome.carried (Leaf.perform c) s (reached rules)

end Sheet

theorem under_entries (fs : List Filed) (key : String) :
    Table.under (Table.pushAll [] (fs.map Filed.entry)) key =
      (fs.filter (·.key = key)).map (·.rule) := by
  rw [Table.under_pushAll, Table.under_nil, List.nil_append, List.filter_map, List.map_map]
  rfl

theorem Sheet.filed_append (c : Settings) (order : Nat) (blocks blocks' : List SheetBlock) :
    Sheet.filed c order (blocks ++ blocks') =
      Sheet.filed c order blocks ++ Sheet.filed c (order + blocks.length) blocks' := by
  simp [Sheet.filed, List.zipIdx_append]

theorem Sheet.filed_cons (c : Settings) (order : Nat) (p : SheetBlock)
    (blocks : List SheetBlock) :
    Sheet.filed c order (p :: blocks) =
      p.filings c order ++ Sheet.filed c (order + 1) blocks := by
  simp [Sheet.filed, List.zipIdx_cons]

theorem Sheet.mem_filed_iff {c : Settings} {order : Nat} {blocks : List SheetBlock} {f : Filed} :
    f ∈ Sheet.filed c order blocks ↔
      ∃ (i : Nat) (p : SheetBlock), blocks[i]? = some p ∧ f ∈ p.filings c (order + i) := by
  induction blocks generalizing order with
  | nil => simp [Sheet.filed]
  | cons q rest ih =>
    rw [Sheet.filed_cons, List.mem_append, ih]
    constructor
    · rintro (h | ⟨i, p, hp, h⟩)
      · exact ⟨0, q, rfl, h⟩
      · exact ⟨i + 1, p, hp, by rwa [Nat.add_right_comm, Nat.add_assoc] at h⟩
    · rintro ⟨i, p, hp, h⟩
      cases i with
      | zero =>
        cases hp
        exact .inl h
      | succ i => exact .inr ⟨i, p, hp, by rwa [Nat.add_right_comm, Nat.add_assoc]⟩

theorem addDirective_failure (s : State) (d : Directive) : (s.addDirective d).failure = none := by
  unfold State.addDirective State.setOption State.setDarkMode
  repeat' split
  all_goals rfl

theorem addDirective_state (s : State) (d : Directive) :
    (s.addDirective d).state =
      { s with
        darkMode := d.darkMode?.getD s.darkMode,
        flags := (s.addDirective d).state.flags } := by
  unfold State.addDirective Directive.darkMode? State.setOption State.setDarkMode
  repeat' split
  all_goals simp_all

theorem addKeyframes_state (c : Settings) (s : State) (k : Keyframes) :
    (s.addKeyframes c k).state =
      { s with keyframes := (s.addKeyframes c k).state.keyframes } := by
  unfold State.addKeyframes Outcome.ofNoted
  split <;> rfl

/-- Filing never stops, so a block that stops has not been compiled. -/
theorem addBlock_stopped {c : Settings} {ctx : Context} {s : State} {b : StyleBlock} {e : Error}
    (h : (s.addBlock c ctx b).failure = some e) : (s.addBlock c ctx b).state = s := by
  by_cases hb : b.hasDeclarations = true
  · simp only [State.addBlock, if_pos hb] at h ⊢
    refine Outcome.ofNoted_stopped ?_ h
    intro rs
    rw [Outcome.andThen_of_ok (Outcome.each_total (file_failure c b.selectors) s _).1]
  · rw [State.addBlock, if_neg hb]

/-- Below zero there is no rank for the rules of a block, so that none is compiled. -/
theorem addBlock_of_neg {c : Settings} {ctx : Context} {s : State} (h : s.order < 0)
    (b : StyleBlock) : (s.addBlock c ctx b).state = s := by
  have hbase : Specificity.ofTiers 0 0 0 0 s.order = .error (.negativeTier .order) := by
    simp [Specificity.ofTiers, Specificity.tier, h, bind, Except.bind]
  unfold State.addBlock
  split
  · simp [StyleBlock.rules, hbase, Outcome.ofNoted, Noted.ofExcept, bind, Noted.bind, Noted.take,
      Noted.withNotes]
  · rfl

theorem addKeyframes_stopped {c : Settings} {s : State} {k : Keyframes} {e : Error}
    (h : (s.addKeyframes c k).failure = some e) : (s.addKeyframes c k).state = s :=
  Outcome.ofNoted_stopped (fun _ => rfl) h

theorem perform_stopped (c : Settings) (s : State) (l : Leaf) (e : Error)
    (h : (l.perform c s).failure = some e) : (l.perform c s).state = s := by
  obtain ⟨wrappers, rule⟩ := l
  cases rule with
  | style b => exact addBlock_stopped h
  | keyframes k => exact addKeyframes_stopped h
  | directive d =>
    rw [Leaf.perform, addDirective_failure] at h
    cases h
  | unknown kind => cases h

/-- What one leaf does: it files what its block files, if it is one that counts, and goes on to the
next order number then; only directives change how the dark theme is told. -/
theorem perform_files (c : Settings) {s : State} (hs : 0 ≤ s.order) (l : Leaf) :
    (l.perform c s).state.darkMode = l.darkAfter s.darkMode ∧
    (l.perform c s).state.order = s.order + (l.block? s.darkMode).toList.length ∧
    (l.perform c s).state.rules = s.rules.pushAll
      ((Sheet.filed c s.order.toNat (l.block? s.darkMode).toList).map Filed.entry) := by
  obtain ⟨wrappers, rule⟩ := l
  cases rule with
  | style b =>
    by_cases hb : b.hasDeclarations = true
    · obtain ⟨horder, hdark, hrules⟩ := addBlock_files c (.ofWrappers wrappers) hs hb
      have hblock : Leaf.block? s.darkMode { wrappers, rule := .style b } =
          some ⟨b, .ofWrappers wrappers, s.darkMode⟩ := by
        simp only [Leaf.block?, if_pos hb]
        rfl
      rw [hblock]
      refine ⟨hdark, horder, hrules.trans ?_⟩
      simp [Sheet.filed]
    · simp only [Leaf.perform, Leaf.block?, State.addBlock, if_neg hb]
      exact ⟨rfl, by simp, rfl⟩
  | keyframes k =>
    simp only [Leaf.perform, Leaf.block?]
    rw [addKeyframes_state]
    exact ⟨rfl, by simp, rfl⟩
  | directive d =>
    simp only [Leaf.perform, Leaf.block?, Leaf.darkAfter]
    rw [addDirective_state]
    exact ⟨rfl, by simp, rfl⟩
  | unknown kind => exact ⟨rfl, by simp [Leaf.perform, Leaf.block?], rfl⟩

theorem perform_nonneg (c : Settings) {s : State} (hs : 0 ≤ s.order) (l : Leaf) :
    0 ≤ (l.perform c s).state.order := by
  rw [(perform_files c hs l).2.1]
  exact Int.add_nonneg hs (Int.natCast_nonneg _)

/-- What some leaves do one after the other, by induction on the leaves. -/
theorem performAll_files (c : Settings) (ls : List Leaf) {s : State} (hs : 0 ≤ s.order) :
    (ls.foldl (fun s l => (l.perform c s).state) s).order =
      s.order + (Sheet.blocks s.darkMode ls).length ∧
    (ls.foldl (fun s l => (l.perform c s).state) s).rules = s.rules.pushAll
      ((Sheet.filed c s.order.toNat (Sheet.blocks s.darkMode ls)).map Filed.entry) := by
  induction ls generalizing s with
  | nil => exact ⟨by simp [Sheet.blocks], rfl⟩
  | cons l rest ih =>
    obtain ⟨hdark, horder, hrules⟩ := perform_files c hs l
    have hnat : (l.perform c s).state.order.toNat =
        s.order.toNat + (l.block? s.darkMode).toList.length := by omega
    obtain ⟨ihorder, ihrules⟩ := @ih (l.perform c s).state (by omega)
    rw [List.foldl_cons, ihorder, ihrules, hdark, hrules, hnat, Sheet.blocks]
    constructor
    · rw [horder, List.length_append]
      omega
    · rw [Sheet.filed_append, List.map_append, Table.pushAll_append]

/-- The table after an extraction holds what the blocks that are carried out file, each with
its order number. -/
theorem extractAll_files (c : Settings) {s : State} (hs : 0 ≤ s.order) (rules : List Rule) :
    (s.extractAll c {} rules).state.order =
      s.order + (Sheet.blocks s.darkMode (Sheet.carried c s rules)).length ∧
    (s.extractAll c {} rules).state.rules = s.rules.pushAll
      ((Sheet.filed c s.order.toNat
        (Sheet.blocks s.darkMode (Sheet.carried c s rules))).map Filed.entry) := by
  rw [(Outcome.silent_eq_iff.mp (extractAll_leaves c s rules)).1,
    Outcome.each_state (perform_stopped c)]
  exact performAll_files c _ hs

section FromStart

variable (c : Settings) (dark : DarkMode) (rules : List Rule)

theorem extractAll_distinct :
    (State.extractAll c {} { darkMode := dark } rules).state.rules.Distinct := by
  rw [(extractAll_files c Int.one_nonneg rules).2]
  exact Table.distinct_nil.pushAll _

/-- Under each key stands what the blocks that are carried out file there, in their order. -/
theorem extractAll_under (key : String) :
    (State.extractAll c {} { darkMode := dark } rules).state.rules.under key =
      ((Sheet.filed c 1 (Sheet.blocks dark
        (Sheet.carried c { darkMode := dark } rules))).filter (·.key = key)).map (·.rule) := by
  rw [(extractAll_files c Int.one_nonneg rules).2]
  exact under_entries _ key

end FromStart

theorem carried_of_ok {c : Settings} {s : State} {rules : List Rule}
    (h : (s.extractAll c {} rules).failure = none) :
    Sheet.carried c s rules = Sheet.reached rules := by
  rw [(Outcome.silent_eq_iff.mp (extractAll_leaves c s rules)).2] at h
  exact Outcome.carried_eq_self h

end StyleBundle
