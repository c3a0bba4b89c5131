import StyleBundle.Proofs.Extraction

/-!
# StyleBundle.Proofs.Flags

The options of a state: how the dark theme is told, and the flags. Only directives change them, and
the flag `darkMode` always says how the dark theme is told, unless no directive has said so.

* `DarkMode.Told`: what the words of a directive say, as a grammar; `ofWords` reads exactly it.
* `Leaf.Tells`: a leaf that has the dark theme told in some way (`Leaf.darkMode?_eq_some_iff`).
* `perform_dark`, `performAll_dark`: what one leaf and a run of leaves do to the dark theme and to
  its flag.
* `extractAll_dark_flag`: the two in step after an extraction.
-/

namespace StyleBundle

/-! ## The words of a directive -/

namespace DarkMode

/-- How a word tells the dark theme: by the class after a dot, by an attribute in brackets, or by
the class that it is, if classes are the strategy or it is `dark`. -/
inductive Names (strategy : Option DarkStrategy) : String → DarkMode → Prop
  | dotted (cs : List Char) :
    Names strategy (String.ofList ('.' :: cs))
      { strategy := .className, value := some (String.ofList cs) }
  | bracketed (cs : List Char) :
    Names strategy (String.ofList ('[' :: cs))
      { strategy := .attribute, value := some (String.ofList ('[' :: cs)) }
  | word {w : String} (hdot : w.toList.head? ≠ some '.') (hbracket : w.toList.head? ≠ some '[')
      (h : strategy = some .className ∨ w = "dark") :
    Names strategy w { strategy := .className, value := some w }

/-- How words tell the dark theme: by a strategy, which may be left out, and a word. By the medium
if there is no word, or if it is the strategy. Further words do not count. -/
inductive Told : List String → DarkMode → Prop
  | nothing : Told [] {}
  | medium (rest : List String) : Told ("media" :: rest) {}
  | alone {s : DarkStrategy} (hs : s = .className ∨ s = .attribute) : Told [s.name] {}
  | named {s : DarkStrategy} (hs : s = .className ∨ s = .attribute) {w : String}
      (rest : List String) {d : DarkMode} (hw : Names (some s) w d) : Told (s.name :: w :: rest) d
  | plain {w : String} (hs : w ∉ ["media", "class", "attribute"]) (rest : List String)
      {d : DarkMode} (hw : Names none w d) : Told (w :: rest) d

section Setting

variable {strategy : Option DarkStrategy} (h : strategy ≠ some .media)

include h

theorem ofSetting_dotted (cs : List Char) :
    ofSetting strategy (some (String.ofList ('.' :: cs))) =
      some { strategy := .className, value := some (String.ofList cs) } := by
  simp [ofSetting]

theorem ofSetting_bracketed (cs : List Char) :
    ofSetting strategy (some (String.ofList ('[' :: cs))) =
      some { strategy := .attribute, value := some (String.ofList ('[' :: cs)) } := by
  simp [ofSetting]

theorem ofSetting_plain {w : String} (hdot : w.toList.head? ≠ some '.')
    (hbracket : w.toList.head? ≠ some '[') :
    ofSetting strategy (some w) =
      if strategy = some .className ∨ w = "dark" then
        some { strategy := .className, value := some w }
      else none := by
  unfold ofSetting
  split
  · exact absurd rfl h
  · rename_i heq
    cases heq
  · rename_i heq
    cases heq
    split
    · rename_i hw
      exact absurd (congrArg List.head? hw) hdot
    · rename_i hw
      exact absurd (congrArg List.head? hw) hbracket
    · simp

theorem ofSetting_eq_some_iff {w : String} {d : DarkMode} :
    ofSetting strategy (some w) = some d ↔ Names strategy w d := by
  constructor
  · intro hd
    by_cases hdot : w.toList.head? = some '.'
    · obtain ⟨cs, hcs⟩ := List.head?_eq_some_iff.mp hdot
      obtain rfl : w = String.ofList ('.' :: cs) := by rw [← hcs, String.ofList_toList]
      rw [ofSetting_dotted h] at hd
      cases hd
      exact .dotted cs
    by_cases hbracket : w.toList.head? = some '['
    · obtain ⟨cs, hcs⟩ := List.head?_eq_some_iff.mp hbracket
      obtain rfl : w = String.ofList ('[' :: cs) := by rw [← hcs, String.ofList_toList]
      rw [ofSetting_bracketed h] at hd
      cases hd
      exact .bracketed cs
    rw [ofSetting_plain h hdot hbracket] at hd
    split at hd
    · rename_i hw
      cases hd
      exact .word hdot hbracket hw
    · cases hd
  · intro hd
    cases hd with
    | dotted cs => exact ofSetting_dotted h cs
    | bracketed cs => exact ofSetting_bracketed h cs
    | word hdot hbracket hw => rw [ofSetting_plain h hdot hbracket, if_pos hw]

end Setting

theorem ofWords_named {s : DarkStrategy} (hs : s = .className ∨ s = .attribute) (w : String)
    (rest : List String) {d : DarkMode} :
    (ofWords (s.name :: w :: rest)).1 = some d ↔ Names (some s) w d := by
  have hne : some s ≠ some DarkStrategy.media := by rcases hs with rfl | rfl <;> decide
  rcases hs with rfl | rfl <;> exact ofSetting_eq_some_iff hne

theorem ofWords_plain {w : String} (h : w ∉ ["media", "class", "attribute"]) (rest : List String)
    {d : DarkMode} : (ofWords (w :: rest)).1 = some d ↔ Names none w d := by
  have hnone : strategy? w = none := by
    simp only [List.mem_cons, List.not_mem_nil, or_false, not_or] at h
    obtain ⟨hmedia, hclass, hattribute⟩ := h
    simp only [strategy?, DarkStrategy.ofName]
  rw [ofWords, hnone]
  exact ofSetting_eq_some_iff (Option.some_ne_none _).symm

theorem ofWords_strategy {s : DarkStrategy} (hs : s = .className ∨ s = .attribute)
    {rest : List String} {d : DarkMode} (h : (ofWords (s.name :: rest)).1 = some d) :
    Told (s.name :: rest) d := by
  cases rest with
  | nil =>
    have halone : (ofWords [s.name]).1 = some {} := by rcases hs with rfl | rfl <;> rfl
    cases h.symm.trans halone
    exact .alone hs
  | cons w rest => exact .named hs rest ((ofWords_named hs w rest).mp h)

theorem ofWords_eq_some_iff {words : List String} {d : DarkMode} :
    (ofWords words).1 = some d ↔ Told words d := by
  constructor
  · intro h
    cases words with
    | nil =>
      cases h
      exact .nothing
    | cons w rest =>
      by_cases hw : w ∈ ["media", "class", "attribute"]
      · simp only [List.mem_cons, List.not_mem_nil, or_false] at hw
        rcases hw with rfl | rfl | rfl
        · cases h
          exact .medium rest
        · exact ofWords_strategy (s := .className) (.inl rfl) h
        · exact ofWords_strategy (s := .attribute) (.inr rfl) h
      · exact .plain hw rest ((ofWords_plain hw rest).mp h)
  · intro h
    cases h with
    | nothing => rfl
    | medium rest => rfl
    | alone hs => rcases hs with rfl | rfl <;> rfl
    | named hs rest hw => exact (ofWords_named hs _ rest).mpr hw
    | plain hs rest hw => exact (ofWords_plain hs rest).mpr hw

end DarkMode

/-- A directive that has the dark theme told in some way. -/
structure Directive.Tells (d : Directive) (dark : DarkMode) : Prop where
  name : d.name = Sheet.optionName
  words : ∃ rest, d.words = "set" :: State.darkModeName :: rest ∧ DarkMode.Told rest dark

/-- A directive on options that is malformed, or that does not say how the dark theme is told. -/
def Directive.IsIdle (d : Directive) : Prop :=
  (∀ name rest, d.words ≠ "set" :: name :: rest) ∨
    ∃ rest, d.words = "set" :: State.darkModeName :: rest ∧ ∀ dark, ¬ DarkMode.Told rest dark

theorem Directive.darkMode?_eq_some_iff {d : Directive} {dark : DarkMode} :
    d.darkMode? = some dark ↔ d.Tells dark := by
  constructor
  · intro h
    unfold darkMode? at h
    split at h
    · rename_i hname
      split at h
      · rename_i name rest hwords
        split at h
        · rename_i heq
          subst heq
          exact ⟨hname, rest, hwords, DarkMode.ofWords_eq_some_iff.mp h⟩
        · cases h
      · cases h
    · cases h
  · rintro ⟨hname, rest, hwords, htold⟩
    rw [darkMode?, if_pos hname, hwords]
    exact DarkMode.ofWords_eq_some_iff.mpr htold

/-! ## One leaf -/

/-- The options of a state: how the dark theme is told, and the flags. -/
def State.options (s : State) : DarkMode × Table Flag := (s.darkMode, s.flags)

namespace Leaf

/-- A leaf that has the dark theme told in some way. -/
def Tells (l : Leaf) (dark : DarkMode) : Prop := ∃ d, l.rule = .directive d ∧ d.Tells dark

def darkMode? (l : Leaf) : Option DarkMode :=
  match l.rule with
  | .directive d => d.darkMode?
  | _ => none

theorem darkMode?_eq_some_iff {l : Leaf} {dark : DarkMode} :
    l.darkMode? = some dark ↔ l.Tells dark := by
  constructor
  · intro h
    unfold darkMode? at h
    split at h
    · rename_i d hd
      exact ⟨d, hd, Directive.darkMode?_eq_some_iff.mp h⟩
    · cases h
  · rintro ⟨d, hd, htells⟩
    rw [darkMode?, hd]
    exact Directive.darkMode?_eq_some_iff.mpr htells

end Leaf

theorem addBlock_options (c : Settings) (ctx : Context) (s : State) (b : StyleBlock) :
    (s.addBlock c ctx b).state.options = s.options :=
  addBlock_keeps State.options (fun _ _ => rfl) (fun _ _ _ _ => rfl) (fun _ _ => rfl) c ctx s b

theorem addKeyframes_options (c : Settings) (s : State) (k : Keyframes) :
    (s.addKeyframes c k).state.options = s.options := by
  rw [addKeyframes_state]
  rfl

/-- Only a directive on options changes the options. -/
theorem perform_options (c : Settings) (s : State) {l : Leaf}
    (h : ∀ d, l.rule = .directive d → d.name ≠ Sheet.optionName) :
    (l.perform c s).state.options = s.options := by
  obtain ⟨wrappers, rule⟩ := l
  cases rule with
  | style b => exact addBlock_options c _ s b
  | keyframes k => exact addKeyframes_options c s k
  | directive d =>
    have hkept : (s.addDirective d).state = s := by rw [State.addDirective, if_neg (h d rfl)]
    exact congrArg State.options hkept
  | unknown kind => rfl

/-- A directive says how the dark theme is told, sets another flag, or does nothing. -/
theorem addDirective_cases (s : State) (d : Directive) :
    (d.darkMode? = none ∧ (s.addDirective d).state = s) ∨
    (∃ dark, d.darkMode? = some dark ∧ (s.addDirective d).state =
      { s with darkMode := dark, flags := s.flags.put State.darkModeName (.text dark.text) }) ∨
    ∃ name rest, d.words = "set" :: name :: rest ∧ name ≠ State.darkModeName ∧
      d.darkMode? = none ∧
      (s.addDirective d).state = { s with flags := s.flags.put name (State.flagOf rest) } := by
  by_cases hname : d.name = Sheet.optionName
  · rw [State.addDirective, if_pos hname, Directive.darkMode?, if_pos hname]
    by_cases hset : ∃ name rest, d.words = "set" :: name :: rest
    · obtain ⟨name, rest, hwords⟩ := hset
      rw [hwords]
      by_cases hdark : name = State.darkModeName
      · simp only [State.setOption, if_pos hdark]
        unfold State.setDarkMode
        split
        · rename_i dark _ htold
          exact .inr (.inl ⟨dark, congrArg Prod.fst htold, rfl⟩)
        · rename_i htold
          exact .inl ⟨congrArg Prod.fst htold, rfl⟩
      · simp only [State.setOption, if_neg hdark]
        exact .inr (.inr ⟨name, rest, rfl, hdark, trivial, rfl⟩)
    · have hmalformed (name : String) (rest : List String) (h : d.words = "set" :: name :: rest) :
          False := hset ⟨name, rest, h⟩
      left
      simp [State.setOption]
  · rw [State.addDirective, if_neg hname, Directive.darkMode?, if_neg hname]
    exact .inl ⟨rfl, rfl⟩

theorem addDirective_idle (s : State) {d : Directive} (h : d.IsIdle) :
    (s.addDirective d).state = s := by
  rcases addDirective_cases s d with ⟨-, hs⟩ | ⟨dark, hdark, -⟩ | ⟨name, rest, hwords, hname, -⟩
  · exact hs
  · obtain ⟨-, rest, hwords, htold⟩ := Directive.darkMode?_eq_some_iff.mp hdark
    rcases h with hmalformed | ⟨rest', hwords', hnone⟩
    · exact absurd hwords (hmalformed _ rest)
    · cases hwords.symm.trans hwords'
      exact absurd htold (hnone dark)
  · rcases h with hmalformed | ⟨rest', hwords', -⟩
    · exact absurd hwords (hmalformed name rest)
    · cases hwords.symm.trans hwords'
      exact absurd rfl hname

/-- The flag says how the directive has the dark theme told. -/
theorem addDirective_flag (s : State) (d : Directive) :
    (s.addDirective d).state.flags.get? State.darkModeName =
      (d.darkMode?.map fun dark => .text dark.text).or (s.flags.get? State.darkModeName) := by
  rcases addDirective_cases s d with
    ⟨hnone, hs⟩ | ⟨dark, hdark, hs⟩ | ⟨name, rest, -, hname, hnone, hs⟩
  · rw [hs, hnone]
    rfl
  · rw [hs, hdark, Table.get?_put, if_pos rfl]
    rfl
  · rw [hs, hnone, Table.get?_put, if_neg hname]
    rfl

/-- What one leaf does to the dark theme and to its flag. -/
theorem perform_dark (c : Settings) (s : State) (l : Leaf) :
    (l.perform c s).state.darkMode = l.darkMode?.getD s.darkMode ∧
    (l.perform c s).state.flags.get? State.darkModeName =
      (l.darkMode?.map fun dark => .text dark.text).or (s.flags.get? State.darkModeName) := by
  obtain ⟨wrappers, rule⟩ := l
  cases rule with
  | style b =>
    obtain ⟨hdark, hflags⟩ := Prod.mk.inj (addBlock_options c (.ofWrappers wrappers) s b)
    exact ⟨hdark, congrArg (Table.get? State.darkModeName) hflags⟩
  | keyframes k =>
    obtain ⟨hdark, hflags⟩ := Prod.mk.inj (addKeyframes_options c s k)
    exact ⟨hdark, congrArg (Table.get? State.darkModeName) hflags⟩
  | directive d =>
    refine ⟨?_, addDirective_flag s d⟩
    rw [Leaf.perform, addDirective_state]
    rfl
  | unknown kind => exact ⟨rfl, rfl⟩

/-! ## A run of leaves -/

theorem performAll_dark (c : Settings) (ls : List Leaf) (s : State) :
    (ls.foldl (fun s l => (l.perform c s).state) s).darkMode =
      (ls.filterMap Leaf.darkMode?).getLast?.getD s.darkMode ∧
    (ls.foldl (fun s l => (l.perform c s).state) s).flags.get? State.darkModeName =
      ((ls.filterMap Leaf.darkMode?).getLast?.map fun dark => .text dark.text).or
        (s.flags.get? State.darkModeName) := by
  constructor
  · have hstep (s : State) (l : Leaf) :
        some (l.perform c s).state.darkMode = l.darkMode?.or (some s.darkMode) := by
      rw [(perform_dark c s l).1, Option.or_some]
    have hrun := foldl_last_write (fun s : State => some s.darkMode) Leaf.darkMode? hstep s ls
    rw [Option.or_some] at hrun
    exact Option.some.inj hrun
  · rw [← List.getLast?_map, List.map_filterMap]
    exact foldl_last_write (fun s : State => s.flags.get? State.darkModeName) _
      (fun s l => (perform_dark c s l).2) s ls

theorem extractAll_dark_told (c : Settings) (s : State) (rules : List Rule) :
    (s.extractAll c {} rules).state.darkMode =
      ((Sheet.carried c s rules).filterMap Leaf.darkMode?).getLast?.getD s.darkMode ∧
    (s.extractAll c {} rules).state.flags.get? State.darkModeName =
      (((Sheet.carried c s rules).filterMap Leaf.darkMode?).getLast?.map
        fun dark => .text dark.text).or (s.flags.get? State.darkModeName) := by
  rw [(Outcome.silent_eq_iff.mp (extractAll_leaves c s rules)).1,
    Outcome.each_state (perform_stopped c)]
  exact performAll_dark c _ s

theorem extractAll_options {c : Settings} {rules : List Rule}
    (h : ∀ l ∈ Sheet.reached rules, ∀ d, l.rule = .directive d → d.name ≠ Sheet.optionName)
    (s : State) : (s.extractAll c {} rules).state.options = s.options := by
  refine extractAll_invariant (P := fun t => t.options = s.options) ?_ rfl
  intro t l hl ht
  rw [perform_options c t (h l hl), ht]

theorem Sheet.getLast?_darkMode?_eq_none_iff {ls : List Leaf} :
    (ls.filterMap Leaf.darkMode?).getLast? = none ↔ ∀ l ∈ ls, ∀ dark, ¬ l.Tells dark := by
  rw [List.getLast?_eq_none_iff, List.filterMap_eq_nil_iff]
  refine forall₂_congr fun l _ => ?_
  rw [Option.eq_none_iff_forall_ne_some]
  exact forall_congr' fun dark => not_congr Leaf.darkMode?_eq_some_iff

/-- The dark theme and its flag stay in step in an extraction from the start. With the flag, it says
how the dark theme is told; without it, that is as it was. It is told as the last leaf that is
carried out and has it told says; these are the directives of `Leaf.Tells`, and all leaves that are
reached are carried out unless one fails. Directives that are malformed or not recognised change
nothing, and leaves that are not directives on options leave the options alone. -/
theorem extractAll_dark_flag (c : Settings) (dark : DarkMode) (rules : List Rule) :
    let o := State.extractAll c {} { darkMode := dark } rules
    let ls := Sheet.carried c { darkMode := dark } rules
    (∀ flag, o.state.flags.get? "darkMode" = some flag →
      flag = .text (Text.trim
        (o.state.darkMode.strategy.name ++ " " ++ o.state.darkMode.value.getD ""))) ∧
    (o.state.flags.get? "darkMode" = none → o.state.darkMode = dark) ∧
    (o.state.flags.get? "darkMode" = none ↔ ∀ l ∈ ls, ∀ m, ¬ l.Tells m) ∧
    (∀ before l after m, ls = before ++ l :: after → l.Tells m →
      (∀ l' ∈ after, ∀ m', ¬ l'.Tells m') → o.state.darkMode = m) ∧
    ls <+: Sheet.reached rules ∧ (o.failure = none → ls = Sheet.reached rules) ∧
    (∀ ctx s d, d.IsIdle → (State.extract c ctx s (.directive d)).state = s) ∧
    ((∀ l ∈ Sheet.reached rules, ∀ d, l.rule = .directive d → d.name ≠ Sheet.optionName) →
      ∀ s : State, (s.extractAll c {} rules).state.options = s.options) := by
  intro o ls
  obtain ⟨hdark, hflag⟩ := extractAll_dark_told c { darkMode := dark } rules
  replace hflag := hflag.trans Option.or_none
  refine ⟨?_, ?_, ?_, ?_, ?_, carried_of_ok, ?_, extractAll_options⟩
  · intro flag hsome
    obtain ⟨m, hm, rfl⟩ := Option.map_eq_some_iff.mp (hflag.symm.trans hsome)
    rw [hdark, hm]
    rfl
  · intro hnone
    rw [hdark, Option.map_eq_none_iff.mp (hflag.symm.trans hnone)]
    rfl
  · rw [← Sheet.getLast?_darkMode?_eq_none_iff]
    exact (iff_of_eq (congrArg (· = none) hflag)).trans Option.map_eq_none_iff
  · intro before l after m hls htells hlast
    simp only [ls] at hls
    rw [← Sheet.getLast?_darkMode?_eq_none_iff] at hlast
    rw [hdark, hls, List.filterMap_append, List.filterMap_cons_some
      (Leaf.darkMode?_eq_some_iff.mpr htells), List.getLast?_append, List.getLast?_cons, hlast]
    rfl
  · exact Outcome.carried_prefix _ _ _
  · intro ctx s d hidle
    rw [State.extract]
    exact addDirective_idle s hidle

/-- A directive in a container counts, one in a medium that cannot apply does not, nor do two that
make no sense, and one that sets another flag leaves the dark theme alone. -/
theorem extractAll_dark_flag_nested :
    let c : Settings := ⟨fun _ => false, fun _ => false, .standard, Declaration.read⟩
    let set (words : List String) : Directive := { name := "cssInterop", words := "set" :: words }
    let idle := set ["darkMode", "attribute", "night"]
    let others : List Rule := [.directive { name := "layer" }, .unknown "font-face"]
    let rules : List Rule :=
      [.directive (set ["darkMode", "class", "night"]),
        .container none "(width > 1px)" [.directive (set ["darkMode", ".dim", "ignored"])],
        .media [{ mediaType := some "print" }] [.directive (set ["darkMode"])],
        .directive idle, .directive (set []), .directive (set ["inlineRem", "number", "16"])] ++
      others
    let s := (State.extractAll c {} { darkMode := { strategy := .attribute } } rules).state
    s.darkMode = { strategy := .className, value := some "dim" } ∧
      s.flags.get? "darkMode" = some (.text "class dim") ∧
      (State.extract c {} s (.directive idle)).state = s ∧
      (s.extractAll c {} others).state.options = s.options := by
  intro c set idle others rules s
  obtain ⟨hflag, -, hunset, hlast, -, hreached, hidle, -⟩ :=
    extractAll_dark_flag c { strategy := .attribute } rules
  have hothers := (extractAll_dark_flag c {} others).2.2.2.2.2.2.2
  -- The leaves that are reached: one before the directive that counts, and five behind it.
  let dim : Leaf :=
    { wrappers := [.container none "(width > 1px)"],
      rule := .directive (set ["darkMode", ".dim", "ignored"]) }
  have hdim : dim.Tells { strategy := .className, value := some "dim" } :=
    Leaf.darkMode?_eq_some_iff.mp rfl
  let before : List Leaf := Rule.leavesAll [] (rules.take 1)
  let after : List Leaf := Rule.leavesAll [] (rules.drop 3)
  have hls : _ = before ++ dim :: after := hreached rfl
  have hafter : (after.filterMap Leaf.darkMode?).getLast? = none := rfl
  have hdark := hlast before dim after _ hls hdim (Sheet.getLast?_darkMode?_eq_none_iff.mp hafter)
  refine ⟨hdark, ?_, hidle {} s idle (.inr ⟨_, rfl, ?_⟩), hothers ?_ s⟩
  · have hset : s.flags.get? "darkMode" ≠ none := by
      intro hnone
      exact hunset.mp hnone dim (by rw [hls]; simp) _ hdim
    obtain ⟨flag, hsome⟩ := Option.ne_none_iff_exists'.mp hset
    have htext : Text.trim ("class" ++ " " ++ "dim") = "class dim" := by decide +kernel
    have hspelled := hflag flag hsome
    rw [hdark] at hspelled
    exact hsome.trans (congrArg some (hspelled.trans (congrArg Flag.text htext)))
  · intro dark htold
    cases DarkMode.ofWords_eq_some_iff.mpr htold
  · intro l hl d hd
    have hl : l ∈ [({ wrappers := [], rule := .directive { name := "layer" } } : Leaf),
        { wrappers := [], rule := .unknown "font-face" }] := hl
    simp only [List.mem_cons, List.not_mem_nil, or_false] at hl
    rcases hl with rfl | rfl
    · cases hd
      decide
    · cases hd

end StyleBundle
