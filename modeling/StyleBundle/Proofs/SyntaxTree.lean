import StyleBundle.Proofs.Sources

/-!
# StyleBundle.Proofs.SyntaxTree

The statements of a sheet as a tree. Media and container rules hold the statements in their blocks;
every other statement is a leaf, whatever its block is made of.

* `Node.preorder`: the statements of a tree in the order of the source.
* `Sheet.Represents`: which rules stand for a tree. It has one rule for each statement that has a
  meaning, in the same order and with the same nesting.
* `parse_follows_tree`: reading stops exactly if there is a malformed statement in the tree, and
  then at the first one; otherwise the rules stand for the tree.
-/

namespace StyleBundle

namespace Statement

/-- The error that a malformed statement stops the reading with. -/
def error? : Statement → Option SourceError
  | .fault p problem =>
    some { problem := problem.text, line := some p.line, column := some p.column }
  | _ => none

/-- The statements in the block of a media or container rule; other statements hold none. -/
def children : Statement → List Statement
  | .atRule keyword _ (some content) =>
    if ["media", "container"].contains (Text.lower keyword) then listOfTokens false content else []
  | _ => []

theorem children_of_mem {keyword : String} (h : Text.lower keyword ∈ ["media", "container"])
    (before : List Token) (content : Option (List Token)) :
    (Statement.atRule keyword before content).children =
      listOfTokens false (content.getD []) := by
  cases content with
  | none => simp [children, listOfTokens]
  | some content => simp only [children, List.contains_iff_mem.mpr h, if_true, Option.getD_some]

theorem children_of_not_mem {keyword : String} (h : Text.lower keyword ∉ ["media", "container"])
    (before : List Token) (content : Option (List Token)) :
    (Statement.atRule keyword before content).children = [] := by
  cases content with
  | none => rfl
  | some content => simp only [children, List.contains_iff_mem, h, if_false]

theorem totalWeight_children_lt (s : Statement) (rest : List Statement) :
    totalWeight s.children < totalWeight (s :: rest) := by
  have hnone : totalWeight [] < totalWeight (s :: rest) :=
    Nat.lt_of_le_of_lt (Nat.zero_le _) (totalWeight_lt_cons s rest)
  cases s with
  | qualified before content => exact hnone
  | fault p problem => exact hnone
  | atRule keyword before content =>
    by_cases h : Text.lower keyword ∈ ["media", "container"]
    · rw [children_of_mem h]
      exact totalWeight_content_lt keyword before content rest
    · rw [children_of_not_mem h]
      exact hnone

end Statement

/-- A statement and the statements that it holds. -/
inductive Node where
  | mk (statement : Statement) (children : List Node)

namespace Node

def ofStatements : List Statement → List Node
  | [] => []
  | s :: rest => .mk s (ofStatements s.children) :: ofStatements rest
termination_by statements => Statement.totalWeight statements
decreasing_by
  · exact Statement.totalWeight_children_lt s rest
  · exact Statement.totalWeight_lt_cons s rest

mutual

/-- A statement and then all that it holds, at any depth. -/
def preorder : Node → List Statement
  | .mk s children => s :: preorderAll children

def preorderAll : List Node → List Statement
  | [] => []
  | n :: rest => n.preorder ++ preorderAll rest

end

end Node

namespace Sheet

/-- The valid declarations of a block in the order of the source, each with its importance. A name
that starts with two hyphens keeps its case and any other is in lower case; the value is the text of
its component values without the blanks at either end. -/
def validDeclarations (content : List Token) : List (Declaration × Bool) :=
  (Item.listOfTokens content).filterMap fun item =>
    match item with
    | .declaration name value important =>
      some ({ property := if ['-', '-'] <+: name.toList then name else Text.lower name,
              value := Text.trim (Token.text value) }, important)
    | _ => none

/-- The at-rules that have a meaning, in lower case. -/
def keywords : List String :=
  ["media", "container", "keyframes", "-webkit-keyframes", "cssinterop"]

/-- Rules that stand for a tree. -/
inductive Represents : List Node → List Rule → Prop
  | nil : Represents [] []
  | style {before content : List Token} {b : StyleBlock} {nodes : List Node} {rules : List Rule}
      (hnormal : b.declarations = ((validDeclarations content).filter (!·.2)).map (·.1))
      (himportant : b.important = ((validDeclarations content).filter (·.2)).map (·.1))
      (hrest : Represents nodes rules) :
      Represents (.mk (.qualified before content) [] :: nodes) (.style b :: rules)
  | media {keyword : String} {before : List Token} {content : Option (List Token)}
      {queries : List MediaQuery} {children nodes : List Node} {inner rules : List Rule}
      (hkeyword : Text.lower keyword = "media") (hchildren : Represents children inner)
      (hrest : Represents nodes rules) :
      Represents (.mk (.atRule keyword before content) children :: nodes)
        (.media queries inner :: rules)
  | container {keyword : String} {before : List Token} {content : Option (List Token)}
      {name : Option String} {condition : String} {children nodes : List Node}
      {inner rules : List Rule}
      (hkeyword : Text.lower keyword = "container") (hchildren : Represents children inner)
      (hrest : Represents nodes rules) :
      Represents (.mk (.atRule keyword before content) children :: nodes)
        (.container name condition inner :: rules)
  | keyframes {keyword : String} {before : List Token} {content : Option (List Token)}
      {k : Keyframes} {nodes : List Node} {rules : List Rule}
      (hkeyword : Text.lower keyword ∈ ["keyframes", "-webkit-keyframes"])
      (hrest : Represents nodes rules) :
      Represents (.mk (.atRule keyword before content) [] :: nodes) (.keyframes k :: rules)
  | directive {keyword : String} {before : List Token} {content : Option (List Token)}
      {words : List String} {nodes : List Node} {rules : List Rule}
      (hkeyword : Text.lower keyword = "cssinterop") (hrest : Represents nodes rules) :
      Represents (.mk (.atRule keyword before content) [] :: nodes)
        (.directive { name := optionName, words } :: rules)
  | skipped {keyword : String} {before : List Token} {content : Option (List Token)}
      {nodes : List Node} {rules : List Rule}
      (hkeyword : Text.lower keyword ∉ keywords) (hrest : Represents nodes rules) :
      Represents (.mk (.atRule keyword before content) [] :: nodes) rules

theorem declaration_eq (name : String) (value : List Token) :
    declaration name value =
      { property := if ['-', '-'] <+: name.toList then name else Text.lower name,
        value := Text.trim (Token.text value) } := by
  simp [declaration, Name.isCustom, Token.trimmed, Text.trim, Token.text]

theorem declarations_eq (important : Bool) (content : List Token) :
    declarations important (Item.listOfTokens content) =
      ((validDeclarations content).filter (·.2 = important)).map (·.1) := by
  unfold declarations validDeclarations
  simp only [declaration_eq]
  induction Item.listOfTokens content with
  | nil => rfl
  | cons item rest ih =>
    cases item with
    | declaration name value i =>
      by_cases h : i = important
      · simp [h, ih]
      · simp [h, ih]
    | _ => simpa using ih

/-! ## Reading a tree -/

/-- Reading stops at the first malformed statement of a tree, if there is one, and otherwise has a
result with some property. -/
def Reads {α : Type} (P : α → Prop) (nodes : List Node) (result : Except SourceError α) : Prop :=
  match (Node.preorderAll nodes).findSome? Statement.error? with
  | some e => result = .error e
  | none => ∃ x, result = .ok x ∧ P x

theorem reads_ok {α : Type} {P : α → Prop} {x : α} (h : P x) : Reads P [] (.ok x) := ⟨x, rfl, h⟩

theorem findSome?_cons {s : Statement} (hs : s.error? = none) (children nodes : List Node) :
    (Node.preorderAll (.mk s children :: nodes)).findSome? Statement.error? =
      ((Node.preorderAll children).findSome? Statement.error?).or
        ((Node.preorderAll nodes).findSome? Statement.error?) := by
  rw [Node.preorderAll, Node.preorder, List.cons_append, List.findSome?_cons, hs,
    List.findSome?_append]

/-- A statement whose rule is made of what it holds, in front of others. -/
theorem reads_cons {α : Type} {P : α → Prop} {s : Statement} (hs : s.error? = none)
    {children nodes : List Node} {first : Noted SourceError α}
    {rest : Noted SourceError (List Rule)} {f : α → Rule} (hfirst : Reads P children first.result)
    (hrest : Reads (Represents nodes) nodes rest.result)
    (hcons : ∀ x rules, P x → Represents nodes rules →
      Represents (.mk s children :: nodes) (f x :: rules)) :
    Reads (Represents (.mk s children :: nodes)) (.mk s children :: nodes)
      (do
        let x ← first
        let rules ← rest
        return f x :: rules : Noted SourceError (List Rule)).result := by
  unfold Reads at hfirst hrest ⊢
  rw [findSome?_cons hs]
  cases hchildren : (Node.preorderAll children).findSome? Statement.error? with
  | some e =>
    rw [hchildren] at hfirst
    simp [bind, Noted.bind, hfirst]
  | none =>
    rw [hchildren] at hfirst
    obtain ⟨x, hx, hP⟩ := hfirst
    cases hnodes : (Node.preorderAll nodes).findSome? Statement.error? with
    | some e =>
      rw [hnodes] at hrest
      simp [bind, Noted.bind, hx, hrest]
    | none =>
      rw [hnodes] at hrest
      obtain ⟨rules, hrules, hrepresents⟩ := hrest
      refine ⟨f x :: rules, ?_, hcons x rules hP hrepresents⟩
      simp [bind, Noted.bind, hx, hrules, pure, Noted.withNotes]

/-- A statement that has no rule, in front of others. -/
theorem reads_skip {s : Statement} (hs : s.error? = none) {nodes : List Node}
    {result : Except SourceError (List Rule)} (hrest : Reads (Represents nodes) nodes result)
    (hskip : ∀ rules, Represents nodes rules → Represents (.mk s [] :: nodes) rules) :
    Reads (Represents (.mk s [] :: nodes)) (.mk s [] :: nodes) result := by
  unfold Reads at hrest ⊢
  rw [findSome?_cons hs, Node.preorderAll, List.findSome?_nil, Option.none_or]
  cases hnodes : (Node.preorderAll nodes).findSome? Statement.error? with
  | some e => rwa [hnodes] at hrest
  | none =>
    rw [hnodes] at hrest
    obtain ⟨rules, hrules, hrepresents⟩ := hrest
    exact ⟨rules, hrules, hskip rules hrepresents⟩

/-- Frames are read from any statements, malformed ones among them. -/
theorem frames_result (statements : List Statement) :
    ∃ ks, (frames statements).result = .ok ks := by
  induction statements with
  | nil => exact ⟨[], rfl⟩
  | cons s rest ih =>
    obtain ⟨ks, hks⟩ := ih
    cases s with
    | atRule keyword before content => exact ⟨ks, hks⟩
    | fault p problem => exact ⟨ks, hks⟩
    | qualified before content =>
      rw [frames]
      simp only [bind, Noted.bind, Noted.withNotes, hks]
      exact ⟨_, rfl⟩

theorem keyframes_reads {keyword : String}
    (hkeyword : Text.lower keyword ∈ ["keyframes", "-webkit-keyframes"]) (before : List Token)
    (content : Option (List Token)) (statements : List Statement) {nodes : List Node}
    {rest : Noted SourceError (List Rule)} (hrest : Reads (Represents nodes) nodes rest.result) :
    Reads (Represents (.mk (.atRule keyword before content) [] :: nodes))
      (.mk (.atRule keyword before content) [] :: nodes)
      (do
        let ks ← frames statements
        let rules ← rest
        return .keyframes { name := animationName before, frames := ks } :: rules :
        Noted SourceError (List Rule)).result := by
  obtain ⟨ks, hks⟩ := frames_result statements
  have hframes : Reads (fun _ => True) [] (frames statements).result := by
    rw [hks]
    exact reads_ok trivial
  exact reads_cons rfl hframes hrest fun _ _ _ => .keyframes hkeyword

/-- One case for each kind of statement. Only the blocks of media and container rules are read as
statements, so only there can a malformed statement inside a block stop the reading. -/
theorem ofStatements_reads (statements : List Statement) :
    Reads (Represents (Node.ofStatements statements)) (Node.ofStatements statements)
      (ofStatements statements).result := by
  fun_induction ofStatements statements with
  | case1 =>
    rw [Node.ofStatements]
    exact reads_ok .nil
  | case2 p problem rest =>
    rw [Node.ofStatements]
    simp only [Reads, Node.preorderAll, Node.preorder, Statement.error?, Noted.stop,
      List.cons_append, List.findSome?_cons]
  | case3 before content rest ih =>
    have hleaf : (Statement.qualified before content).children = [] := rfl
    have hblock : Reads
        (fun b : StyleBlock =>
          b.declarations = ((validDeclarations content).filter (!·.2)).map (·.1) ∧
          b.important = ((validDeclarations content).filter (·.2)).map (·.1))
        [] (styleBlock before content).result := by
      refine reads_ok ⟨?_, ?_⟩
      · simp [declarations_eq]
      · simp [declarations_eq]
    rw [Node.ofStatements, hleaf, Node.ofStatements]
    exact reads_cons rfl hblock ih fun b rules hb => .style hb.1 hb.2
  | case4 keyword before content rest hkeyword ihcontent ih =>
    rw [Node.ofStatements, Statement.children_of_mem (by simp [hkeyword])]
    exact reads_cons rfl ihcontent ih fun inner rules => .media hkeyword
  | case5 keyword before content rest hkeyword ihcontent ih =>
    rw [Node.ofStatements, Statement.children_of_mem (by simp [hkeyword])]
    exact reads_cons rfl ihcontent ih fun inner rules => .container hkeyword
  | case6 keyword before content rest hkeyword ih =>
    rw [Node.ofStatements, Statement.children_of_not_mem (by simp [hkeyword]), Node.ofStatements]
    exact keyframes_reads (by simp [hkeyword]) before content _ ih
  | case7 keyword before content rest hkeyword ih =>
    rw [Node.ofStatements, Statement.children_of_not_mem (by simp [hkeyword]), Node.ofStatements]
    exact keyframes_reads (by simp [hkeyword]) before content _ ih
  | case8 keyword before content rest hkeyword ih =>
    rw [Node.ofStatements, Statement.children_of_not_mem (by simp [hkeyword]), Node.ofStatements]
    have hdone : Reads (fun _ : Unit => True) [] (pure () : Noted SourceError Unit).result :=
      reads_ok trivial
    exact reads_cons (f := fun _ => .directive { name := optionName, words := words before }) rfl
      hdone ih fun _ _ _ => .directive hkeyword
  | case9 keyword before content rest hmedia hcontainer hkeyframes hprefixed hinterop ih =>
    have hkeyword : Text.lower keyword ∉ keywords := by
      simp only [keywords, List.mem_cons, List.not_mem_nil, or_false, not_or]
      exact ⟨hmedia, hcontainer, hkeyframes, hprefixed, hinterop⟩
    have hleaf : Text.lower keyword ∉ ["media", "container"] := fun h =>
      hkeyword (List.mem_append_left ["keyframes", "-webkit-keyframes", "cssinterop"] h)
    rw [Node.ofStatements, Statement.children_of_not_mem hleaf, Node.ofStatements]
    exact reads_skip rfl ih fun _ => .skipped hkeyword

end Sheet

/-- Reading a source stops if and only if its tree has a malformed statement, and the error is then
that of the first one in the order of the source. What is malformed inside other blocks is no part
of the tree. If reading does not stop, the rules stand for the tree. -/
theorem parse_follows_tree (source : String) :
    let nodes := Node.ofStatements (Statement.listOfTokens true (Token.ofText source))
    (∀ e, (Sheet.parse source).result = .error e ↔
      ∃ before s after, Node.preorderAll nodes = before ++ s :: after ∧
        (∀ t ∈ before, t.error? = none) ∧ s.error? = some e) ∧
    ∀ rules, (Sheet.parse source).result = .ok rules → Sheet.Represents nodes rules := by
  intro nodes
  have hreads : Sheet.Reads (Sheet.Represents nodes) nodes (Sheet.parse source).result :=
    Sheet.ofStatements_reads (Statement.listOfTokens true (Token.ofText source))
  have hfirst (e : SourceError) :
      (Node.preorderAll nodes).findSome? Statement.error? = some e ↔
        ∃ before s after, Node.preorderAll nodes = before ++ s :: after ∧
          (∀ t ∈ before, t.error? = none) ∧ s.error? = some e := by
    rw [List.findSome?_eq_some_iff]
    constructor
    · rintro ⟨before, s, after, hnodes, hs, hbefore⟩
      exact ⟨before, s, after, hnodes, hbefore, hs⟩
    · rintro ⟨before, s, after, hnodes, hbefore, hs⟩
      exact ⟨before, s, after, hnodes, hs, hbefore⟩
  simp only [← hfirst]
  unfold Sheet.Reads at hreads
  cases herror : (Node.preorderAll nodes).findSome? Statement.error? with
  | some e' =>
    rw [herror] at hreads
    simp only at hreads
    rw [hreads]
    exact ⟨fun e => by simp, nofun⟩
  | none =>
    rw [herror] at hreads
    obtain ⟨rules, hrules, hrepresents⟩ := hreads
    rw [hrules]
    refine ⟨fun e => by simp, ?_⟩
    rintro _ ⟨⟩
    exact hrepresents

/-- What is malformed in a style block, among frames or in an unknown rule is passed over, and the
declarations around it keep their importance; in a container rule inside a media rule it stops the
reading, before what is malformed further on. -/
theorem parse_follows_tree_nested :
    let source := "@media screen\x7b.a\x7bColor:red;%;--B: 1 ;width:1px!important\x7d" ++
      "@container (w)\x7b.b\x7b\x7d\x7d\x7d@keyframes k\x7b%\x7d@x\x7b%\x7d"
    let broken := "@media x\x7b.a\x7b%\x7d\n@container (w)\x7b.b\x7d\x7d.c"
    let e : SourceError :=
      { problem := Problem.endReached.text, line := some 2, column := some 17 }
    let nodes (source : String) :=
      Node.ofStatements (Statement.listOfTokens true (Token.ofText source))
    let screen := Wrapper.media [{ mediaType := some "screen" }]
    let leaves : List Leaf :=
      [{ wrappers := [screen],
         rule := .style
          { selectors := [".a"], declarations := [⟨"color", "red"⟩, ⟨"--B", "1"⟩],
            important := [⟨"width", "1px"⟩] } },
       { wrappers := [screen, .container none "(w)"], rule := .style { selectors := [".b"] } },
       { wrappers := [], rule := .keyframes { name := "k", frames := [] } }]
    (∃ rules, (Sheet.parse source).result = .ok rules ∧ Sheet.Represents (nodes source) rules ∧
      Rule.leavesAll [] rules = leaves) ∧
    (Sheet.parse broken).result = .error e ∧
    ∃ before s after, Node.preorderAll (nodes broken) = before ++ s :: after ∧
      (∀ t ∈ before, t.error? = none) ∧ s.error? = some e := by
  intro source broken e nodes screen leaves
  have hleaves : (Sheet.parse source).result.toOption.map (Rule.leavesAll []) = some leaves := by
    decide +kernel
  have herror : (Sheet.parse broken).result = .error e := eq_error_of_error? (by decide +kernel)
  obtain ⟨rules, hrules, hleaves⟩ := exists_ok_of_map hleaves
  exact ⟨⟨rules, hrules, (parse_follows_tree source).2 rules hrules, hleaves⟩, herror,
    ((parse_follows_tree broken).1 e).mp herror⟩

end StyleBundle
