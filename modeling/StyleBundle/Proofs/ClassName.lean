import StyleBundle.Proofs.ClassToken
import StyleBundle.Proofs.Failure

/-!
# StyleBundle.Proofs.ClassName

A class name on its way from the source to a key of the bundle. It is read from the source, written
into the text of the selector, trimmed, and read again. Trimming is the step that may change it: the
key is the worn name (`Bundle.ofSource_classRule`), and this is the name exactly if its last
character is no blank or has its code written (`Write.stripped_keeps_iff`).

* `Selector.classify_stripped`: what the trimmed selector selects.
* `Sheet.parse_classRule`: the block of a sheet that is one class and its block.
* `Bundle.compile_block`: compiling a single block.
-/

namespace StyleBundle

/-! ## The class that is selected -/

namespace Write

/-- The text of an identifier without the blanks at its end. -/
def stripped (cs : List Char) : List Char := (identifier cs).rdropWhile Text.isBlank

theorem exists_stripped_append (cs : List Char) : ∃ blanks, stripped cs ++ blanks = identifier cs :=
  List.rdropWhile_prefix Text.isBlank (identifier cs)

theorem stripped_settled {cs : List Char} (hnull : '\x00' ∉ cs) :
    ∀ c ∈ stripped cs, Read.IsSettled c := by
  intro c hc
  obtain ⟨blanks, hblanks⟩ := exists_stripped_append cs
  have hmem : c ∈ identifier cs := hblanks ▸ List.mem_append_left blanks hc
  exact (identifier_form cs).settled (Token.ne_null_of_not_mem hnull) c hmem

/-- Trimming leaves nothing, a hyphen, or a text that is read as an identifier. -/
theorem stripped_cases {cs : List Char} (h : cs ≠ []) :
    stripped cs = [] ∨ stripped cs = ['-'] ∨ Read.BeginsIdent (stripped cs) := by
  obtain ⟨blanks, hblanks⟩ := exists_stripped_append cs
  have hbegins : Read.BeginsIdent (identifier cs ++ []) := beginsIdent_identifier (by simp) h
  rw [List.append_nil, ← hblanks] at hbegins
  obtain hnil | hdash | hident := Read.startsIdent_of_append hbegins.ident
  · exact .inl hnil
  · exact .inr (.inl hdash)
  · exact .inr (.inr (hbegins.of_append hident))

/-- Trimming leaves the class alone exactly if the last character is no blank or has its code
written. -/
theorem stripped_keeps_iff {cs : List Char} (hcs : cs ≠ []) :
    Read.startsIdent (stripped cs) = true ∧ worn cs = cs ↔
      ∀ c ∈ cs.getLast?, Text.isBlank c = true → endsLine c = true := by
  rw [← worn_eq_self_iff]
  refine ⟨And.right, fun hworn => ⟨?_, hworn⟩⟩
  have hread : Read.name (stripped cs) = (cs, []) := by
    rw [stripped, (identifier_form cs).read_trimmed, hworn]
  obtain hnil | hdash | hbegins := stripped_cases hcs
  · have hname : Read.name [] = ([], []) := by decide +kernel
    rw [hnil, hname] at hread
    exact absurd (congrArg Prod.fst hread).symm hcs
  · -- a lone hyphen is never written as it is
    have hname : Read.name ['-'] = (['-'], []) := by decide +kernel
    have hlone : stripped ['-'] ≠ ['-'] := by decide +kernel
    rw [hdash, hname] at hread
    have hcs' : ['-'] = cs := congrArg Prod.fst hread
    exact absurd (hcs' ▸ hdash) hlone
  · exact hbegins.ident

end Write

/-- The end of a selector is trimmed; its start is a dot. -/
theorem Sheet.selectors_class (p q : Position) (v : String) :
    selectors [.atom p (.literal "."), .atom q (.ident v)] =
      [String.ofList ('.' :: Write.stripped v.toList)] := by
  have hchars : Token.chars [.atom p (.literal "."), .atom q (.ident v)] =
      '.' :: Write.identifier v.toList := by
    have hgap : Write.gap (some ".") (.atom q (.ident v)) = [] := rfl
    have hdot : ".".toList = ['.'] := rfl
    simp only [Token.chars, Write.tokensAfter, Write.role, hgap, Write.token, Write.atom, hdot]
    simp [Write.gap]
  have htrim : Text.trimChars ('.' :: Write.identifier v.toList) =
      '.' :: Write.stripped v.toList := by
    have hblank : Text.isBlank '.' = false := by decide +kernel
    have hstart : ('.' :: Write.identifier v.toList).dropWhile Text.isBlank =
        '.' :: Write.identifier v.toList := by rw [List.dropWhile_cons, hblank]; rfl
    rw [Text.trimChars, hstart]
    unfold Write.stripped List.rdropWhile
    rw [List.reverse_cons, List.dropWhile_append]
    split
    · rename_i hnil
      simp [List.isEmpty_iff.mp hnil, hblank]
    · simp
  have hsplit : Token.splitCommas [.atom p (.literal "."), .atom q (.ident v)] =
      [[.atom p (.literal "."), .atom q (.ident v)]] := rfl
  simp only [selectors, hsplit, List.map_cons, List.map_nil, Token.trimmed, hchars, htrim]
  simp

/-- What the trimmed text of a class selector selects: the class of the worn name, if what trimming
leaves still begins an identifier. -/
theorem Selector.classify_stripped {v : String} (hv : Token.IsIdentValue v)
    (isGroup : String → Bool) (dark : DarkMode) (media : List MediaQuery) :
    classify isGroup dark media (String.ofList ('.' :: Write.stripped v.toList)) =
      if Read.startsIdent (Write.stripped v.toList) then
        some (.className { className := String.ofList (Write.worn v.toList),
                           specificity := { className := 1 } })
      else none := by
  obtain ⟨hne, hnull⟩ := Token.isIdentValue_iff.mp hv
  unfold classify Token.ofText
  rw [String.toList_ofList]
  obtain hnil | hdash | hbegins := Write.stripped_cases hne
  · have hnone : Compound.listOfTokens? (Token.ofChars ['.']) = none := by decide +kernel
    rw [hnil, hnone]
    rfl
  · have hnone : Compound.listOfTokens? (Token.ofChars ['.', '-']) = none := by decide +kernel
    rw [hdash, hnone]
    rfl
  · have hend : Write.stripped v.toList ++ Read.normalise [] = Write.stripped v.toList := by
      rw [Read.normalise, List.append_nil]
    have hvalue : Read.name (Write.stripped v.toList ++ Read.normalise []) =
        (Write.worn v.toList, Read.normalise []) := by
      rw [hend]
      exact (Write.identifier_form v.toList).read_trimmed
    have hround : '(' ∉ (Read.normalise []).head? := by simp [Read.normalise]
    obtain ⟨p, q, r, htokens⟩ :=
      Token.ofChars_class (Write.stripped_settled hnull) (hend.symm ▸ hbegins) hvalue hround
    rw [List.append_nil, Read.normalise, scan] at htokens
    rw [htokens, if_pos hbegins.ident]
    rfl

/-! ## A class and its block -/

/-- A style sheet that is one class selector and the text of its block. -/
def Write.classRule (className text : String) : String :=
  "." ++ String.ofList (identifier className.toList) ++ "\x7b" ++ text ++ "\x7d"

theorem Token.of_bareAll_block {ts content : List Token} {b : Bracket}
    (h : bareAll ts = [.block .start b content]) :
    ∃ p content', ts = [.block p b content'] ∧ bareAll content' = content := by
  match ts with
  | [] => cases h
  | [.block p b' content'] =>
    cases h
    exact ⟨p, content', rfl, rfl⟩
  | [.atom _ _] => cases h
  | [.function _ _ _] => cases h
  | _ :: _ :: _ =>
    rw [bareAll, bareAll] at h
    cases (List.cons.inj h).2

/-- A class rule is read as a dot, the class and the block that its text is read as, but for the
positions in it. -/
theorem Token.ofText_classRule {v text : String} (hv : IsIdentValue v) {position : Position}
    {content : List Token}
    (h : ofText ("\x7b" ++ text ++ "\x7d") = [.block position .curly content]) :
    ∃ p q r content', ofText (Write.classRule v text) =
      [.atom p (.literal "."), .atom q (.ident v), .block r .curly content'] ∧
      bareAll content' = bareAll content := by
  obtain ⟨hne, hnull⟩ := isIdentValue_iff.mp hv
  let block := ("\x7b" ++ text ++ "\x7d").toList
  have hrest : ∀ d ∈ (Read.normalise block).head?, d = '\x7b' := by
    have hcurly : ∀ c ∈ ['\x7b'], Read.IsSettled c := List.forall_mem_singleton.mpr (by decide)
    have hblock : block = ['\x7b'] ++ (text ++ "\x7d").toList := by
      simp [block, String.toList_append]
    rw [hblock, Read.normalise_append hcurly]
    rintro d ⟨⟩
    rfl
  have hchars : (Write.classRule v text).toList = '.' :: (Write.identifier v.toList ++ block) := by
    simp [Write.classRule, String.toList_append, block]
  obtain ⟨p, q, r, htokens⟩ := ofChars_written hne hnull hrest
  have hbare := nest_scan_bare r .start (Read.normalise block)
  rw [show nest [] [] ((scan .start (Read.normalise block)).filter (!·.2.isComment)) = _ from h,
    bareAll, bareAll, bare] at hbare
  obtain ⟨position', content', hblock, hcontent⟩ := of_bareAll_block hbare
  refine ⟨p, q, position', content', ?_, hcontent⟩
  rw [ofText, hchars, htokens, hblock]

/-- A class rule is a sheet of one block. -/
theorem Sheet.parse_classRule {v text : String} (hv : Token.IsIdentValue v) {position : Position}
    {content : List Token}
    (h : Token.ofText ("\x7b" ++ text ++ "\x7d") = [.block position .curly content]) :
    (parse (Write.classRule v text)).result =
      .ok [.style { selectors := [String.ofList ('.' :: Write.stripped v.toList)],
                    declarations := declarations false (Item.listOfTokens content),
                    important := declarations true (Item.listOfTokens content),
                    directives := moves (Item.listOfTokens content) }] := by
  obtain ⟨p, q, r, content', htokens, hcontent⟩ := Token.ofText_classRule hv h
  have hitems : (Item.listOfTokens content').map Item.bare =
      (Item.listOfTokens content).map Item.bare := by
    rw [← Item.listOfTokens_bare, hcontent, Item.listOfTokens_bare]
  have hdeclarations (important : Bool) : declarations important (Item.listOfTokens content') =
      declarations important (Item.listOfTokens content) := by
    rw [← declarations_bare, hitems, declarations_bare]
  have hmoves : moves (Item.listOfTokens content') = moves (Item.listOfTokens content) := by
    rw [← moves_bare, hitems, moves_bare]
  have hstatements : Statement.listOfTokens true (Token.ofText (Write.classRule v text)) =
      [.qualified [.atom p (.literal "."), .atom q (.ident v)] content'] := by
    have hprelude : prelude false
        [.atom p (.literal "."), .atom q (.ident v), .block r .curly content'] =
          ([.atom p (.literal "."), .atom q (.ident v)], .block r content', []) := rfl
    have hbound : Statement.isMarkupBound (.atom p (.literal ".")) = false := rfl
    rw [htokens, Statement.listOfTokens.eq_def]
    simp [hprelude, hbound, Token.isSignificant, Statement.listOfTokens]
  rw [parse, hstatements, ofStatements, ofStatements]
  simp only [styleBlock, selectors_class, hdeclarations, hmoves]
  rfl

/-! ## The keys of the bundle -/

/-- Whether a text, in the braces of a block, is a single declaration that adds to its rule. -/
def Settings.supports (c : Settings) (text : String) : Bool :=
  match Token.ofText ("\x7b" ++ text ++ "\x7d") with
  | [.block _ .curly content] =>
    match Item.listOfTokens content with
    | [.declaration name value _] =>
      !(buildRule (c.buildContext []) c.read {} [Sheet.declaration name value]).rule.isEmpty
    | _ => false
  | _ => false

theorem Settings.of_supports {c : Settings} {text : String} (h : c.supports text = true) :
    ∃ position content name value important,
      Token.ofText ("\x7b" ++ text ++ "\x7d") = [.block position .curly content] ∧
      Item.listOfTokens content = [.declaration name value important] ∧
      (buildRule (c.buildContext []) c.read {}
        [Sheet.declaration name value]).rule.isEmpty = false := by
  unfold supports at h
  split at h
  · rename_i position content htokens
    split at h
    · rename_i name value important hitems
      exact ⟨position, content, name, value, important, htokens, hitems, by simpa using h⟩
    · cases h
  · cases h

/-- If a block has declarations of one importance only, it files for these. -/
theorem SheetBlock.filings_of_one {p : SheetBlock} {important : Bool}
    (h : p.block.declarationsOf (!important) = []) (c : Settings) (order : Nat) :
    p.filings c order = p.filingsOf c order important := by
  have hnone {i : Bool} (hi : p.block.declarationsOf i = []) : p.filingsOf c order i = [] := by
    simp [filingsOf, rule?_of_nil hi]
  cases important with
  | true => rw [filings, hnone (i := false) h, List.nil_append]
  | false => rw [filings, hnone (i := true) h, List.append_nil]

/-- A declaration that contributes to its rule does so in any block without relocations. -/
theorem SheetBlock.rule?_of_one {c : Settings} {d : Declaration} {p : SheetBlock}
    {important : Bool}
    (hempty : (buildRule (c.buildContext []) c.read {} [d]).rule.isEmpty = false)
    (hdirectives : p.block.directives = []) (hd : p.block.declarationsOf important = [d])
    (order : Nat) : ∃ r, p.rule? c order important = some r ∧ r.isEmpty = false := by
  have hrule : p.rule? c order important = some (p.context.apply
      (buildRule (c.buildContext []) c.read (specificity order important) [d]).rule) := by
    rw [rule?_of_ne_nil (by simp [hd]), built, hdirectives, hd]
    rfl
  refine ⟨_, hrule, ?_⟩
  rw [buildRule_eq]
  exact hempty

/-- A block of one selector and one declaration files one rule, for what the selector selects. -/
theorem SheetBlock.filings_one {c : Settings} {d : Declaration} {p : SheetBlock}
    {important : Bool} {selector : String}
    (hempty : (buildRule (c.buildContext []) c.read {} [d]).rule.isEmpty = false)
    (hselectors : p.block.selectors = [selector]) (hdirectives : p.block.directives = [])
    (hd : p.block.declarationsOf important = [d])
    (hother : p.block.declarationsOf (!important) = []) (order : Nat) :
    ∃ r, r.isEmpty = false ∧
      p.filings c order = (c.classify p.darkMode (r.media.getD []) selector).flatMap
        (Variant.filings order important selector r) := by
  obtain ⟨r, hr, hrempty⟩ := rule?_of_one hempty hdirectives hd order
  refine ⟨r, hrempty, ?_⟩
  rw [filings_of_one hother, filingsOf, hr, hselectors]
  simp only [Option.toList_some, List.flatMap_singleton]

/-- Compiling a single block files what it files, and nothing stops it. -/
theorem Bundle.compile_block (c : Settings) (dark : DarkMode) {b : StyleBlock}
    (hb : b.hasDeclarations = true) :
    ∃ s, (compile c { darkMode := dark } [.style b]).result = .ok (ofState s) ∧
      s.rules = Table.pushAll [] ((SheetBlock.filings c 1 ⟨b, {}, dark⟩).map Filed.entry) := by
  let s : State := { darkMode := dark }
  obtain ⟨hfailure, -⟩ := addBlock_eq c {} (s := s) Int.one_nonneg hb
  obtain ⟨-, -, hrules⟩ := addBlock_files c {} (s := s) Int.one_nonneg hb
  have hextract : s.extractAll c {} [.style b] = s.addBlock c {} b := by
    rw [State.extractAll, State.extract, Outcome.andThen_of_ok hfailure, State.extractAll,
      List.append_nil, ← hfailure]
  rw [← hextract] at hfailure hrules
  exact ⟨(s.extractAll c {} [.style b]).state, compile_of_ok hfailure, hrules⟩

theorem RuleSet.keys_ofTable_one {key : String} {r : StyleRule} (h : r.isEmpty = false) :
    Table.keys (ofTable [(key, [r])]) = [key] := by
  have huseful : (ofRules [r]).isUseful = true := by
    rw [isUseful_ofRules]
    simp [relevant, h]
  simp [ofTable, huseful, Table.keys]

/-- The key of a class rule is the worn name of the class, if trimming leaves one. -/
theorem Bundle.ofSource_classRule {o : Options} (hclassifier : o.classifier = .standard)
    (harrange : o.arrange = id) {c : Settings} (hc : o.settings = .ok c) {text : String}
    (htext : c.supports text = true) {v : String} (hv : Token.IsIdentValue v) :
    ∃ b, (ofSource o (Write.classRule v text)).result = .ok b ∧
      Table.keys b.rules =
        if Read.startsIdent (Write.stripped v.toList) then [String.ofList (Write.worn v.toList)]
        else [] := by
  obtain ⟨position, content, name, value, important, htokens, hitems, hempty⟩ :=
    Settings.of_supports htext
  have hparse := Sheet.parse_classRule hv htokens
  rw [hitems] at hparse
  let selector := String.ofList ('.' :: Write.stripped v.toList)
  let items : List Item := [.declaration name value important]
  let b : StyleBlock :=
    { selectors := [selector], declarations := Sheet.declarations false items,
      important := Sheet.declarations true items, directives := Sheet.moves items }
  let p : SheetBlock := ⟨b, {}, o.darkMode⟩
  have hof (i : Bool) : b.declarationsOf i = Sheet.declarations i items := by cases i <;> rfl
  have hown : b.declarationsOf important = [Sheet.declaration name value] := by
    simp [hof, Sheet.declarations, items]
  have hother : b.declarationsOf (!important) = [] := by
    simp [hof, Sheet.declarations, items]
  have hb : b.hasDeclarations = true := by cases important <;> rfl
  obtain ⟨r, hrempty, hfilings⟩ := SheetBlock.filings_one (p := p) hempty rfl rfl hown hother 1
  have hstandard : c.classify o.darkMode (r.media.getD []) selector =
      (Selector.classify c.isGroup o.darkMode (r.media.getD []) selector).toList := by
    rw [Settings.classify, (Options.of_settings hc).1, hclassifier]
    rfl
  rw [hstandard, Selector.classify_stripped hv] at hfilings
  obtain ⟨s, hs, hrules⟩ := compile_block c o.darkMode hb
  rw [hfilings] at hrules
  refine ⟨ofState s, ?_, ?_⟩
  · rw [ofSource_of_unarranged hc harrange, ofParsed_of_parse hparse]
    exact hs
  · change Table.keys (RuleSet.ofTable s.rules) = _
    rw [hrules]
    split
    · exact RuleSet.keys_ofTable_one hrempty
    · rfl

/-- A class comes through to the key of its rule set, whatever characters it has, exactly if the
last of them is no blank or one that is written by its code. It is written into the selector with
escapes, the selector is trimmed, and what is left is read again: trimming takes away a blank at the
end of a class, and with it the class if there is nothing else in it. -/
theorem ofSource_class_name {o : Options} (hclassifier : o.classifier = .standard)
    (harrange : o.arrange = id) {c : Settings} (hc : o.settings = .ok c) {text : String}
    (htext : c.supports text = true) {v : String} (hv : Token.IsIdentValue v) :
    ∃ b, (Bundle.ofSource o (Write.classRule v text)).result = .ok b ∧
      (Table.keys b.rules = [v] ↔
        ∀ c ∈ v.toList.getLast?, Text.isBlank c = true → Write.endsLine c = true) := by
  have hne := (Token.isIdentValue_iff.mp hv).1
  obtain ⟨b, hb, hkeys⟩ := Bundle.ofSource_classRule hclassifier harrange hc htext hv
  refine ⟨b, hb, ?_⟩
  rw [hkeys, ← Write.stripped_keeps_iff hne]
  split
  · rename_i hident
    have hvalue : String.ofList (Write.worn v.toList) = v ↔ Write.worn v.toList = v.toList := by
      rw [← String.toList_inj, String.toList_ofList]
    rw [List.singleton_inj, hvalue, and_iff_right hident]
  · rename_i hident
    simp [hident]

/-- A digit in front, an escaped blank inside and a line end behind, which is no identifier without
escapes by code at both ends. -/
theorem ofSource_class_name_coded :
    let c : Settings :=
      { isGroup := Options.found [], ignores := Options.found [], classifier := .standard,
        read := Declaration.read }
    Options.settings {} = .ok c ∧ c.supports "color:red!important" = true ∧
      Token.IsIdentValue "1 \n" ∧
      Write.classRule "1 \n" "color:red!important" = ".\\31 \\ \\A \x7bcolor:red!important\x7d" ∧
      ∃ b, (Bundle.ofSource {} (Write.classRule "1 \n" "color:red!important")).result = .ok b ∧
        Table.keys b.rules = ["1 \n"] := by
  intro c
  have hc : Options.settings {} = .ok c := rfl
  have htext : c.supports "color:red!important" = true := by decide +kernel
  have hv : Token.IsIdentValue "1 \n" := Token.isIdentValue_iff.mpr ⟨by decide, by decide⟩
  obtain ⟨b, hb, hkeys⟩ := ofSource_class_name rfl rfl hc htext hv
  refine ⟨hc, htext, hv, by decide +kernel, b, hb, hkeys.mpr ?_⟩
  have hlast : "1 \n".toList.getLast? = some '\n' := by decide
  intro d hd
  rw [hlast] at hd
  cases hd
  decide +kernel

/-- Blanks at the end of a class do not come through: of an escaped one the backslash is left and
read as a replacement character; a no-break space is lost, and so is a class that is nothing
else. -/
theorem class_name_loses_last_blank :
    let keys (v : String) :=
      (Bundle.ofSource {} (Write.classRule v "color:red")).result.toOption.map
        fun b => Table.keys b.rules
    (∀ v ∈ ["a ", "a\u00a0", "\u00a0"], Token.IsIdentValue v) ∧
      Write.classRule "a " "color:red" = ".a\\ \x7bcolor:red\x7d" ∧
      keys "a " = some ["a\ufffd"] ∧ keys "a\u00a0" = some ["a"] ∧ keys "\u00a0" = some [] := by
  intro keys
  refine ⟨?_, by decide +kernel, by decide +kernel, by decide +kernel, by decide +kernel⟩
  intro v hv
  rw [Token.isIdentValue_iff]
  revert v
  decide +kernel

end StyleBundle
