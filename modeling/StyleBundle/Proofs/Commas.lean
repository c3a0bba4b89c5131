import StyleBundle.Proofs.Tokens

/-!
# StyleBundle.Proofs.Commas

Two ways to take a list of component values apart at its commas. `Token.splitCommas` keeps all that
stands between two commas; `Token.layers` keeps what is significant and leaves out what is empty, in
one pass of its own.

* `Token.splitCommas_rejoin`: parts and commas make up the list again.
* `Token.flatten_layers`: what all layers hold.
* `Token.layers_eq_map`: each layer is what is significant in one of the parts that hold anything.
* `Token.splitters_agree`: the two ways agree, and a list of media queries has one for each layer.
-/

namespace StyleBundle

namespace Token

/-- Each part goes before its comma, and the last one before none. -/
theorem splitCommas_rejoin (ts : List Token) :
    (List.zipWith (· ++ ·) (splitCommas ts)
      ((ts.filter isComma).map ([·]) ++ [[]])).flatten = ts := by
  rw [splitCommas_eq_splitOnP]
  exact List.splitOnP_spec ts

theorem length_splitCommas (ts : List Token) :
    (splitCommas ts).length = (ts.filter isComma).length + 1 := by
  induction ts with
  | nil => rfl
  | cons t rest ih =>
    obtain ⟨part, parts, hrest⟩ := exists_splitCommas_cons rest
    cases ht : t.isComma with
    | true => simp [splitCommas_comma ht, ht, ih]
    | false =>
      rw [hrest] at ih
      simpa [splitCommas_other ht hrest, ht] using ih

theorem not_isComma_of_mem_splitCommas {ts part : List Token} {t : Token}
    (hpart : part ∈ splitCommas ts) (ht : t ∈ part) : t.isComma = false := by
  have hmem := (sublist_of_mem_splitCommas hpart).subset ht
  simpa using (List.mem_filter.mp hmem).2

theorem flatten_layers (ts : List Token) :
    (layers ts).flatten = ts.filter fun t => t.isSignificant && !t.isComma := by
  calc (layers ts).flatten
      = ((splitCommas ts).map significant).flatten := by
        rw [layers_eq, List.flatten_filter_not_isEmpty]
    _ = (splitCommas ts).flatten.filter isSignificant := List.filter_flatten.symm
    _ = ts.filter fun t => t.isSignificant && !t.isComma := by
        rw [flatten_splitCommas, List.filter_filter]

theorem isEmpty_significant (ts : List Token) :
    (significant ts).isEmpty = !ts.any isSignificant := by
  rw [Bool.eq_iff_iff]
  simp [significant]

theorem layers_eq_map (ts : List Token) :
    layers ts = ((splitCommas ts).filter (·.any isSignificant)).map significant := by
  rw [layers_eq, List.filter_map]
  simp only [Function.comp_def, isEmpty_significant, Bool.not_not]

/-- The two ways agree and lose nothing. The parts, with the commas between them, make up the list
again, and none of them has a comma. The layers are what is significant in the parts, where there is
anything: none is empty, and together they are the significant component values but the commas, in
their order. A list of media queries has one query for each layer, read from the part that the layer
is taken from. -/
theorem splitters_agree (ts : List Token) :
    (List.zipWith (· ++ ·) (splitCommas ts)
      ((ts.filter isComma).map ([·]) ++ [[]])).flatten = ts ∧
    (splitCommas ts).length = (ts.filter isComma).length + 1 ∧
    (∀ part ∈ splitCommas ts, ∀ t ∈ part, t.isComma = false) ∧
    layers ts = ((splitCommas ts).map significant).filter (!·.isEmpty) ∧
    (∀ layer ∈ layers ts, layer ≠ []) ∧
    (layers ts).flatten = ts.filter (fun t => t.isSignificant && !t.isComma) ∧
    (MediaQuery.listOfTokens ts).length = (layers ts).length ∧
    ∃ parts : List (List Token), parts.Sublist (splitCommas ts) ∧
      layers ts = parts.map significant ∧
      MediaQuery.listOfTokens ts = parts.map MediaQuery.ofTokens := by
  refine ⟨splitCommas_rejoin ts, length_splitCommas ts, ?_, layers_eq ts, ?_, flatten_layers ts,
    ?_, ?_⟩
  · exact fun part hpart t ht => not_isComma_of_mem_splitCommas hpart ht
  · exact fun layer hlayer => (of_mem_layers hlayer).1
  · rw [MediaQuery.listOfTokens, layers_eq_map, List.length_map, List.length_map]
  · exact ⟨_, List.filter_sublist, layers_eq_map ts, rfl⟩

/-- Commas at both ends and side by side, white space, a comment, and a comma inside a function. -/
theorem splitters_agree_stray_commas :
    let word (v : String) : Token := .atom .start (.ident v)
    let space : Token := .atom .start (.whitespace " ")
    let comma : Token := .atom .start (.literal ",")
    let call : Token := .function .start "f" [word "x", comma, word "y"]
    let ts := [comma, space, word "a", space, call, comma, .atom .start (.comment "c"), comma,
      word "b", comma]
    splitCommas ts = [[], [space, word "a", space, call], [.atom .start (.comment "c")],
      [word "b"], []] ∧
    call ∈ [space, word "a", space, call] ∧ call.isComma = false ∧
    [word "a", call] ∈ layers ts ∧ [word "a", call] ≠ [] ∧
    (MediaQuery.listOfTokens ts).length = 2 := by
  intro word space comma call ts
  have hparts : splitCommas ts = [[], [space, word "a", space, call],
      [.atom .start (.comment "c")], [word "b"], []] := by cbv
  have hlayers : layers ts = [[word "a", call], [word "b"]] := by cbv
  obtain ⟨-, -, hcommas, -, hnonempty, -, hqueries, -⟩ := splitters_agree ts
  have hcall : call ∈ [space, word "a", space, call] := by simp
  have hlayer : [word "a", call] ∈ layers ts := by rw [hlayers]; exact List.mem_cons_self
  refine ⟨hparts, hcall, ?_, hlayer, hnonempty _ hlayer, ?_⟩
  · exact hcommas [space, word "a", space, call] (by rw [hparts]; simp) call hcall
  · rw [hqueries, hlayers]; rfl

end Token

end StyleBundle
