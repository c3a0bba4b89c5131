import StyleBundle.Proofs.Identifier
import StyleBundle.Proofs.Reading

/-!
# StyleBundle.Proofs.Fallback

The fallback of a `var`. It is read from the first layer behind the name, so it ends at the next
comma, and the white space and comments in it are lost; the value of a whole declaration keeps
them all.

* `Token.commas`: the commas in the text of some component values, by which the text of a list
  differs from that of a layer of it.
* `Value.ofToken_var`: the value of a `var`, and when it has the whole fallback.
-/

namespace StyleBundle

/-! ## Commas in texts -/

theorem Text.count_dropWhile_isBlank (cs : List Char) :
    (cs.dropWhile isBlank).count ',' = cs.count ',' := by
  have hblanks : (cs.takeWhile isBlank).count ',' = 0 := by
    rw [List.count_eq_zero]
    intro hmem
    exact absurd (List.mem_takeWhile_imp hmem) (by decide)
  have hsplit : (cs.takeWhile isBlank ++ cs.dropWhile isBlank).count ',' = cs.count ',' :=
    congrArg _ List.takeWhile_append_dropWhile
  rw [List.count_append, hblanks] at hsplit
  omega

theorem Text.count_trimChars (cs : List Char) : (trimChars cs).count ',' = cs.count ',' := by
  rw [trimChars, List.count_reverse, count_dropWhile_isBlank, List.count_reverse,
    count_dropWhile_isBlank]

namespace Write

theorem count_gap (previous : Option String) (t : Token) : (gap previous t).count ',' = 0 := by
  unfold gap
  split
  · rfl
  · split
    · decide
    · split
      · decide
      · rfl

theorem ne_comma_of_coded {c : Char} (h : (endsLine c || c.isDigit) = true) : c ≠ ',' := by
  rintro rfl
  revert h
  decide

/-- No comma of a character is lost where it is written. -/
theorem CharForm.count_le {form : List Char} {c : Char} (h : CharForm form c) :
    [c].count ',' ≤ form.count ',' := by
  cases h with
  | plain h => exact Nat.le_refl _
  | code h =>
    rw [List.count_singleton, if_neg (by simpa using ne_comma_of_coded h)]
    exact Nat.zero_le _
  | escaped hline h => exact List.Sublist.count_le _ (List.sublist_cons_self _ _)

theorem NameForm.count_le {text name : List Char} (h : NameForm text name) :
    name.count ',' ≤ text.count ',' := by
  induction h with
  | nil => exact Nat.le_refl _
  | cons h hs ih =>
    rw [← List.singleton_append, List.count_append, List.count_append]
    exact Nat.add_le_add h.count_le ih

theorem stringChar_count_le (c : Char) : [c].count ',' ≤ (stringChar c).count ',' := by
  unfold stringChar
  split
  · exact List.Sublist.count_le _ (List.sublist_cons_self _ _)
  · split
    · rename_i hline
      exact (CharForm.code (by rw [hline, Bool.true_or])).count_le
    · exact Nat.le_refl _

theorem string_count_le (cs : List Char) : cs.count ',' ≤ (cs.flatMap stringChar).count ',' := by
  induction cs with
  | nil => exact Nat.le_refl _
  | cons c rest ih =>
    rw [← List.singleton_append, List.count_append, List.flatMap_append, List.count_append]
    refine Nat.add_le_add ?_ ih
    simpa using stringChar_count_le c

end Write

namespace Token

/-- The number of commas in the text of component values, at any depth. -/
def commas (ts : List Token) : Nat := (ts.map fun t => (Write.token t).count ',').sum

theorem commas_cons (t : Token) (rest : List Token) :
    commas (t :: rest) = (Write.token t).count ',' + commas rest := rfl

theorem count_comma {t : Token} (h : t.isComma = true) : (Write.token t).count ',' = 1 := by
  unfold isComma isLiteral at h
  split at h
  · rename_i p text
    rw [eq_of_beq h]
    rfl
  · cases h

theorem count_tokensAfter (previous : Option String) (ts : List Token) :
    (Write.tokensAfter previous ts).count ',' = commas ts := by
  induction ts generalizing previous with
  | nil => rfl
  | cons t rest ih =>
    rw [Write.tokensAfter, List.count_append, List.count_append, Write.count_gap, ih, commas_cons,
      Nat.zero_add]

theorem count_text (ts : List Token) : (text ts).toList.count ',' = commas ts := by
  rw [text, String.toList_ofList, chars, count_tokensAfter]

theorem count_trimmed (ts : List Token) : (trimmed ts).toList.count ',' = commas ts := by
  rw [trimmed, String.toList_ofList, Text.count_trimChars, chars, count_tokensAfter]

theorem commas_sublist {us ts : List Token} (h : us.Sublist ts) : commas us ≤ commas ts :=
  (h.map _).sum_le_sum fun _ _ => Nat.zero_le _

theorem commas_filter (ts : List Token) :
    commas (ts.filter (!·.isComma)) + ts.countP isComma = commas ts := by
  induction ts with
  | nil => rfl
  | cons t rest ih =>
    cases ht : t.isComma with
    | true =>
      rw [List.filter_cons_of_neg (by simp [ht]), List.countP_cons_of_pos ht, commas_cons,
        count_comma ht]
      omega
    | false =>
      rw [List.filter_cons_of_pos (by simp [ht]), List.countP_cons_of_neg (by simp [ht]),
        commas_cons, commas_cons]
      omega

theorem isSignificant_of_isComma {t : Token} (h : t.isComma = true) : t.isSignificant = true := by
  unfold isComma isLiteral at h
  split at h
  · rfl
  · cases h

/-- A list with a comma and a layer has two significant component values at least. -/
theorem two_le_significant {ts layer : List Token} (hlayer : layer ∈ layers ts)
    {comma : Token} (hmem : comma ∈ ts) (hcomma : comma.isComma = true) :
    2 ≤ (significant ts).length := by
  obtain ⟨hne, -, hsublist⟩ := of_mem_layers hlayer
  obtain ⟨t, ht⟩ := List.exists_mem_of_ne_nil layer hne
  obtain ⟨hother, hsignificant⟩ := List.mem_filter.mp (hsublist.subset ht)
  obtain ⟨hmem', hother⟩ := List.mem_filter.mp hother
  have hdistinct : [comma, t].Nodup := by
    rw [List.nodup_cons, List.mem_singleton]
    refine ⟨?_, List.nodup_singleton t⟩
    rintro rfl
    simp [hcomma] at hother
  have hsubset : [comma, t] ⊆ significant ts := by
    simp only [List.cons_subset, List.nil_subset, and_true]
    exact ⟨List.mem_filter.mpr ⟨hmem, isSignificant_of_isComma hcomma⟩,
      List.mem_filter.mpr ⟨hmem', hsignificant⟩⟩
  exact (List.subperm_of_subset hdistinct hsubset).length_le

/-- A layer lacks the commas that the list is cut at. -/
theorem commas_lt_of_mem_layers {ts layer : List Token} (hlayer : layer ∈ layers ts)
    {comma : Token} (hmem : comma ∈ ts) (hcomma : comma.isComma = true) :
    commas layer < commas ts := by
  have hle : commas layer ≤ commas (ts.filter (!·.isComma)) :=
    commas_sublist ((of_mem_layers hlayer).2.2.trans List.filter_sublist)
  have hpos : 0 < ts.countP isComma := List.countP_pos_iff.mpr ⟨comma, hmem, hcomma⟩
  have hfilter := commas_filter ts
  omega

end Token

/-! ## Values -/

theorem Number.toValue_ne_text (n : Number) (v : String) : n.toValue ≠ .text v := by
  intro h
  cases n <;> cases h

namespace Value

theorem ofDimension_eq_text {n : Numeral} {unit v : String} (h : ofDimension n unit = .text v) :
    v = String.ofList (Write.atom (.dimension n unit)) := by
  unfold ofDimension at h
  simp only at h
  split at h
  · exact absurd h (n.number.toValue_ne_text v)
  · split at h
    · cases h
    · split at h
      · cases h
      · exact (Value.text.inj h).symm

/-- The text of a component value has no comma that is not written for it. -/
theorem count_ofToken {t : Token} {v : String} (h : ofToken t = .text v) :
    v.toList.count ',' ≤ (Write.token t).count ',' := by
  have htrimmed (t : Token) : (Token.trimmed [t]).toList.count ',' ≤ (Write.token t).count ',' := by
    rw [Token.count_trimmed]
    exact Nat.le_refl _
  fun_induction ofToken t with
  | case1 p n => exact absurd h (n.number.toValue_ne_text v)
  | case2 p n unit =>
    rw [ofDimension_eq_text h, String.toList_ofList]
    exact Nat.le_refl _
  | case3 p value =>
    cases h
    exact (Write.identifier_form _).count_le
  | case4 p value closed =>
    rw [← Value.text.inj h]
    have hvalue := Write.string_count_le value.toList
    simp only [Write.token, Write.atom, List.count_append, List.count_cons]
    omega
  | case5 p value isIdentifier =>
    rw [← Value.text.inj h, String.toList_append, List.count_append]
    have hform : Write.NameForm
        (if isIdentifier then Write.identifier value.toList else Write.name value.toList)
        value.toList := by
      split
      · exact Write.identifier_form _
      · exact Write.name_form _
    simpa [Write.token, Write.atom, List.count_cons] using hform.count_le
  | case8 =>
    cases h
    rw [Token.count_text]
    exact Nat.le_refl _
  | case9 | case10 | case11 => cases h
  | _ =>
    cases h
    exact htrimmed _

/-- The text of component values has no comma that is not written for them. -/
theorem count_ofTokens {ts : List Token} {v : String} (h : ofTokens ts = .text v) :
    v.toList.count ',' ≤ Token.commas ts := by
  unfold ofTokens at h
  split at h
  · cases h
  · rename_i t hone
    have hsublist : [t].Sublist ts := hone ▸ List.filter_sublist
    exact (count_ofToken h).trans (Token.commas_sublist hsublist)
  · cases h
    rw [Token.count_trimmed]

theorem ofTokens_single {ts : List Token} {t : Token} (h : Token.significant ts = [t]) :
    ofTokens ts = ofToken t := by
  rw [ofTokens, h]

theorem ofTokens_several {ts : List Token} (h : 2 ≤ (Token.significant ts).length) :
    ofTokens ts = .text (Token.trimmed ts) := by
  unfold ofTokens
  split
  · rename_i hnil
    rw [hnil, List.length_nil] at h
    omega
  · rename_i t hone
    rw [hone, List.length_singleton] at h
    omega
  · rfl

/-- The value of a `var`: its name is the first layer, its fallback the second. -/
theorem ofToken_var_layers (p : Position) {f : String} (hvar : Text.lower f = "var")
    {arguments name : List Token} {rest : List (List Token)}
    (h : Token.layers arguments = name :: rest) :
    ofToken (.function p f arguments) =
      .call "var" (.text (Token.trimmed name) :: (rest.head?.map ofTokens).toList) false := by
  have hmem : ∀ layer ∈ rest, layer ∈ Token.layers arguments := by
    intro layer hlayer
    rw [h]
    exact List.mem_cons_of_mem _ hlayer
  rw [ofToken, if_pos (by rw [hvar]; rfl)]
  split
  · rename_i hnil
    rw [hnil] at h
    cases h
  · rename_i hone
    rw [hone] at h
    cases h
    rfl
  · rename_i t more htwo
    rw [htwo] at h
    cases h
    have hlayer := (Token.of_mem_layers (hmem [t] List.mem_cons_self)).2.1
    rw [List.head?_cons, Option.map_some, ofTokens_single hlayer]
    rfl
  · rename_i fallback more hne htwo
    rw [htwo] at h
    cases h
    obtain ⟨hnonempty, hlayer, -⟩ := Token.of_mem_layers (hmem fallback List.mem_cons_self)
    have hlength : 2 ≤ (Token.significant fallback).length := by
      rw [hlayer]
      rcases fallback with _ | ⟨t, _ | ⟨u, rest⟩⟩
      · exact absurd rfl hnonempty
      · exact absurd rfl (hne t)
      · simp
    rw [List.head?_cons, Option.map_some, ofTokens_several hlength]
    rfl

theorem ofTokens_significant_iff {ts : List Token} (hne : Token.significant ts ≠ []) :
    ofTokens (Token.significant ts) = ofTokens ts ↔
      (Token.significant ts).length = 1 ∨
        Token.trimmed (Token.significant ts) = Token.trimmed ts := by
  have hpos : 0 < (Token.significant ts).length := List.length_pos_iff.mpr hne
  by_cases hone : (Token.significant ts).length = 1
  · obtain ⟨t, ht⟩ := List.length_eq_one_iff.mp hone
    rw [ofTokens_single ht, ofTokens_single (by rw [Token.significant_significant, ht])]
    simp [hone]
  · have htwo : 2 ≤ (Token.significant ts).length := by omega
    rw [ofTokens_several htwo, ofTokens_several (by rw [Token.significant_significant]; exact htwo)]
    simp [hone]

/-- The fallback is whole if there is no comma in it, and if it is one component value or has
nothing idle that its text would show. -/
theorem fallback_iff {after : List Token} (hne : Token.significant after ≠ []) :
    (Token.layers after).head?.map ofTokens = some (ofTokens after) ↔
      (∀ t ∈ after, t.isComma = false) ∧
        ((Token.significant after).length = 1 ∨
          Token.trimmed (Token.significant after) = Token.trimmed after) := by
  by_cases hcommas : ∀ t ∈ after, t.isComma = false
  · rw [Token.layers_single hcommas hne, List.head?_cons, Option.map_some, Option.some_inj,
      ofTokens_significant_iff hne]
    exact (and_iff_right hcommas).symm
  · refine iff_of_false ?_ fun h => hcommas h.1
    intro hfallback
    obtain ⟨layer, hhead, hvalue⟩ := Option.map_eq_some_iff.mp hfallback
    have hlayer : layer ∈ Token.layers after := List.mem_of_mem_head? hhead
    obtain ⟨comma, hmem, hcomma⟩ : ∃ comma ∈ after, comma.isComma = true := by
      simpa using hcommas
    -- The text of the list shows every comma in it, and that of a layer lacks the one it ends at.
    have hlt := Token.commas_lt_of_mem_layers hlayer hmem hcomma
    have hlength := Token.two_le_significant hlayer hmem hcomma
    have hle := count_ofTokens (hvalue.trans (ofTokens_several hlength))
    rw [Token.count_trimmed] at hle
    omega

/-- A `var` with a comma: what is before the first comma is the name, without what is idle in it,
and the fallback is what is before the next one. So the name and the fallback are whole only if they
lose nothing that their text would show, and a comma before the name does not count. -/
theorem ofToken_var (p : Position) {f : String} (hvar : Text.lower f = "var")
    {before : List Token} {comma : Token} (hbefore : ∀ t ∈ before, t.isComma = false)
    (hcomma : comma.isComma = true) (after : List Token) :
    let value := ofToken (.function p f (before ++ comma :: after))
    (Token.significant before ≠ [] →
      value = .call "var" (.text (Token.trimmed (Token.significant before)) ::
        ((Token.layers after).head?.map ofTokens).toList) false ∧
      (Token.significant after ≠ [] →
        (value = .call "var" [.text (Token.trimmed before), ofTokens after] false ↔
          Token.trimmed (Token.significant before) = Token.trimmed before ∧
          (∀ t ∈ after, t.isComma = false) ∧
          ((Token.significant after).length = 1 ∨
            Token.trimmed (Token.significant after) = Token.trimmed after)))) ∧
    (Token.significant before = [] → Token.layers after ≠ [] →
      value = ofToken (.function p f after)) := by
  intro value
  constructor
  · intro hname
    have hvalue := ofToken_var_layers p hvar (Token.layers_first hbefore hcomma hname after)
    refine ⟨hvalue, fun hne => ?_⟩
    simp only [value]
    rw [hvalue, ← fallback_iff hne]
    cases (Token.layers after).head?.map ofTokens with
    | none => simp
    | some fallback => simp
  · intro hnil hne
    obtain ⟨name, rest, hlayers⟩ := List.exists_cons_of_ne_nil hne
    simp only [value]
    rw [ofToken_var_layers p hvar hlayers,
      ofToken_var_layers p hvar ((Token.layers_skip hbefore hcomma hnil after).trans hlayers)]

/-- In `VAR(--gap , "a, b")` white space around the name and a comma in a string do no harm. -/
theorem ofToken_var_whole :
    let word (a : Atom) : Token := .atom ⟨1, 1⟩ a
    let before := [word (.ident "--gap"), word (.whitespace " ")]
    let after := [word (.whitespace " "), word (.string "a, b" true)]
    ofToken (.function ⟨1, 1⟩ "VAR" (before ++ word (.literal ",") :: after)) =
      .call "var" [.text (Token.trimmed before), ofTokens after] false := by
  intro word before after
  have hvar : Text.lower "VAR" = "var" := by decide
  have hbefore : ∀ t ∈ before, t.isComma = false := by decide
  have hcomma : (word (.literal ",")).isComma = true := rfl
  have hkept : Token.trimmed (Token.significant before) = Token.trimmed before := by decide +kernel
  obtain ⟨-, hwhole⟩ :=
    (ofToken_var ⟨1, 1⟩ hvar hbefore hcomma after).1 (List.cons_ne_nil _ _)
  exact (hwhole (List.cons_ne_nil _ _)).mpr ⟨hkept, by decide, .inl rfl⟩

/-- Of `var(--font, Open Sans, serif)` the fallback is `Open/**/Sans`. -/
theorem var_fallback_cut :
    let word (a : Atom) : Token := .atom ⟨1, 1⟩ a
    let comma := word (.literal ",")
    let after := [word (.whitespace " "), word (.ident "Open"), word (.whitespace " "),
      word (.ident "Sans"), comma, word (.whitespace " "), word (.ident "serif")]
    ofToken (.function ⟨1, 1⟩ "var" (word (.ident "--font") :: comma :: after)) =
        .call "var" [.text "--font", .text "Open/**/Sans"] false ∧
      ofTokens after = .text "Open Sans, serif" := by
  intro word comma after
  have hvar : Text.lower "var" = "var" := by decide
  have hname : Token.trimmed [word (.ident "--font")] = "--font" := by decide +kernel
  have hcut : Token.trimmed [word (.ident "Open"), word (.ident "Sans")] = "Open/**/Sans" := by
    decide +kernel
  have hwhole : Token.trimmed after = "Open Sans, serif" := by decide +kernel
  have hlayers : Token.layers (word (.ident "--font") :: comma :: after) =
      [[word (.ident "--font")], [word (.ident "Open"), word (.ident "Sans")],
        [word (.ident "serif")]] := rfl
  constructor
  · rw [ofToken_var_layers ⟨1, 1⟩ hvar hlayers, hname, ← hcut]
    rfl
  · rw [← hwhole]
    rfl

end Value

end StyleBundle
