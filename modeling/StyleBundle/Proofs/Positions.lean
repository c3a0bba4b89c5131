import StyleBundle.Proofs.Tokens

/-!
# StyleBundle.Proofs.Positions

Where a component value stands in the source does not tell what it says. `Token.bare` forgets all
positions; reading, writing and cutting component values into items do not see the difference.

* `nest_bare`, `scan_lexemes`: a text gives the same bare values wherever it begins.
* `nest_append`: values that are complete before a text stay before its values.
* `Item.listOfTokens_bare`: the items of a block.
-/

namespace StyleBundle

namespace Token

mutual

/-- A component value as if it stood at the start of the source. -/
def bare : Token → Token
  | .atom _ a => .atom .start a
  | .function _ name arguments => .function .start name (bareAll arguments)
  | .block _ b content => .block .start b (bareAll content)

def bareAll : List Token → List Token
  | [] => []
  | t :: rest => t.bare :: bareAll rest

end

theorem bareAll_eq_map (ts : List Token) : bareAll ts = ts.map bare := by
  induction ts with
  | nil => rfl
  | cons t rest ih => rw [bareAll, ih, List.map_cons]

@[simp] theorem bareAll_append (ts us : List Token) :
    bareAll (ts ++ us) = bareAll ts ++ bareAll us := by
  simp [bareAll_eq_map]

@[simp] theorem bareAll_reverse (ts : List Token) : bareAll ts.reverse = (bareAll ts).reverse := by
  simp [bareAll_eq_map]

@[simp] theorem isSignificant_bare (t : Token) : t.bare.isSignificant = t.isSignificant := by
  cases t with
  | atom p a => cases a <;> rfl
  | _ => rfl

@[simp] theorem isLiteral_bare (text : String) (t : Token) :
    t.bare.isLiteral text = t.isLiteral text := by
  cases t with
  | atom p a => cases a <;> rfl
  | _ => rfl

@[simp] theorem isKeyword_bare (words : List String) (t : Token) :
    t.bare.isKeyword words = t.isKeyword words := by
  cases t with
  | atom p a => cases a <;> rfl
  | _ => rfl

theorem skipIdle_bare (ts : List Token) : skipIdle (bareAll ts) = bareAll (skipIdle ts) := by
  induction ts with
  | nil => rfl
  | cons t rest ih =>
    unfold skipIdle at ih ⊢
    rw [bareAll, List.dropWhile_cons, List.dropWhile_cons, isSignificant_bare]
    split
    · exact ih
    · rfl

end Token

/-! ## Writing -/

namespace Write

theorem role_bare (t : Token) : role t.bare = role t := by
  cases t with
  | atom p a => cases a <;> rfl
  | function p name arguments => rfl
  | block p b content => cases b <;> rfl

theorem gap_bare (previous : Option String) (t : Token) : gap previous t.bare = gap previous t := by
  have hline : beginsLine t.bare = beginsLine t := by
    cases t with
    | atom p a => cases a <;> rfl
    | _ => rfl
  unfold gap
  rw [role_bare, hline]

mutual

theorem endsOpen_bare : ∀ t : Token, endsOpen t.bare = endsOpen t
  | .atom _ a => by
    cases a with
    | error fault => cases fault <;> rfl
    | _ => rfl
  | .function _ _ arguments => by
    rw [Token.bare, endsOpen, endsOpen, lastEndsOpen_bare arguments]
  | .block _ _ _ => rfl

theorem lastEndsOpen_bare : ∀ ts : List Token, lastEndsOpen (Token.bareAll ts) = lastEndsOpen ts
  | [] => rfl
  | [t] => by
    rw [Token.bareAll, Token.bareAll, lastEndsOpen, lastEndsOpen, endsOpen_bare t]
  | t :: u :: rest => by
    have ih := lastEndsOpen_bare (u :: rest)
    rw [Token.bareAll] at ih
    rw [Token.bareAll, Token.bareAll, lastEndsOpen, lastEndsOpen, ih]

end

mutual

theorem token_bare : ∀ t : Token, token t.bare = token t
  | .atom _ _ => rfl
  | .function _ _ arguments => by
    rw [Token.bare, token, token, tokensAfter_bare none arguments, lastEndsOpen_bare]
  | .block _ _ content => by
    rw [Token.bare, token, token, tokensAfter_bare none content]

theorem tokensAfter_bare : ∀ (previous : Option String) (ts : List Token),
    tokensAfter previous (Token.bareAll ts) = tokensAfter previous ts
  | _, [] => rfl
  | previous, t :: rest => by
    rw [Token.bareAll, tokensAfter, tokensAfter, gap_bare, token_bare t, role_bare,
      tokensAfter_bare (some (role t)) rest]

end

end Write

theorem Token.chars_bare (ts : List Token) : chars (bareAll ts) = chars ts :=
  Write.tokensAfter_bare none ts

/-! ## Items -/

def Stop.bare : Stop → Stop
  | .block _ content => .block .start (Token.bareAll content)
  | stop => stop

def Item.bare : Item → Item
  | .declaration name value important => .declaration name (Token.bareAll value) important
  | .atRule keyword before => .atRule keyword (Token.bareAll before)
  | item => item

theorem ValueScan.isBlock_bare (t : Token) : isBlock t.bare = isBlock t := by
  cases t with
  | block p b content => cases b <;> rfl
  | _ => rfl

theorem prelude_of_not_block {t : Token} (h : ValueScan.isBlock t = false) (semicolons : Bool)
    (rest : List Token) :
    prelude semicolons (t :: rest) =
      if semicolons && t.isLiteral ";" then ([], .semicolon, rest)
      else (t :: (prelude semicolons rest).1, (prelude semicolons rest).2) := by
  rw [prelude]
  rintro p content rfl
  cases h

theorem prelude_bare (semicolons : Bool) (ts : List Token) :
    prelude semicolons (Token.bareAll ts) =
      (Token.bareAll (prelude semicolons ts).1, (prelude semicolons ts).2.1.bare,
        Token.bareAll (prelude semicolons ts).2.2) := by
  induction ts with
  | nil => rfl
  | cons t rest ih =>
    rw [Token.bareAll]
    cases hblock : ValueScan.isBlock t with
    | true =>
      unfold ValueScan.isBlock at hblock
      split at hblock
      · rfl
      · cases hblock
    | false =>
      have hbare : ValueScan.isBlock t.bare = false := by rw [ValueScan.isBlock_bare, hblock]
      rw [prelude_of_not_block hblock, prelude_of_not_block hbare, Token.isLiteral_bare, ih]
      split
      · rfl
      · rfl

theorem ValueScan.step_bare (s : ValueScan) (t : Token) : s.step t.bare = s.step t := by
  have hordinary : s.ordinary t.bare = s.ordinary t := by
    unfold ordinary
    rw [Token.isSignificant_bare, isBlock_bare]
  unfold step
  rw [Token.isLiteral_bare, Token.isKeyword_bare, hordinary]

namespace Item

theorem value?_bare (ts : List Token) :
    value? (Token.bareAll ts) = (value? ts).map fun v => (Token.bareAll v.1, v.2) := by
  have hscan : (Token.bareAll ts).foldl ValueScan.step {} = ts.foldl ValueScan.step {} := by
    rw [Token.bareAll_eq_map, List.foldl_map]
    congr 1
    funext s t
    exact ValueScan.step_bare s t
  unfold value?
  simp only [hscan]
  split
  · rfl
  · split
    · simp [Token.bareAll_eq_map, List.map_take]
    · rfl

theorem declaration?_bare (t : Token) (rest : List Token) :
    declaration? t.bare (Token.bareAll rest) = (declaration? t rest).map bare := by
  unfold declaration?
  cases t with
  | atom p a =>
    cases a with
    | ident name =>
      simp only [Token.bare]
      rw [Token.skipIdle_bare]
      cases Token.skipIdle rest with
      | nil => rfl
      | cons colon ts =>
        simp only [Token.bareAll, Token.isLiteral_bare]
        split
        · rw [value?_bare]
          cases value? ts with
          | none => rfl
          | some v => rfl
        · rfl
    | _ => rfl
  | _ => rfl

theorem declarationTokens_bare (r : List Token × Stop × List Token) :
    declarationTokens (Token.bareAll r.1, r.2.1.bare, Token.bareAll r.2.2) =
      Token.bareAll (declarationTokens r) := by
  obtain ⟨before, stop, rest⟩ := r
  cases stop with
  | block p content => simp [declarationTokens, Stop.bare, Token.bareAll, Token.bare]
  | _ => rfl

theorem other_bare (stop : Stop) : other stop.bare = (other stop).bare := by
  cases stop <;> rfl

theorem listOfTokens_bare (ts : List Token) :
    listOfTokens (Token.bareAll ts) = (listOfTokens ts).map bare := by
  fun_induction listOfTokens ts with
  | case1 => rw [Token.bareAll, listOfTokens, List.map_nil]
  | case2 t rest hidle ih =>
    rw [Token.bareAll, listOfTokens.eq_def]
    simp only [Token.isSignificant_bare, Token.isLiteral_bare, hidle, if_true, ih]
  | case3 rest p keyword r hidle ih =>
    rw [Token.bareAll, listOfTokens.eq_def]
    simp only [Token.bare, prelude_bare]
    exact congrArg (atRule keyword (Token.bareAll r.1) :: ·) ih
  | case4 rest p content hidle ih =>
    rw [Token.bareAll, listOfTokens.eq_def]
    simp only [Token.bare]
    exact congrArg (nestedRule :: ·) ih
  | case5 t rest hidle r hkeyword hcurly ih =>
    have hfirst : (declaration? t.bare (declarationTokens (prelude true (Token.bareAll rest)))).getD
        (other (prelude true (Token.bareAll rest)).2.1) =
          ((declaration? t (declarationTokens r)).getD (other r.2.1)).bare := by
      rw [prelude_bare, declarationTokens_bare, declaration?_bare, other_bare]
      cases declaration? t (declarationTokens r) with
      | none => rfl
      | some item => rfl
    have hothers : listOfTokens (prelude true (Token.bareAll rest)).2.2 =
        (listOfTokens r.2.2).map bare := by
      rw [prelude_bare]
      exact ih
    rw [Token.bareAll, listOfTokens]
    · rw [Token.isSignificant_bare, Token.isLiteral_bare, if_neg hidle, List.map_cons, ← hfirst,
        ← hothers]
    · rintro p keyword heq
      cases t with
      | atom q a =>
        cases heq
        exact hkeyword q keyword rfl
      | _ => cases heq
    · rintro p content heq
      cases t with
      | block q b inner =>
        cases heq
        exact hcurly q inner rfl
      | _ => cases heq

end Item

namespace Sheet

theorem declarations_bare (important : Bool) (items : List Item) :
    declarations important (items.map Item.bare) = declarations important items := by
  unfold declarations
  rw [List.filterMap_map]
  congr 1
  funext item
  cases item with
  | declaration name value i =>
    simp only [Function.comp, Item.bare, declaration, Token.trimmed, Token.chars_bare]
  | _ => rfl

theorem moves_bare (items : List Item) : moves (items.map Item.bare) = moves items := by
  unfold moves
  rw [List.filterMap_map]
  congr 1
  funext item
  cases item with
  | atRule keyword before =>
    simp only [Function.comp, Item.bare, words, Token.chars_bare]
  | _ => rfl

end Sheet

/-! ## Reading -/

/-- A lexeme as if it stood at the start of the source. -/
def Lexeme.bare (l : Position × Lexeme) : Position × Lexeme := (.start, l.2)

def OpenList.bare (o : OpenList) : OpenList := ⟨.start, o.opening, Token.bareAll o.before⟩

theorem scan_lexemes (p q : Position) (cs : List Char) :
    (scan p cs).map Lexeme.bare = (scan q cs).map Lexeme.bare := by
  fun_induction scan p cs generalizing q with
  | case1 p => rw [scan]
  | case2 p c rest r taken ih =>
    rw [scan]
    exact congrArg (_ :: ·) (ih _)

theorem OpenList.close_bare (o : OpenList) (content : List Token) :
    Token.bareAll (o.close content) = o.bare.close (Token.bareAll content) := by
  unfold close token OpenList.bare
  cases o.opening with
  | function name => simp [Token.bareAll, Token.bare]
  | block b => simp [Token.bareAll, Token.bare]

theorem nest_bare (outer : List OpenList) (done : List Token) (ls : List (Position × Lexeme)) :
    Token.bareAll (nest outer done ls) =
      nest (outer.map OpenList.bare) (Token.bareAll done) (ls.map Lexeme.bare) := by
  fun_induction nest outer done ls with
  | case1 outer done =>
    rw [Token.bareAll_reverse, List.map_nil, nest, List.foldl_map]
    congr 1
    exact (List.foldl_hom Token.bareAll fun content o => (o.close_bare content).symm).symm
  | case2 outer done p as rest ih =>
    have has : Token.bareAll (as.map (.atom p)) = as.map (.atom .start) := by
      simp [Token.bareAll_eq_map, Token.bare]
    rw [ih, List.map_cons, Lexeme.bare, nest, Token.bareAll_append, Token.bareAll_reverse, has]
  | case3 outer done p o rest ih =>
    rw [ih]
    rfl
  | case4 done p b rest ih =>
    rw [ih]
    rfl
  | case5 o outer done p rest ih =>
    have hclosed : o.bare.opening.bracket = o.opening.bracket := rfl
    rw [ih, List.map_cons, List.map_cons, Lexeme.bare, nest, if_pos hclosed, o.close_bare]
  | case6 o outer done p b rest h ih =>
    have hopen : ¬ o.bare.opening.bracket = b := h
    rw [ih, List.map_cons, List.map_cons, Lexeme.bare, nest, if_neg hopen]
    rfl

/-- A text gives the same bare values wherever it begins. -/
theorem nest_scan_bare (p q : Position) (cs : List Char) :
    Token.bareAll (nest [] [] ((scan p cs).filter (!·.2.isComment))) =
      Token.bareAll (nest [] [] ((scan q cs).filter (!·.2.isComment))) := by
  have hfilter (p : Position) :
      ((scan p cs).filter (!·.2.isComment)).map Lexeme.bare =
        ((scan p cs).map Lexeme.bare).filter (!·.2.isComment) := by
    rw [List.filter_map]
    rfl
  rw [nest_bare, nest_bare, hfilter p, hfilter q, scan_lexemes p q]

/-! ## Values before a text -/

/-- An open list with more values before it; `base` holds them, last first. -/
def OpenList.after (base : List Token) (o : OpenList) : OpenList :=
  { o with before := o.before ++ base }

/-- Values that stand before the outermost list stay there. The second part is about the time when
some list is open, `o` being the outermost. -/
theorem nest_before (base : List Token) (ls : List (Position × Lexeme)) :
    (∀ done, nest [] (done ++ base) ls = base.reverse ++ nest [] done ls) ∧
    ∀ outer o done, nest (outer ++ [o.after base]) done ls =
      base.reverse ++ nest (outer ++ [o]) done ls := by
  induction ls with
  | nil =>
    constructor
    · intro done
      simp [nest]
    · intro outer o done
      simp [nest, List.foldl_append, OpenList.close, OpenList.after, OpenList.token]
  | cons l rest ih =>
    obtain ⟨ihdone, ihouter⟩ := ih
    obtain ⟨p, lexeme⟩ := l
    cases lexeme with
    | atoms as =>
      constructor
      · intro done
        rw [nest, nest, ← List.append_assoc, ihdone]
      · intro outer o done
        rw [nest, nest, ihouter]
    | opening o =>
      constructor
      · intro done
        rw [nest, nest]
        exact ihouter [] ⟨p, o, done⟩ []
      · intro outer o' done
        rw [nest, nest]
        exact ihouter (⟨p, o, done⟩ :: outer) o' []
    | closing b =>
      constructor
      · intro done
        rw [nest, nest]
        exact ihdone (.atom p (.error (.stray b)) :: done)
      · intro outer o done
        cases outer with
        | nil =>
          have hbracket : (o.after base).opening.bracket = o.opening.bracket := rfl
          rw [List.nil_append, List.nil_append, nest, nest, hbracket]
          split
          · exact ihdone (o.close done)
          · exact ihouter [] o (.atom p (.error (.stray b)) :: done)
        | cons x outer =>
          rw [List.cons_append, List.cons_append, nest, nest]
          split
          · exact ihouter outer o (x.close done)
          · exact ihouter (x :: outer) o (.atom p (.error (.stray b)) :: done)

theorem nest_append (done : List Token) (ls : List (Position × Lexeme)) :
    nest [] done ls = done.reverse ++ nest [] [] ls :=
  (nest_before done ls).1 []

end StyleBundle
