import StyleBundle.Proofs.Lexing

/-!
# StyleBundle.Proofs.Remainder

A reader takes the front of a text and leaves its end. So every lexeme of a text is the first lexeme
of an end of it (`scan_of_mem`), and what holds of the characters of a text holds wherever a lexeme
begins.

No character of a normalised text is null, and no escape gives the null character. So the value of
an identifier never holds it (`Token.ofText_ident`).
-/

namespace StyleBundle

namespace Read

theorem dropSpace_suffix (cs : List Char) : dropSpace cs <:+ cs := by
  cases cs with
  | nil => exact List.suffix_rfl
  | cons c rest =>
    rw [dropSpace]
    split
    · exact List.suffix_cons c rest
    · exact List.suffix_rfl

theorem escape_suffix (cs : List Char) : (escape cs).2 <:+ cs := by
  unfold escape
  simp only
  split
  · cases cs with
    | nil => exact List.suffix_rfl
    | cons c rest => exact List.suffix_cons c rest
  · exact (dropSpace_suffix _).trans (List.drop_suffix _ cs)

theorem name_suffix (cs : List Char) : (name cs).2 <:+ cs := by
  fun_induction name cs with
  | case1 => exact List.suffix_rfl
  | case2 c rest h r ih => exact ih.trans (List.suffix_cons c rest)
  | case3 c rest h h' e r ih =>
    exact (ih.trans (escape_suffix rest)).trans (List.suffix_cons c rest)
  | case4 c rest h h' => exact List.suffix_rfl

theorem quotedText_suffix (quote : Char) (cs : List Char) : (quotedText quote cs).2.2 <:+ cs := by
  fun_induction quotedText quote cs with
  | case1 => exact List.suffix_rfl
  | case2 => exact List.suffix_cons _ _
  | case3 rest ih => exact ih.trans ((List.suffix_cons _ _).trans (List.suffix_cons _ _))
  | case4 d rest h e r ih =>
    exact (ih.trans (escape_suffix (d :: rest))).trans (List.suffix_cons _ _)
  | case5 c rest => exact List.suffix_cons c rest
  | case6 c rest => exact List.suffix_rfl
  | case7 c rest _ _ _ _ _ r ih => exact ih.trans (List.suffix_cons c rest)

theorem urlTail_suffix (cs : List Char) : (urlTail cs).2 <:+ cs := by
  have hdrop : cs.dropWhile isSpace <:+ cs := List.dropWhile_suffix isSpace
  unfold urlTail
  split
  · exact List.nil_suffix
  · rename_i rest heq
    rw [heq] at hdrop
    exact (List.suffix_cons _ _).trans hdrop
  · exact hdrop

theorem urlText_suffix (cs : List Char) : (urlText cs).2.2 <:+ cs := by
  fun_induction urlText cs with
  | case1 => exact List.suffix_rfl
  | case2 c rest => exact List.suffix_cons c rest
  | case3 c rest => exact (urlTail_suffix rest).trans (List.suffix_cons c rest)
  | case4 c rest h h' h'' e r ih =>
    exact (ih.trans (escape_suffix rest)).trans (List.suffix_cons c rest)
  | case5 c rest => exact List.suffix_cons c rest
  | case6 c rest h h' h'' h3 r ih => exact ih.trans (List.suffix_cons c rest)

theorem pastBadUrl_suffix (cs : List Char) : pastBadUrl cs <:+ cs := by
  fun_induction pastBadUrl cs with
  | case1 => exact List.suffix_rfl
  | case2 rest ih => exact ih.trans ((List.suffix_cons _ _).trans (List.suffix_cons _ _))
  | case3 rest => exact List.suffix_cons _ rest
  | case4 c rest h h' ih => exact ih.trans (List.suffix_cons c rest)

theorem commentText_suffix (cs : List Char) : (commentText cs).2 <:+ cs := by
  fun_induction commentText cs with
  | case1 => exact List.suffix_rfl
  | case2 rest => exact (List.suffix_cons _ rest).trans (List.suffix_cons _ _)
  | case3 c rest h r ih => exact ih.trans (List.suffix_cons c rest)

theorem range_suffix (cs : List Char) : (range cs).2.2 <:+ cs := by
  unfold range
  simp only
  have hbody {n k : Nat} : (cs.drop n).drop k <:+ cs :=
    (List.drop_suffix _ _).trans (List.drop_suffix _ cs)
  split
  · split
    · rename_i more heq
      have hmore : more <:+ cs := by
        refine (List.suffix_cons '-' more).trans ?_
        rw [← heq]
        exact hbody
      split
      · exact hbody
      · exact (List.drop_suffix _ more).trans hmore
    · exact hbody
  · exact hbody

end Read

namespace Lexeme

theorem quotedAt_suffix (quote : Char) (rest : List Char) : (quotedAt quote rest).2 <:+ rest := by
  unfold quotedAt
  simp only
  split <;> exact Read.quotedText_suffix quote rest

theorem urlAt_suffix (rest : List Char) : (urlAt rest).2 <:+ rest := by
  have htext := (Read.urlText_suffix (rest.dropWhile Read.isSpace)).trans
    (List.dropWhile_suffix Read.isSpace)
  unfold urlAt
  simp only
  split
  · exact htext
  · exact htext
  · exact (Read.pastBadUrl_suffix _).trans htext

theorem identAt_suffix (cs : List Char) : (identAt cs).2 <:+ cs := by
  have hname := Read.name_suffix cs
  unfold identAt
  simp only
  split
  · rename_i rest heq
    rw [heq] at hname
    have hrest := (List.suffix_cons '(' rest).trans hname
    split
    · exact (urlAt_suffix rest).trans hrest
    · exact hrest
  · exact hname

theorem numeralAt_suffix (n : Numeral) (rest : List Char) : (numeralAt n rest).2 <:+ rest := by
  unfold numeralAt
  split
  · exact Read.name_suffix rest
  · split
    · exact List.suffix_cons _ _
    · exact List.suffix_rfl

theorem symbolAt_suffix (c : Char) (rest : List Char) : (symbolAt c rest).2 <:+ rest := by
  unfold symbolAt
  split
  case h_1 =>
    split
    · exact Read.name_suffix rest
    · exact List.suffix_rfl
  case h_2 =>
    split
    · exact List.suffix_rfl
    · split
      · exact Read.name_suffix _
      · exact List.suffix_rfl
  case h_9 => exact quotedAt_suffix _ rest
  case h_10 => exact quotedAt_suffix _ rest
  case h_11 =>
    split
    · exact (Read.commentText_suffix _).trans (List.suffix_cons _ _)
    · exact List.suffix_rfl
  case h_12 =>
    split
    · rename_i more
      exact List.suffix_append ['!', '-', '-'] more
    · exact List.suffix_rfl
  case h_13 =>
    split
    · exact List.suffix_cons _ _
    · exact List.suffix_cons _ _
    · exact List.suffix_rfl
  case h_14 =>
    split
    · split
      · exact List.suffix_cons _ _
      · exact List.suffix_rfl
    · exact List.suffix_rfl
  -- a bracket takes nothing more
  all_goals exact List.suffix_rfl

end Lexeme

theorem lexeme_suffix (cs : List Char) : (lexeme cs).2 <:+ cs := by
  unfold lexeme
  split
  · exact List.suffix_rfl
  · rename_i c rest
    have hrest := List.suffix_cons c rest
    split
    · exact (List.dropWhile_suffix Read.isSpace).trans hrest
    · split
      · exact ((Read.range_suffix _).trans (List.drop_suffix 1 rest)).trans hrest
      · split
        · exact (List.drop_suffix 2 rest).trans hrest
        · split
          · exact Lexeme.identAt_suffix _
          · split
            · exact ((Lexeme.numeralAt_suffix _ _).trans (List.drop_suffix _ rest)).trans hrest
            · exact (Lexeme.symbolAt_suffix c rest).trans hrest

/-- Every lexeme of a text is the first one of an end of it. -/
theorem scan_of_mem {p : Position} {cs : List Char} {l : Position × Lexeme} (h : l ∈ scan p cs) :
    ∃ rest, rest <:+ cs ∧ l.2 = (lexeme rest).1 := by
  fun_induction scan p cs with
  | case1 p => cases h
  | case2 p c rest r taken ih =>
    rcases List.mem_cons.mp h with rfl | h
    · exact ⟨c :: rest, List.suffix_rfl, rfl⟩
    · obtain ⟨rest', hrest', hl⟩ := ih h
      exact ⟨rest', hrest'.trans (lexeme_suffix (c :: rest)), hl⟩

/-! ## Identifiers -/

namespace Read

theorem normalise_ne_null (cs : List Char) : ∀ c ∈ normalise cs, c.toNat ≠ 0 := by
  fun_induction normalise cs with
  | case1 => nofun
  | case2 rest ih => exact List.forall_mem_cons.mpr ⟨by decide, ih⟩
  | case3 c rest hline ih =>
    refine List.forall_mem_cons.mpr ⟨?_, ih⟩
    split
    · decide
    · split
      · decide
      · assumption

theorem charOfCode_ne_null (n : Nat) : (charOfCode n).toNat ≠ 0 := by
  unfold charOfCode
  split
  · rename_i h
    rw [Char.ofNat, dif_pos h.2]
    exact h.1
  · decide

theorem escape_ne_null {cs : List Char} (h : ∀ c ∈ cs, c.toNat ≠ 0) : (escape cs).1.toNat ≠ 0 := by
  unfold escape
  simp only
  split
  · cases cs with
    | nil => decide
    | cons c rest => exact h c List.mem_cons_self
  · exact charOfCode_ne_null _

/-- A text without the null character is read into names without it. -/
theorem name_ne_null {cs : List Char} (h : ∀ c ∈ cs, c.toNat ≠ 0) :
    ∀ c ∈ (name cs).1, c.toNat ≠ 0 := by
  fun_induction name cs with
  | case1 =>
    intro c hc
    cases hc
  | case2 c rest hc r ih =>
    obtain ⟨hhead, hrest⟩ := List.forall_mem_cons.mp h
    exact List.forall_mem_cons.mpr ⟨hhead, ih hrest⟩
  | case3 c rest hc hescapes e r ih =>
    obtain ⟨-, hrest⟩ := List.forall_mem_cons.mp h
    refine List.forall_mem_cons.mpr ⟨escape_ne_null hrest, ih ?_⟩
    intro d hd
    exact hrest d ((escape_suffix rest).subset hd)
  | case4 c rest hc hescapes =>
    intro d hd
    cases hd

end Read

/-- An identifier of a text has a value, and no character of it is null. -/
theorem Token.ofText_ident {source : String} {p : Position} {v : String}
    (h : .atom p (.ident v) ∈ ofText source) : v ≠ "" ∧ ∀ c ∈ v.toList, c.toNat ≠ 0 := by
  let R (a : Atom) : Prop := ∀ v, a = .ident v → v ≠ "" ∧ ∀ c ∈ v.toList, c.toNat ≠ 0
  have hlexeme {cs : List Char} (hcs : ∀ c ∈ cs, c.toNat ≠ 0) : (lexeme cs).1.All R := by
    refine lexeme_all ⟨?_, nofun, nofun, nofun, ?_⟩
    · rintro hstarts v ⟨⟩
      refine ⟨?_, by simpa using Read.name_ne_null hcs⟩
      intro heq
      exact Read.name_ne_nil hstarts (by simpa using congrArg String.toList heq)
    · rintro a ha v rfl
      cases ha
  have hall : ∀ a ∈ atomsAll (ofText source), R a := by
    refine nest_all (fun b v heq => nomatch heq) ?_ nofun nofun
    intro l hl
    obtain ⟨rest, hrest, heq⟩ := scan_of_mem (List.mem_filter.mp hl).1
    rw [heq]
    exact hlexeme fun c hc => Read.normalise_ne_null _ c (hrest.subset hc)
  exact hall _ (mem_atomsAll.mpr ⟨_, h, List.mem_singleton.mpr rfl⟩) v rfl

end StyleBundle
