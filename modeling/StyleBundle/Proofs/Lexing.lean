import StyleBundle.Proofs.Tokens

/-!
# StyleBundle.Proofs.Lexing

What leaves a text is read into. An identifier has a name, and a numeral is one that is read from
its parts. One lexeme gives no other leaves (`lexeme_read`, from `lexeme_all`), and folding brackets
adds none but faults of brackets that close nothing (`nest_all`), so this holds of all component
values at any depth (`Token.ofText_read`).
-/

namespace StyleBundle

/-- A leaf as it can be read from a text. -/
def Atom.IsRead : Atom → Prop
  | .ident v => v ≠ ""
  | .number n | .percentage n | .dimension n _ => ∃ p : Read.NumeralParts, n = p.numeral
  | _ => True

/-- All leaves of a lexeme are as asked for. -/
def Lexeme.All (R : Atom → Prop) : Lexeme → Prop
  | .atoms as => ∀ a ∈ as, R a
  | _ => True

/-! ## One lexeme -/

theorem Read.name_rest_of_nil {cs : List Char} (h : (Read.name cs).1 = []) :
    (Read.name cs).2 = cs := by
  cases cs with
  | nil => rw [Read.name]
  | cons c rest =>
    rw [Read.name] at h ⊢
    split at h
    · cases h
    · split at h
      · cases h
      · rename_i hc he
        rw [if_neg hc, if_neg he]

theorem Read.name_ne_nil {cs : List Char} (h : Read.startsIdent cs = true) :
    (Read.name cs).1 ≠ [] := by
  intro hnil
  have hlt := Read.name_length_lt h
  rw [Read.name_rest_of_nil hnil] at hlt
  omega

/-- A leaf that is neither an identifier nor a numeral. -/
def Atom.isOther : Atom → Bool
  | .ident _ | .number _ | .percentage _ | .dimension _ _ => false
  | _ => true

/-- What has to be known of a property of leaves to have it of the first lexeme of a text: only the
name at its start can become an identifier, and only the parts of a numeral become one. -/
structure Lexeme.Grants (cs : List Char) (R : Atom → Prop) : Prop where
  ident : Read.startsIdent cs = true → R (.ident (String.ofList (Read.name cs).1))
  number (p : Read.NumeralParts) : R (.number p.numeral)
  percentage (p : Read.NumeralParts) : R (.percentage p.numeral)
  dimension (p : Read.NumeralParts) (unit : String) : R (.dimension p.numeral unit)
  other (a : Atom) : a.isOther = true → R a

namespace Lexeme

theorem All.mono {R S : Atom → Prop} (h : ∀ a, R a → S a) {l : Lexeme} (hl : l.All R) :
    l.All S := by
  cases l with
  | atoms as => exact fun a ha => h a (hl a ha)
  | _ => exact trivial

theorem urlAt_other (rest : List Char) : (urlAt rest).1.All (·.isOther = true) := by
  unfold urlAt
  simp only
  split <;> simp [All, Atom.isOther]

theorem quotedAt_other (quote : Char) (rest : List Char) :
    (quotedAt quote rest).1.All (·.isOther = true) := by
  unfold quotedAt
  simp only
  split <;> simp [All, Atom.isOther]

theorem symbolAt_other (c : Char) (rest : List Char) :
    (symbolAt c rest).1.All (·.isOther = true) := by
  unfold symbolAt
  split
  case h_9 => exact quotedAt_other _ rest
  case h_10 => exact quotedAt_other _ rest
  all_goals first
    | exact trivial
    | (repeat' split) <;> simp [All, Atom.isOther, literal]

variable {cs : List Char} {R : Atom → Prop} (h : Grants cs R)

include h

theorem identAt_all (hstarts : Read.startsIdent cs = true) : (identAt cs).1.All R := by
  unfold identAt
  simp only
  split
  · split
    · exact (urlAt_other _).mono h.other
    · exact trivial
  · exact List.forall_mem_singleton.mpr (h.ident hstarts)

theorem numeralAt_all (p : Read.NumeralParts) (rest : List Char) :
    (numeralAt p.numeral rest).1.All R := by
  unfold numeralAt
  split
  · exact List.forall_mem_singleton.mpr (h.dimension p _)
  · split
    · exact List.forall_mem_singleton.mpr (h.percentage p)
    · exact List.forall_mem_singleton.mpr (h.number p)

end Lexeme

theorem lexeme_all {cs : List Char} {R : Atom → Prop} (h : Lexeme.Grants cs R) :
    (lexeme cs).1.All R := by
  unfold lexeme
  split
  · intro a ha
    cases ha
  · split
    · exact List.forall_mem_singleton.mpr (h.other _ rfl)
    · split
      · exact List.forall_mem_singleton.mpr (h.other _ rfl)
      · split
        · exact List.forall_mem_singleton.mpr (h.other _ rfl)
        · split
          · rename_i hstarts
            exact Lexeme.identAt_all h hstarts
          · split
            · exact Lexeme.numeralAt_all h _ _
            · exact (Lexeme.symbolAt_other _ _).mono h.other

theorem lexeme_read (cs : List Char) : (lexeme cs).1.All Atom.IsRead := by
  refine lexeme_all ⟨?_, fun p => ⟨p, rfl⟩, fun p => ⟨p, rfl⟩, fun p _ => ⟨p, rfl⟩, ?_⟩
  · intro hstarts heq
    exact Read.name_ne_nil hstarts (by simpa using congrArg String.toList heq)
  · intro a ha
    cases a with
    | ident v => cases ha
    | number n => cases ha
    | percentage n => cases ha
    | dimension n unit => cases ha
    | _ => exact trivial

theorem scan_read (p : Position) (cs : List Char) : ∀ l ∈ scan p cs, l.2.All Atom.IsRead := by
  fun_induction scan p cs with
  | case1 p => nofun
  | case2 p c rest r taken ih => exact List.forall_mem_cons.mpr ⟨lexeme_read _, ih⟩

/-! ## Folding brackets -/

section Nest

variable {R : Atom → Prop}

theorem Token.forall_atomsAll_append {ts us : List Token} :
    (∀ a ∈ atomsAll (ts ++ us), R a) ↔ (∀ a ∈ atomsAll ts, R a) ∧ ∀ a ∈ atomsAll us, R a := by
  simp only [Token.mem_atomsAll, List.mem_append]
  grind

theorem Token.forall_atomsAll_reverse {ts : List Token} :
    (∀ a ∈ atomsAll ts.reverse, R a) ↔ ∀ a ∈ atomsAll ts, R a := by
  simp only [Token.mem_atomsAll, List.mem_reverse]

theorem Token.forall_atomsAll_map {as : List Atom} (h : ∀ a ∈ as, R a) (p : Position) :
    ∀ a ∈ atomsAll (as.map (.atom p)), R a := by
  intro a ha
  obtain ⟨t, ht, hat⟩ := Token.mem_atomsAll.mp ha
  obtain ⟨b, hb, rfl⟩ := List.mem_map.mp ht
  rw [List.mem_singleton.mp hat]
  exact h b hb

theorem OpenList.atoms_token (o : OpenList) (content : List Token) :
    (o.token content).atoms = Token.atomsAll content := by
  unfold OpenList.token
  split <;> rfl

theorem OpenList.forall_close {o : OpenList} {content : List Token}
    (hbefore : ∀ a ∈ Token.atomsAll o.before, R a) (hcontent : ∀ a ∈ Token.atomsAll content, R a) :
    ∀ a ∈ Token.atomsAll (o.close content), R a := by
  rw [OpenList.close, Token.atomsAll, OpenList.atoms_token, List.forall_mem_append]
  exact ⟨Token.forall_atomsAll_reverse.mpr hcontent, hbefore⟩

/-- All leaves of component values come from their lexemes, but for the faults of a bracket that
closes nothing. -/
theorem nest_all (hstray : ∀ b, R (.error (.stray b))) {outer : List OpenList} {done : List Token}
    {ls : List (Position × Lexeme)} (hls : ∀ l ∈ ls, l.2.All R)
    (hdone : ∀ a ∈ Token.atomsAll done, R a)
    (houter : ∀ o ∈ outer, ∀ a ∈ Token.atomsAll o.before, R a) :
    ∀ a ∈ Token.atomsAll (nest outer done ls), R a := by
  fun_induction nest outer done ls with
  | case1 outer done =>
    rw [Token.forall_atomsAll_reverse]
    refine List.foldlRecOn (motive := fun ts => ∀ a ∈ Token.atomsAll ts, R a) _ _ hdone ?_
    intro ts hts o ho
    exact OpenList.forall_close (houter o ho) hts
  | case2 outer done p as rest ih =>
    obtain ⟨has, hrest⟩ := List.forall_mem_cons.mp hls
    refine ih hrest (Token.forall_atomsAll_append.mpr ⟨?_, hdone⟩) houter
    exact Token.forall_atomsAll_reverse.mpr (Token.forall_atomsAll_map has p)
  | case3 outer done p o rest ih =>
    exact ih (List.forall_mem_cons.mp hls).2 nofun (List.forall_mem_cons.mpr ⟨hdone, houter⟩)
  | case4 done p b rest ih =>
    exact ih (List.forall_mem_cons.mp hls).2 (List.forall_mem_cons.mpr ⟨hstray b, hdone⟩) houter
  | case5 o outer done p rest ih =>
    obtain ⟨ho, houter⟩ := List.forall_mem_cons.mp houter
    exact ih (List.forall_mem_cons.mp hls).2 (OpenList.forall_close ho hdone) houter
  | case6 o outer done p b rest h ih =>
    exact ih (List.forall_mem_cons.mp hls).2 (List.forall_mem_cons.mpr ⟨hstray b, hdone⟩) houter

end Nest

theorem Token.ofText_read (s : String) : ∀ a ∈ atomsAll (ofText s), a.IsRead := by
  refine nest_all (fun b => trivial) ?_ nofun nofun
  intro l hl
  exact scan_read _ _ l (List.mem_filter.mp hl).1

end StyleBundle
