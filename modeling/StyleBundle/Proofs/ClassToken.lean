import StyleBundle.Proofs.Identifier
import StyleBundle.Proofs.Positions
import StyleBundle.Proofs.Remainder

/-!
# StyleBundle.Proofs.ClassToken

A class selector as component values. The text of an identifier begins like one, whatever comes
after it, and normalising leaves it alone; so it is read as a single identifier.

* `Read.BeginsIdent`: a text that is read as an identifier; `Write.beginsIdent_identifier`: the text
  of a name is one.
* `Token.ofChars_class`: the component values of a class selector with something after it.
* `Token.isIdentValue_iff`: the values that identifiers can have.
-/

namespace StyleBundle

/-! ## Where an identifier begins -/

namespace Read

theorem startsIdent_other {c : Char} (hdash : c ≠ '-') (hbackslash : c ≠ '\\') (rest : List Char) :
    startsIdent (c :: rest) = isNameStart c := by
  unfold startsIdent
  split <;> simp_all

theorem isNameStart_plain {c : Char} (h : isNameStart c = true) :
    isSpace c = false ∧ c.isDigit = false ∧ c ≠ '-' ∧ c ≠ '\\' := by
  by_cases hc : c.toNat < 128
  · revert h
    refine Text.forall_ascii c hc ?_
    decide +kernel
  · have hne {d : Char} (hd : d.toNat < 128) : c ≠ d := by
      rintro rfl
      exact hc hd
    have hdigit : c.isDigit ≠ true := fun h => hc (Write.coded_lt (by rw [h, Bool.or_true]))
    refine ⟨?_, by simpa using hdigit, hne (by decide), hne (by decide)⟩
    simp [isSpace, hne (show ' '.toNat < 128 by decide), hne (show '\n'.toNat < 128 by decide),
      hne (show '\t'.toNat < 128 by decide)]

theorem startsIdent_head {c : Char} {rest : List Char} (h : startsIdent (c :: rest) = true) :
    isSpace c = false ∧ c.isDigit = false := by
  by_cases hdash : c = '-'
  · subst hdash
    decide
  · by_cases hbackslash : c = '\\'
    · subst hbackslash
      decide
    · rw [startsIdent_other hdash hbackslash] at h
      obtain ⟨hspace, hdigit, -, -⟩ := isNameStart_plain h
      exact ⟨hspace, hdigit⟩

theorem escapes_of_append {front rest : List Char} (h : escapes (front ++ rest) = true) :
    escapes front = true := by
  cases front with
  | nil => rfl
  | cons c front =>
    by_cases hline : c = '\n'
    · subst hline
      cases h
    · simp [escapes, startsLine, hline]

/-- The front of a text that begins with an identifier begins with one too, unless it breaks off
before it is clear what begins there. -/
theorem startsIdent_of_append {front rest : List Char} (h : startsIdent (front ++ rest) = true) :
    front = [] ∨ front = ['-'] ∨ startsIdent front = true := by
  cases front with
  | nil => exact .inl rfl
  | cons c front =>
    refine .inr ?_
    by_cases hdash : c = '-'
    · subst hdash
      cases front with
      | nil => exact .inl rfl
      | cons d more =>
        refine .inr ?_
        simp only [List.cons_append, startsIdent, Bool.or_eq_true, Bool.and_eq_true] at h ⊢
        exact h.imp_right fun hd => ⟨hd.1, escapes_of_append hd.2⟩
    · refine .inr ?_
      by_cases hbackslash : c = '\\'
      · subst hbackslash
        exact escapes_of_append h
      · rw [List.cons_append, startsIdent_other hdash hbackslash] at h
        rw [startsIdent_other hdash hbackslash, h]

/-- A text that is read as an identifier, or as what begins with one. -/
structure BeginsIdent (cs : List Char) : Prop where
  ident : startsIdent cs = true
  range : startsRange cs = false
  arrow : ['-', '-', '>'].isPrefixOf cs = false

theorem BeginsIdent.of_append {front rest : List Char} (h : BeginsIdent (front ++ rest))
    (hident : startsIdent front = true) : BeginsIdent front where
  ident := hident
  range := by
    rw [← Bool.not_eq_true]
    intro hrange
    have hwhole : startsRange (front ++ rest) = true := by
      unfold startsRange at hrange
      split at hrange
      · exact hrange
      · cases hrange
    rw [h.range] at hwhole
    cases hwhole
  arrow := by
    rw [← Bool.not_eq_true, List.isPrefixOf_iff_prefix]
    intro harrow
    have hwhole := List.isPrefixOf_iff_prefix.mpr (harrow.trans (List.prefix_append front rest))
    rw [h.arrow] at hwhole
    cases hwhole

theorem BeginsIdent.lexeme {cs : List Char} (h : BeginsIdent cs) :
    lexeme cs = Lexeme.identAt cs := by
  cases cs with
  | nil => cases h.ident
  | cons c rest =>
    have hspace := (startsIdent_head h.ident).1
    simp only [StyleBundle.lexeme, hspace, h.range, h.arrow, h.ident, Bool.false_eq_true, if_false,
      if_true]

theorem identAt_name {cs value rest : List Char} (h : name cs = (value, rest))
    (hrest : '(' ∉ rest.head?) :
    Lexeme.identAt cs = (.atoms [.ident (String.ofList value)], rest) := by
  unfold Lexeme.identAt
  simp only [h]
  split
  · exact absurd rfl hrest
  · rfl

end Read

namespace Write

theorem startsIdent_firstChar (c : Char) (rest : List Char) :
    Read.startsIdent (firstChar c ++ rest) = true ∧
      Read.startsIdent ('-' :: (firstChar c ++ rest)) = true := by
  have hbackslash {more : List Char} (h : Read.escapes more = true) :
      Read.startsIdent ('\\' :: more) = true ∧ Read.startsIdent ('-' :: '\\' :: more) = true := by
    simp [Read.startsIdent, h]
  unfold firstChar
  split
  · rename_i hstart
    obtain ⟨-, -, hdash, hback⟩ := Read.isNameStart_plain hstart
    constructor
    · rw [List.singleton_append, Read.startsIdent_other hdash hback, hstart]
    · simp [Read.startsIdent, hstart]
  · split
    · rename_i hcoded
      have hescapes := escapes_hexNumber hcoded (' ' :: rest)
      have htext : codeEscape c ++ rest = '\\' :: (hexNumber c.toNat ++ ' ' :: rest) := by
        simp [codeEscape_eq]
      rw [htext]
      exact hbackslash hescapes
    · rename_i hcoded
      rw [Bool.not_eq_true, Bool.or_eq_false_iff] at hcoded
      exact hbackslash (escapes_cons hcoded.1 rest)

theorem startsIdent_identifier {cs : List Char} (h : cs ≠ []) (rest : List Char) :
    Read.startsIdent (identifier cs ++ rest) = true := by
  unfold identifier
  split
  · exact absurd rfl h
  · rfl
  · rfl
  · rename_i c more _
    have hfirst := (startsIdent_firstChar c (name more ++ rest)).2
    rwa [← List.append_assoc] at hfirst
  · rename_i c more _ _ _
    have hfirst := (startsIdent_firstChar c (name more ++ rest)).1
    rwa [← List.append_assoc] at hfirst

section Begins

variable {text name rest : List Char} (hrest : ∀ d ∈ rest.head?, d = '\x7b')

include hrest

/-- The next character of a written name with a bracket or nothing after it: an escape, the bracket,
or a character that stands for itself, with the rest of the name after it. -/
theorem NameForm.next (h : NameForm text name) {d : Char} {more : List Char}
    (heq : text ++ rest = d :: more) :
    d = '\\' ∨ d = '\x7b' ∨
      Read.isNameChar d = true ∧ ∃ text' name', NameForm text' name' ∧ text' ++ rest = more := by
  cases h with
  | nil =>
    rw [List.nil_append] at heq
    exact .inr (.inl (hrest d (by rw [heq]; rfl)))
  | @cons form text name c hform htext =>
    rw [List.append_assoc] at heq
    cases hform with
    | plain hname =>
      obtain ⟨rfl, htail⟩ := List.cons.inj heq
      exact .inr (.inr ⟨hname, text, name, htext, htail⟩)
    | code hcoded => exact .inl (List.cons.inj heq).1.symm
    | escaped hline hesc => exact .inl (List.cons.inj heq).1.symm

theorem NameForm.startsRange (h : NameForm text name) :
    Read.startsRange (text ++ rest) = false := by
  rw [← Bool.not_eq_true]
  intro hrange
  unfold Read.startsRange at hrange
  split at hrange
  · rename_i u c more heq
    obtain hu | hu | ⟨-, text', name', htext', htail⟩ := h.next hrest heq
    · subst hu
      cases hrange
    · subst hu
      cases hrange
    · obtain hplus | hplus | ⟨hplus, -⟩ := htext'.next hrest htail
      · cases hplus
      · cases hplus
      · cases hplus
  · cases hrange

theorem NameForm.noArrow (h : NameForm text name) :
    ['-', '-', '>'].isPrefixOf (text ++ rest) = false := by
  rw [← Bool.not_eq_true, List.isPrefixOf_iff_prefix]
  rintro ⟨more, heq⟩
  obtain hd | hd | ⟨-, text', name', htext', htail⟩ := h.next hrest heq.symm
  · cases hd
  · cases hd
  · obtain hd | hd | ⟨-, text'', name'', htext'', htail'⟩ := htext'.next hrest htail
    · cases hd
    · cases hd
    · obtain hd | hd | ⟨hd, -⟩ := htext''.next hrest htail'
      · cases hd
      · cases hd
      · cases hd

theorem beginsIdent_identifier {cs : List Char} (h : cs ≠ []) :
    Read.BeginsIdent (identifier cs ++ rest) where
  ident := startsIdent_identifier h rest
  range := (identifier_form cs).startsRange hrest
  arrow := (identifier_form cs).noArrow hrest

end Begins

end Write

/-- Characters that normalising a text leaves alone. -/
def Read.IsSettled (c : Char) : Prop := c.toNat ≠ 0 ∧ c ≠ '\r' ∧ c ≠ '\x0c'

instance (c : Char) : Decidable (Read.IsSettled c) := inferInstanceAs (Decidable (_ ∧ _))

theorem Read.normalise_append {front : List Char} (h : ∀ c ∈ front, IsSettled c)
    (rest : List Char) : normalise (front ++ rest) = front ++ normalise rest := by
  induction front with
  | nil => rfl
  | cons c front ih =>
    obtain ⟨⟨hnull, hreturn, hfeed⟩, hfront⟩ := List.forall_mem_cons.mp h
    rw [List.cons_append, normalise]
    · simp [hnull, hreturn, hfeed, ih hfront]
    · rintro more rfl
      exact absurd rfl hreturn

namespace Write

theorem CharForm.settled {form : List Char} {c : Char} (h : CharForm form c)
    (hc : c.toNat ≠ 0) : ∀ d ∈ form, Read.IsSettled d := by
  have hbackslash : Read.IsSettled '\\' := by decide
  have hline (h : endsLine c = false) : Read.IsSettled c := by
    simp only [endsLine, Bool.or_eq_false_iff, beq_eq_false_iff_ne] at h
    exact ⟨hc, h.1.2, h.2⟩
  cases h with
  | plain hname =>
    exact List.forall_mem_singleton.mpr (hline (endsLine_of_isNameChar hname))
  | code hcoded =>
    rw [codeEscape_eq]
    refine List.forall_mem_cons.mpr ⟨hbackslash, List.forall_mem_append.mpr ⟨?_, ?_⟩⟩
    · intro d hd
      have hhex := ((hexNumber_coded hcoded).1 d hd).1
      refine ⟨?_, ?_, ?_⟩
      · intro hnull
        rw [← Char.ofNat_toNat d, hnull] at hhex
        cases hhex
      · rintro rfl
        cases hhex
      · rintro rfl
        cases hhex
    · exact List.forall_mem_singleton.mpr (by decide)
  | escaped h _ =>
    exact List.forall_mem_cons.mpr ⟨hbackslash, List.forall_mem_singleton.mpr (hline h)⟩

theorem NameForm.settled {text name : List Char} (h : NameForm text name)
    (hname : ∀ c ∈ name, c.toNat ≠ 0) : ∀ c ∈ text, Read.IsSettled c := by
  induction h with
  | nil => nofun
  | cons hform _ ih =>
    obtain ⟨hc, hname⟩ := List.forall_mem_cons.mp hname
    exact List.forall_mem_append.mpr ⟨hform.settled hc, ih hname⟩

end Write

/-! ## The component values of a class selector -/

theorem lexeme_dot {rest : List Char} (h : ∀ d ∈ rest.head?, d.isDigit = false) :
    lexeme ('.' :: rest) = (.literal ".", rest) := by
  have hdigits : Read.digits rest = [] := by
    cases rest with
    | nil => rfl
    | cons d more => simp [Read.digits, h d rfl]
  have hident : Read.startsIdent ('.' :: rest) = false :=
    Read.startsIdent_other (by decide) (by decide) rest
  have hrange : Read.startsRange ('.' :: rest) = false := by
    unfold Read.startsRange
    split
    · rename_i heq
      cases heq
      rfl
    · rfl
  have hnumeral : Read.numeralParts? ('.' :: rest) = none := by
    have hfraction : Read.fraction ('.' :: rest) = none := by simp [Read.fraction, hdigits]
    have hwhole : Read.digits ('.' :: rest) = [] := rfl
    have hsign : Read.sign ('.' :: rest) = [] := rfl
    simp only [Read.numeralParts?, hsign, List.length_nil, List.drop_zero, hwhole, hfraction,
      List.isEmpty_nil, if_true]
  have hsymbol : Lexeme.symbolAt '.' rest = (.literal ".", rest) := by
    unfold Lexeme.symbolAt
    split
    case h_14 => split <;> rfl
    all_goals contradiction
  have hspace : Read.isSpace '.' = false := by decide
  have harrow : ['-', '-', '>'].isPrefixOf ('.' :: rest) = false := rfl
  simp only [lexeme, hspace, hrange, harrow, hident, hnumeral, hsymbol, Bool.false_eq_true,
    if_false]

theorem scan_of_lexeme {cs rest : List Char} {l : Lexeme} (hcs : cs ≠ [])
    (h : lexeme cs = (l, rest)) (p : Position) : ∃ q, scan p cs = (p, l) :: scan q rest := by
  cases cs with
  | nil => exact absurd rfl hcs
  | cons c cs =>
    rw [scan]
    simp only [h]
    exact ⟨_, rfl⟩

namespace Token

/-- A class selector is read as a dot, an identifier, and what its rest is read as. -/
theorem ofChars_class {front rest value : List Char} (hfront : ∀ c ∈ front, Read.IsSettled c)
    (hbegins : Read.BeginsIdent (front ++ Read.normalise rest))
    (hvalue : Read.name (front ++ Read.normalise rest) = (value, Read.normalise rest))
    (hrest : '(' ∉ (Read.normalise rest).head?) :
    ∃ p q r, ofChars ('.' :: (front ++ rest)) =
      .atom p (.literal ".") :: .atom q (.ident (String.ofList value)) ::
        nest [] [] ((scan r (Read.normalise rest)).filter (!·.2.isComment)) := by
  have hdot : ∀ c ∈ '.' :: front, Read.IsSettled c :=
    List.forall_mem_cons.mpr ⟨by decide, hfront⟩
  have htext : Read.normalise ('.' :: (front ++ rest)) = '.' :: (front ++ Read.normalise rest) :=
    Read.normalise_append hdot rest
  have hne : front ++ Read.normalise rest ≠ [] := by
    intro hnil
    have hident := hbegins.ident
    rw [hnil] at hident
    cases hident
  have hdigit : ∀ d ∈ (front ++ Read.normalise rest).head?, d.isDigit = false := by
    intro d hd
    obtain ⟨more, hmore⟩ := List.head?_eq_some_iff.mp hd
    have hident := hbegins.ident
    rw [hmore] at hident
    exact (Read.startsIdent_head hident).2
  have hname := hbegins.lexeme.trans (Read.identAt_name hvalue hrest)
  obtain ⟨q, hq⟩ := scan_of_lexeme (List.cons_ne_nil _ _) (lexeme_dot hdigit) .start
  obtain ⟨r, hr⟩ := scan_of_lexeme hne hname q
  refine ⟨.start, q, r, ?_⟩
  unfold ofChars
  rw [htext, hq, hr]
  exact nest_append [.atom q (.ident (String.ofList value)), .atom .start (.literal ".")] _

theorem ne_null_of_not_mem {cs : List Char} (h : '\x00' ∉ cs) : ∀ c ∈ cs, c.toNat ≠ 0 := by
  intro c hc hzero
  have hnull : c = '\x00' := by rw [← Char.ofNat_toNat c, hzero]
  exact h (hnull ▸ hc)

/-- A written name with a block or nothing after it is read as that name. -/
theorem ofChars_written {v : String} (hv : v.toList ≠ []) (hnull : '\x00' ∉ v.toList)
    {rest : List Char} (hrest : ∀ d ∈ (Read.normalise rest).head?, d = '\x7b') :
    ∃ p q r, ofChars ('.' :: (Write.identifier v.toList ++ rest)) =
      .atom p (.literal ".") :: .atom q (.ident v) ::
        nest [] [] ((scan r (Read.normalise rest)).filter (!·.2.isComment)) := by
  have hform := Write.identifier_form v.toList
  have hsettled := hform.settled (ne_null_of_not_mem hnull)
  have hbegins := Write.beginsIdent_identifier hrest hv
  have hend : Read.name (Read.normalise rest) = ([], Read.normalise rest) := by
    cases hnormal : Read.normalise rest with
    | nil => rw [Read.name]
    | cons d more =>
      have hcurly : Read.isNameChar '\x7b' = false := by decide
      have hd : d = '\x7b' := hrest d (by rw [hnormal]; rfl)
      simp [hd, Read.name, hcurly]
  have hvalue : Read.name (Write.identifier v.toList ++ Read.normalise rest) =
      (v.toList, Read.normalise rest) := by
    rw [hform.read, hend, List.append_nil]
  have hround : '(' ∉ (Read.normalise rest).head? :=
    fun h => absurd (hrest _ h) (by decide)
  obtain ⟨p, q, r, htokens⟩ := ofChars_class hsettled hbegins hvalue hround
  rw [String.ofList_toList] at htokens
  exact ⟨p, q, r, htokens⟩

/-- A text that some identifier has as its value. -/
def IsIdentValue (v : String) : Prop := ∃ source p, .atom p (.ident v) ∈ ofText source

/-- Any text can be written as an identifier, unless it is empty or has a null in it. -/
theorem isIdentValue_iff {v : String} : IsIdentValue v ↔ v.toList ≠ [] ∧ '\x00' ∉ v.toList := by
  constructor
  · rintro ⟨source, p, h⟩
    obtain ⟨hne, hnull⟩ := ofText_ident h
    exact ⟨by simpa using hne, fun hmem => hnull _ hmem rfl⟩
  · rintro ⟨hne, hnull⟩
    have hrest : ∀ d ∈ (Read.normalise []).head?, d = '\x7b' := by simp [Read.normalise]
    obtain ⟨p, q, r, htokens⟩ := ofChars_written hne hnull hrest
    refine ⟨String.ofList ('.' :: (Write.identifier v.toList ++ [])), q, ?_⟩
    rw [ofText, String.toList_ofList, htokens]
    exact List.mem_cons_of_mem _ List.mem_cons_self

end Token

end StyleBundle
