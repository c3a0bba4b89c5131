import StyleBundle.Proofs.Lexing
import StyleBundle.Token.Write

/-!
# StyleBundle.Proofs.Identifier

Names that are written and read again. A name is written character by character, each in a form of
its own (`Write.CharForm`), and what is written is read as the name, whatever follows
(`NameForm.read`).

Blanks at the end of the written text may be lost before it is read. Of a form by code this takes
only the blank that ends it, of an escaped blank the character behind the backslash, and of a blank
that stands for itself the character; `Write.worn` is the name that is read then (`read_trimmed`).
-/

namespace StyleBundle

/-- What can be checked code by code holds of a character below 128. -/
@[elab_as_elim]
theorem Text.forall_ascii {motive : Char → Prop} (c : Char) (hc : c.toNat < 128)
    (h : ∀ n < 128, motive (Char.ofNat n)) : motive c := by
  have hchar := h c.toNat hc
  rwa [Char.ofNat_toNat] at hchar

namespace Write

/-- How a character of a name may be written. -/
inductive CharForm : List Char → Char → Prop
  | plain {c : Char} (h : Read.isNameChar c = true) : CharForm [c] c
  | code {c : Char} (h : (endsLine c || c.isDigit) = true) : CharForm (codeEscape c) c
  | escaped {c : Char} (hline : endsLine c = false) (h : Read.isNameChar c = false ∨ c = '-') :
      CharForm ['\\', c] c

/-- How a name may be written: its characters one after the other. -/
inductive NameForm : List Char → List Char → Prop
  | nil : NameForm [] []
  | cons {form text name : List Char} {c : Char} (h : CharForm form c) (hs : NameForm text name) :
      NameForm (form ++ text) (c :: name)

theorem nameChar_form (c : Char) : CharForm (nameChar c) c := by
  unfold nameChar
  split
  · rename_i h
    exact .plain h
  · rename_i hname
    split
    · rename_i hline
      exact .code (by rw [hline, Bool.true_or])
    · rename_i hline
      exact .escaped (by simpa using hline) (.inl (by simpa using hname))

theorem name_form (cs : List Char) : NameForm (name cs) cs := by
  induction cs with
  | nil => exact .nil
  | cons c rest ih => exact .cons (nameChar_form c) ih

theorem firstChar_form (c : Char) : CharForm (firstChar c) c := by
  unfold firstChar
  split
  · rename_i h
    exact .plain (by simp [Read.isNameChar, h])
  · rename_i hstart
    split
    · rename_i h
      exact .code h
    · rename_i h
      rw [Bool.not_eq_true, Bool.or_eq_false_iff] at h
      refine .escaped h.1 ?_
      by_cases hdash : c = '-'
      · exact .inr hdash
      · exact .inl (by simp [Read.isNameChar, hstart, h.2, hdash])

theorem identifier_form (cs : List Char) : NameForm (identifier cs) cs := by
  have hdash : CharForm ['-'] '-' := .plain (by decide)
  unfold identifier
  split
  · exact .nil
  · exact .cons (.escaped (by decide) (.inr rfl)) .nil
  · exact .cons hdash (.cons hdash (name_form _))
  · rename_i c rest _
    have hrest : NameForm (firstChar c ++ name rest) (c :: rest) :=
      .cons (firstChar_form c) (name_form rest)
    have hwhole := NameForm.cons hdash hrest
    exact hwhole
  · exact .cons (firstChar_form _) (name_form _)

end Write

/-! ## Reading -/

namespace Read

theorem isNameChar_beyond {c : Char} (h : ¬ c.toNat < 128) : isNameChar c = true := by
  have hbeyond : 0x7f < c.toNat := by omega
  simp [isNameChar, isNameStart, hbeyond]

theorem isHex_of_not_isNameChar {c : Char} (h : isNameChar c = false) : isHex c = false := by
  by_cases hc : c.toNat < 128
  · revert h
    refine Text.forall_ascii c hc ?_
    decide +kernel
  · rw [isNameChar_beyond hc] at h
    cases h

/-- A run of hexadecimal digits ends where the digits end. -/
theorem hexRun_append {digits rest : List Char} (hdigits : ∀ d ∈ digits, isHex d = true)
    (hlength : digits.length ≤ 6) (hrest : ∀ d ∈ rest.head?, isHex d = false) :
    hexRun (digits ++ rest) = digits := by
  have hmore : (rest.take (6 - digits.length)).takeWhile isHex = [] := by
    cases rest with
    | nil => simp
    | cons d rest =>
      have hd : isHex d = false := hrest d rfl
      cases 6 - digits.length with
      | zero => rfl
      | succ n => simp [hd]
  rw [hexRun, List.take_append, List.take_of_length_le hlength,
    List.takeWhile_append_of_pos hdigits, hmore, List.append_nil]

/-- An escape by code, with or without the blank that ends it. -/
theorem escape_code {digits : List Char} (hdigits : ∀ d ∈ digits, isHex d = true)
    (hne : digits ≠ []) (hlength : digits.length ≤ 6) (rest : List Char) :
    escape (digits ++ ' ' :: rest) = (charOfCode (hexValue digits), rest) ∧
      escape digits = (charOfCode (hexValue digits), []) := by
  have hblank : hexRun (digits ++ ' ' :: rest) = digits := by
    refine hexRun_append hdigits hlength ?_
    rintro d ⟨⟩
    decide
  have hend : hexRun digits = digits := by
    have hrun := @hexRun_append digits [] hdigits hlength nofun
    rwa [List.append_nil] at hrun
  have hempty : digits.isEmpty = false := by simpa using hne
  constructor
  · unfold escape
    simp only [hblank, hempty, Bool.false_eq_true, if_false, List.drop_left]
    rfl
  · unfold escape
    simp only [hend, hempty, Bool.false_eq_true, if_false, List.drop_length]
    rfl

theorem name_plain {c : Char} (h : isNameChar c = true) (rest : List Char) :
    name (c :: rest) = (c :: (name rest).1, (name rest).2) := by
  rw [name, if_pos h]

theorem name_escape {rest : List Char} (h : escapes rest = true) :
    name ('\\' :: rest) =
      ((escape rest).1 :: (name (escape rest).2).1, (name (escape rest).2).2) := by
  have hbackslash : isNameChar '\\' = false := by decide
  rw [name, hbackslash, h]
  rfl

end Read

namespace Write

theorem coded_lt {c : Char} (h : (endsLine c || c.isDigit) = true) : c.toNat < 128 := by
  simp only [endsLine, Bool.or_eq_true, beq_iff_eq] at h
  rcases h with ((rfl | rfl) | rfl) | hdigit
  · decide
  · decide
  · decide
  · simp only [Char.isDigit, Bool.and_eq_true, decide_eq_true_eq] at hdigit
    have hle : c.toNat ≤ 57 := hdigit.2
    omega

/-- The digits of the code are few, they are no blanks, and they are read as the character. -/
theorem hexNumber_coded {c : Char} (h : (endsLine c || c.isDigit) = true) :
    (∀ d ∈ hexNumber c.toNat, Read.isHex d = true ∧ Text.isBlank d = false) ∧
      hexNumber c.toNat ≠ [] ∧ (hexNumber c.toNat).length ≤ 6 ∧
      Read.charOfCode (Read.hexValue (hexNumber c.toNat)) = c := by
  have hc := coded_lt h
  have hall : (hexNumber c.toNat).all (fun d => Read.isHex d && !Text.isBlank d) = true ∧
      hexNumber c.toNat ≠ [] ∧ (hexNumber c.toNat).length ≤ 6 ∧
      Read.charOfCode (Read.hexValue (hexNumber c.toNat)) = c := by
    revert h
    refine Text.forall_ascii c hc ?_
    decide +kernel
  refine ⟨fun d hd => ?_, hall.2⟩
  simpa using List.all_eq_true.mp hall.1 d hd

theorem codeEscape_eq (c : Char) : codeEscape c = '\\' :: (hexNumber c.toNat ++ [' ']) := rfl

theorem escapes_hexNumber {c : Char} (h : (endsLine c || c.isDigit) = true) (rest : List Char) :
    Read.escapes (hexNumber c.toNat ++ rest) = true := by
  obtain ⟨hdigits, hne, -, -⟩ := hexNumber_coded h
  cases hcode : hexNumber c.toNat with
  | nil => exact absurd hcode hne
  | cons d ds =>
    have hd : Read.isHex d = true := (hdigits d (by rw [hcode]; exact List.mem_cons_self)).1
    have hline : d ≠ '\n' := by
      rintro rfl
      cases hd
    simp [Read.escapes, Read.startsLine, hline]

theorem escapes_cons {c : Char} (h : endsLine c = false) (rest : List Char) :
    Read.escapes (c :: rest) = true := by
  have hne : c ≠ '\n' := by
    rintro rfl
    cases h
  simp [Read.escapes, Read.startsLine, hne]

/-- A character that is written is read, whatever follows. -/
theorem CharForm.read {form : List Char} {c : Char} (h : CharForm form c) (rest : List Char) :
    Read.name (form ++ rest) = (c :: (Read.name rest).1, (Read.name rest).2) := by
  cases h with
  | plain h => exact Read.name_plain h rest
  | code h =>
    obtain ⟨hdigits, hne, hlength, hread⟩ := hexNumber_coded h
    have hescape := (Read.escape_code (fun d hd => (hdigits d hd).1) hne hlength rest).1
    have htext : codeEscape c ++ rest = '\\' :: (hexNumber c.toNat ++ ' ' :: rest) := by
      simp [codeEscape_eq]
    rw [htext, Read.name_escape (escapes_hexNumber h _), hescape, hread]
  | escaped hline h =>
    have hhex : Read.isHex c = false := by
      rcases h with h | rfl
      · exact Read.isHex_of_not_isNameChar h
      · decide
    have hescape : Read.escape (c :: rest) = (c, rest) := by
      simp [Read.escape, Read.hexRun, hhex]
    have htext : ['\\', c] ++ rest = '\\' :: c :: rest := rfl
    rw [htext, Read.name_escape (escapes_cons hline rest), hescape]

theorem NameForm.read {text name : List Char} (h : NameForm text name) (rest : List Char) :
    Read.name (text ++ rest) = (name ++ (Read.name rest).1, (Read.name rest).2) := by
  induction h with
  | nil => rfl
  | cons hform _ ih => rw [List.append_assoc, hform.read, ih, List.cons_append]

/-! ## Reading after blanks are lost -/

/-- What is left of a name, last character first, when its text loses the blanks at its end. -/
def wornEnd : List Char → List Char
  | [] => []
  | c :: before =>
    if !Text.isBlank c || endsLine c then c :: before
    else if Read.isNameChar c then wornEnd before
    else Read.replacement :: before

def worn (name : List Char) : List Char := (wornEnd name.reverse).reverse

theorem worn_concat (name : List Char) (c : Char) :
    worn (name ++ [c]) =
      if !Text.isBlank c || endsLine c then name ++ [c]
      else if Read.isNameChar c then worn name
      else name ++ [Read.replacement] := by
  simp only [worn, List.reverse_append, List.reverse_singleton, List.singleton_append, wornEnd]
  split
  · simp
  · split
    · rfl
    · simp

theorem NameForm.concat_cases {text name : List Char} {c : Char} (h : NameForm text (name ++ [c])) :
    ∃ before form, text = before ++ form ∧ NameForm before name ∧ CharForm form c := by
  induction name generalizing text with
  | nil =>
    cases h with
    | @cons form _ _ _ hform hrest =>
      cases hrest
      exact ⟨[], form, by simp, .nil, hform⟩
  | cons d name ih =>
    cases h with
    | @cons first _ _ _ hfirst hrest =>
      obtain ⟨before, form, rfl, hbefore, hform⟩ := ih hrest
      exact ⟨first ++ before, form, by simp, .cons hfirst hbefore, hform⟩

theorem endsLine_of_isNameChar {c : Char} (h : Read.isNameChar c = true) : endsLine c = false := by
  by_cases hc : c.toNat < 128
  · revert h
    refine Text.forall_ascii c hc ?_
    decide +kernel
  · by_contra hline
    have hcoded : (endsLine c || c.isDigit) = true := by
      rw [Bool.not_eq_false] at hline
      rw [hline, Bool.true_or]
    exact hc (coded_lt hcoded)

theorem CharForm.read_alone {form : List Char} {c : Char} (h : CharForm form c) :
    Read.name form = ([c], []) := by
  have hread := h.read []
  rwa [List.append_nil, Read.name] at hread

theorem coded_kept {c : Char} (h : (endsLine c || c.isDigit) = true) :
    (!Text.isBlank c || endsLine c) = true := by
  have hc := coded_lt h
  revert h
  refine Text.forall_ascii c hc ?_
  decide +kernel

/-- Of a form by code the blank that ends it is lost, the digits are not. -/
theorem rdropWhile_codeEscape {c : Char} (h : (endsLine c || c.isDigit) = true)
    (before : List Char) :
    (before ++ codeEscape c).rdropWhile Text.isBlank = before ++ '\\' :: hexNumber c.toNat := by
  obtain ⟨hdigits, hne, -, -⟩ := hexNumber_coded h
  have htext : before ++ codeEscape c = (before ++ '\\' :: hexNumber c.toNat) ++ [' '] := by
    simp [codeEscape_eq]
  rw [htext, List.rdropWhile_concat_pos _ _ _ (by decide), List.rdropWhile_eq_self_iff]
  intro hl
  rw [List.getLast_append_of_ne_nil _ (List.cons_ne_nil _ _), List.getLast_cons hne,
    (hdigits _ (List.getLast_mem hne)).2]
  exact Bool.false_ne_true

theorem name_hexNumber {c : Char} (h : (endsLine c || c.isDigit) = true) :
    Read.name ('\\' :: hexNumber c.toNat) = ([c], []) := by
  obtain ⟨hdigits, hne, hlength, hvalue⟩ := hexNumber_coded h
  have hescape := (Read.escape_code (fun d hd => (hdigits d hd).1) hne hlength []).2
  have hescapes := escapes_hexNumber h []
  rw [List.append_nil] at hescapes
  rw [Read.name_escape hescapes, hescape, hvalue, Read.name]

/-- A text that has lost the blanks at its end is read as the worn name. -/
theorem NameForm.read_trimmed {text name : List Char} (h : NameForm text name) :
    Read.name (text.rdropWhile Text.isBlank) = (worn name, []) := by
  induction name using List.reverseRecOn generalizing text with
  | nil =>
    cases h
    rw [List.rdropWhile_nil, Read.name]
    rfl
  | append_singleton name c ih =>
    obtain ⟨before, form, rfl, hbefore, hform⟩ := h.concat_cases
    have hkept (hc : (!Text.isBlank c || endsLine c) = true) {written : List Char}
        (hread : Read.name written = ([c], [])) :
        Read.name (before ++ written) = (worn (name ++ [c]), []) := by
      rw [hbefore.read, hread, worn_concat, if_pos hc]
    have halone := hform.read_alone
    cases hform with
    | plain hname =>
      cases hblank : Text.isBlank c with
      | true =>
        have hline := endsLine_of_isNameChar hname
        rw [List.rdropWhile_concat_pos _ _ _ hblank, ih hbefore, worn_concat, hblank, hline, hname]
        rfl
      | false =>
        rw [List.rdropWhile_concat_neg _ _ _ (by simp [hblank])]
        exact hkept (by rw [hblank]; rfl) halone
    | code hcoded =>
      rw [rdropWhile_codeEscape hcoded]
      exact hkept (coded_kept hcoded) (name_hexNumber hcoded)
    | escaped hline hesc =>
      have htext : before ++ ['\\', c] = (before ++ ['\\']) ++ [c] := by simp
      cases hblank : Text.isBlank c with
      | true =>
        have hname : Read.isNameChar c = false := by
          rcases hesc with hesc | rfl
          · exact hesc
          · cases hblank
        have hread : Read.name ['\\'] = ([Read.replacement], []) := by
          have hescape : Read.escape [] = (Read.replacement, []) := rfl
          rw [Read.name_escape rfl, hescape, Read.name]
        rw [htext, List.rdropWhile_concat_pos _ _ _ hblank,
          List.rdropWhile_concat_neg _ _ _ (by decide), hbefore.read, hread, worn_concat, hblank,
          hline, hname]
        rfl
      | false =>
        rw [htext, List.rdropWhile_concat_neg _ _ _ (by simp [hblank]), ← htext]
        exact hkept (by rw [hblank]; rfl) halone

/-! ## When a name is worn -/

theorem wornEnd_length (cs : List Char) : (wornEnd cs).length ≤ cs.length := by
  induction cs with
  | nil => simp [wornEnd]
  | cons c before ih =>
    rw [wornEnd]
    split
    · exact Nat.le_refl _
    · split
      · exact Nat.le_succ_of_le ih
      · exact Nat.le_refl _

/-- A name loses nothing exactly if its last character is no blank or is written by its code. -/
theorem worn_eq_self_iff (name : List Char) :
    worn name = name ↔
      ∀ c ∈ name.getLast?, Text.isBlank c = true → endsLine c = true := by
  have hend (cs : List Char) :
      wornEnd cs = cs ↔ ∀ c ∈ cs.head?, Text.isBlank c = true → endsLine c = true := by
    cases cs with
    | nil => simp [wornEnd]
    | cons c before =>
      simp only [List.head?_cons, Option.mem_some_iff, forall_eq']
      cases hblank : Text.isBlank c with
      | false => simp [wornEnd, hblank]
      | true =>
        cases hline : endsLine c with
        | true => simp [wornEnd, hline]
        | false =>
          have hlength := wornEnd_length before
          have hworn : wornEnd (c :: before) ≠ c :: before := by
            intro heq
            simp only [wornEnd, hblank, hline, Bool.not_true, Bool.or_false, Bool.false_eq_true,
              if_false] at heq
            split at heq
            · rw [heq, List.length_cons] at hlength
              omega
            · obtain ⟨rfl, -⟩ := List.cons.inj heq
              exact absurd hblank (by decide)
          simp [hworn]
  rw [List.getLast?_eq_head?_reverse, ← hend, worn, List.reverse_eq_iff]

end Write

end StyleBundle
