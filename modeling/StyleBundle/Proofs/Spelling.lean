import StyleBundle.Json.Text
import StyleBundle.Proofs.Decimal

/-!
# StyleBundle.Proofs.Spelling

The texts of JSON documents. `Json.Spells j cs` is the grammar of JSON, with the document that a
text stands for: escapes are told by the character they stand for, numerals by the integer they are
read as. White space may stand around every item and every member.

`Json.write_spells`: a document that holds nothing but what JSON has is written, on one line or
indented, as a text that spells it.
-/

namespace StyleBundle

namespace Json

open Read

/-! ## The grammar -/

def Blank (cs : List Char) : Prop := ∀ c ∈ cs, c = ' ' ∨ c = '\n' ∨ c = '\r' ∨ c = '\t'

/-- Four hexadecimal digits and the UTF-16 unit that they are. -/
structure SpellsUnit (n : Nat) (cs : List Char) : Prop where
  length : cs.length = 4
  hex : ∀ c ∈ cs, isHex c = true
  value : hexValue cs = n

/-- The character that a letter after a backslash stands for. -/
def shortEscape? : Char → Option Char
  | '"' => some '"'
  | '\\' => some '\\'
  | '/' => some '/'
  | 'b' => some (Char.ofNat 8)
  | 'f' => some (Char.ofNat 12)
  | 'n' => some '\n'
  | 'r' => some '\r'
  | 't' => some '\t'
  | _ => none

inductive SpellsChar : Char → List Char → Prop
  | plain {c : Char} (hprintable : 0x20 ≤ c.toNat) (hquote : c ≠ '"') (hbackslash : c ≠ '\\') :
      SpellsChar c [c]
  | short {c letter : Char} (h : shortEscape? letter = some c) : SpellsChar c ['\\', letter]
  | unit {c : Char} {cs : List Char} (h : SpellsUnit c.toNat cs) : SpellsChar c ('\\' :: 'u' :: cs)
  /-- Two surrogates. -/
  | pair {c : Char} {high low : Nat} {cs ds : List Char}
      (hcode : c.toNat = 0x10000 + high * 0x400 + low) (hlow : low < 0x400)
      (hcs : SpellsUnit (0xd800 + high) cs) (hds : SpellsUnit (0xdc00 + low) ds) :
      SpellsChar c ('\\' :: 'u' :: cs ++ '\\' :: 'u' :: ds)

inductive SpellsChars : List Char → List Char → Prop
  | nil : SpellsChars [] []
  | cons {c : Char} {s cs ds : List Char} (hc : SpellsChar c cs) (hs : SpellsChars s ds) :
      SpellsChars (c :: s) (cs ++ ds)

inductive SpellsText : String → List Char → Prop
  | mk {s : String} {cs : List Char} (h : SpellsChars s.toList cs) :
      SpellsText s ('"' :: cs ++ ['"'])

/-- One or more items with a comma between any two and white space around each. -/
inductive Listed {α : Type} (R : α → List Char → Prop) : List α → List Char → Prop
  | last {a : α} {before cs after : List Char} (hbefore : Blank before) (ha : R a cs)
      (hafter : Blank after) : Listed R [a] (before ++ cs ++ after)
  | cons {a : α} {before cs after ds : List Char} {rest : List α} (hbefore : Blank before)
      (ha : R a cs) (hafter : Blank after) (hrest : Listed R rest ds) :
      Listed R (a :: rest) (before ++ cs ++ after ++ ',' :: ds)

/-- What stands between the brackets of a container. -/
inductive Content {α : Type} (R : α → List Char → Prop) : List α → List Char → Prop
  | none {cs : List Char} (h : Blank cs) : Content R [] cs
  | some {items : List α} {cs : List Char} (h : Listed R items cs) : Content R items cs

mutual

/-- A text spells a document. -/
inductive Spells : Json → List Char → Prop
  | null : Spells .null ['n', 'u', 'l', 'l']
  | true : Spells (.bool true) ['t', 'r', 'u', 'e']
  | false : Spells (.bool false) ['f', 'a', 'l', 's', 'e']
  | int {n : Int} {p : NumeralParts} (hp : p.IsStrict) (hn : p.numeral.integer = some n) :
      Spells (.int n) p.source
  | double {negative : Bool} {units : Nat} {p : NumeralParts} (hp : p.IsStrict)
      (hn : p.numeral.integer = none) : Spells (.double (.finite negative units)) p.source
  | text {s : String} {cs : List Char} (h : SpellsText s cs) : Spells (.text s) cs
  | array {items : List Json} {cs : List Char} (h : Content Spells items cs) :
      Spells (.array items) ('[' :: cs ++ [']'])
  | object {members : List (String × Json)} {cs : List Char} (h : Content SpellsMember members cs) :
      Spells (.object members) ('\x7b' :: cs ++ ['\x7d'])

inductive SpellsMember : String × Json → List Char → Prop
  | mk {key : String} {j : Json} {ks before after cs : List Char} (hkey : SpellsText key ks)
      (hbefore : Blank before) (hafter : Blank after) (hj : Spells j cs) :
      SpellsMember (key, j) (ks ++ before ++ ':' :: after ++ cs)

end

mutual

/-- Whether a document holds nothing but what JSON has: no value without a form in JSON, and no
double that is not finite. -/
def isStrict : Json → Bool
  | .null | .bool _ | .int _ | .text _ => true
  | .double (.finite _ _) => true
  | .double _ => false
  | .array items => areStrict items
  | .object members => haveStrict members
  | .foreign _ => false

def areStrict : List Json → Bool
  | [] => true
  | j :: rest => j.isStrict && areStrict rest

def haveStrict : List (String × Json) → Bool
  | [] => true
  | (_, j) :: rest => j.isStrict && haveStrict rest

end

/-! ## Text -/

theorem hexDigit_digitChar {d : Nat} (h : d < 16) :
    isHex d.digitChar = true ∧ hexDigit d.digitChar = d := by
  have hall : ∀ d : Fin 16, isHex d.val.digitChar = true ∧ hexDigit d.val.digitChar = d := by
    decide
  exact hall ⟨d, h⟩

theorem hexValue_append (cs : List Char) (c : Char) :
    hexValue (cs ++ [c]) = 16 * hexValue cs + hexDigit c := by
  simp [hexValue]

theorem toDigits_hex (n : Nat) :
    (∀ c ∈ Nat.toDigits 16 n, isHex c = true) ∧ hexValue (Nat.toDigits 16 n) = n := by
  induction n using Nat.strongRecOn with
  | ind n ih =>
    by_cases hn : n < 16
    · obtain ⟨hhex, hvalue⟩ := hexDigit_digitChar hn
      rw [Nat.toDigits_of_lt_base hn]
      refine ⟨List.forall_mem_singleton.mpr hhex, ?_⟩
      simp [hexValue, hvalue]
    · obtain ⟨hhex, hvalue⟩ := hexDigit_digitChar (Nat.mod_lt n (by decide : 0 < 16))
      obtain ⟨hfirst, hrest⟩ := ih (n / 16) (by omega)
      rw [Nat.toDigits_of_base_le (by decide) (Nat.le_of_not_lt hn)]
      refine ⟨List.forall_mem_append.mpr ⟨hfirst, List.forall_mem_singleton.mpr hhex⟩, ?_⟩
      rw [hexValue_append, hrest, hvalue]
      omega

theorem hexValue_zeros (k : Nat) (cs : List Char) :
    hexValue (List.replicate k '0' ++ cs) = hexValue cs := by
  induction k with
  | zero => rfl
  | succ k ih => exact ih

theorem unitEscape_spells {n : Nat} (h : n < 0x10000) : SpellsUnit n (Text.hexPadded 4 n) := by
  obtain ⟨hhex, hvalue⟩ := toDigits_hex n
  have hlength : (Nat.toDigits 16 n).length ≤ 4 :=
    (Nat.length_toDigits_le_iff (by decide) (by decide)).mpr h
  unfold Text.hexPadded
  refine ⟨?_, List.forall_mem_append.mpr ⟨?_, hhex⟩, ?_⟩
  · rw [List.length_append, List.length_replicate]
    omega
  · intro c hc
    rw [List.eq_of_mem_replicate hc]
    rfl
  · rw [hexValue_zeros, hvalue]

theorem escapeChar_spells (c : Char) : SpellsChar c (escapeChar c) := by
  unfold escapeChar
  simp only [Bool.or_eq_true, Bool.and_eq_true, beq_iff_eq, decide_eq_true_eq]
  split
  · rename_i hc
    rcases hc with rfl | rfl
    · exact .short rfl
    · exact .short rfl
  · rename_i hspecial
    split
    · subst c
      exact .short rfl
    split
    · subst c
      exact .short rfl
    split
    · subst c
      exact .short rfl
    split
    · rename_i hcode
      exact .short (congrArg some (Char.toNat_inj.mp hcode.symm))
    split
    · rename_i hcode
      exact .short (congrArg some (Char.toNat_inj.mp hcode.symm))
    split
    · rename_i hprintable
      exact .plain hprintable.1 (fun h => hspecial (.inl h)) fun h => hspecial (.inr h)
    split
    · rename_i hunit
      exact .unit (unitEscape_spells hunit)
    · have hcode : c.toNat < 0x110000 := by
        rcases c.valid with h | h
        · exact Nat.lt_trans h (by decide)
        · exact h.2
      exact .pair (by omega) (by omega) (unitEscape_spells (by omega))
        (unitEscape_spells (by omega))

theorem flatMap_spells (s : List Char) : SpellsChars s (s.flatMap escapeChar) := by
  induction s with
  | nil => exact .nil
  | cons c rest ih => exact .cons (escapeChar_spells c) ih

theorem textLiteral_spells (s : String) : SpellsText s (textLiteral s).toList := by
  have hliteral : (textLiteral s).toList = '"' :: s.toList.flatMap escapeChar ++ ['"'] := by
    simp [textLiteral]
  rw [hliteral]
  exact .mk (flatMap_spells s.toList)

/-! ## Layout -/

variable {α : Type} {R : α → List Char → Prop}

theorem blank_nil : Blank [] := nofun

theorem Layout.newline_blank (l : Layout) (depth : Nat) : Blank (l.newline depth).toList := by
  unfold Layout.newline
  split
  · exact blank_nil
  · rw [String.toList_ofList]
    refine List.forall_mem_cons.mpr ⟨.inr (.inl rfl), ?_⟩
    intro c hc
    exact .inl (List.eq_of_mem_replicate hc)

theorem Layout.comma_eq (l : Layout) (depth : Nat) :
    ∃ gap, Blank gap ∧ (l.comma depth).toList = ',' :: gap := by
  unfold Layout.comma
  split
  · exact ⟨[' '], List.forall_mem_singleton.mpr (.inl rfl), rfl⟩
  · refine ⟨(l.newline depth).toList, l.newline_blank depth, ?_⟩
    rw [String.toList_append]
    rfl

theorem listed_intercalate {items : List α} {texts : List (List Char)}
    (h : List.Forall₂ R items texts) (hne : items ≠ []) {before gap after : List Char}
    (hbefore : Blank before) (hgap : Blank gap) (hafter : Blank after) :
    Listed R items (before ++ List.intercalate (',' :: gap) texts ++ after) := by
  induction h generalizing before with
  | nil => exact absurd rfl hne
  | @cons a cs items texts ha hrest ih =>
    cases hrest with
    | nil =>
      rw [List.intercalate_singleton]
      exact .last hbefore ha hafter
    | @cons b ds items texts hb hrest =>
      have hlisted := ih (List.cons_ne_nil _ _) hgap
      have hjoin : before ++ List.intercalate (',' :: gap) (cs :: ds :: texts) ++ after =
          before ++ cs ++ [] ++
            ',' :: (gap ++ List.intercalate (',' :: gap) (ds :: texts) ++ after) := by
        simp [List.intercalate_cons_cons]
      rw [hjoin]
      exact .cons hbefore ha blank_nil hlisted

theorem Layout.enclose_content (l : Layout) (depth : Nat) (opening closing : String)
    {items : List α} {texts : List String}
    (h : List.Forall₂ (fun a text => R a text.toList) items texts) :
    ∃ cs, Content R items cs ∧
      (l.enclose depth opening closing texts).toList = opening.toList ++ cs ++ closing.toList := by
  cases h with
  | nil => exact ⟨[], .none blank_nil, by simp [Layout.enclose, String.toList_append]⟩
  | @cons a text items texts ha hrest =>
    obtain ⟨gap, hgap, hcomma⟩ := l.comma_eq (depth + 1)
    have hlists : List.Forall₂ R (a :: items) ((text :: texts).map String.toList) := by
      rw [List.forall₂_map_right_iff]
      exact .cons ha hrest
    have hlisted := listed_intercalate hlists (List.cons_ne_nil _ _)
      (l.newline_blank (depth + 1)) hgap (l.newline_blank depth)
    refine ⟨_, .some hlisted, ?_⟩
    simp [Layout.enclose, String.toList_append, String.toList_intercalate, hcomma]

theorem member_spells (key : String) {j : Json} {text : String} (h : Spells j text.toList) :
    SpellsMember (key, j) (textLiteral key ++ ": " ++ text).toList := by
  have hmember := SpellsMember.mk (textLiteral_spells key) blank_nil
    (List.forall_mem_singleton.mpr (.inl rfl) : Blank [' ']) h
  simpa [String.toList_append] using hmember

/-! ## Writing -/

mutual

theorem writeAt_spells (l : Layout) (depth : Nat) (j : Json) (h : j.isStrict = true) :
    ∃ text, writeAt l depth j = .ok text ∧ Spells j text.toList := by
  cases j with
  | null => exact ⟨_, rfl, .null⟩
  | bool b =>
    cases b with
    | true => exact ⟨_, rfl, .true⟩
    | false => exact ⟨_, rfl, .false⟩
  | int n =>
    obtain ⟨p, hp, hn, hsource⟩ := strict_toString n
    refine ⟨_, rfl, ?_⟩
    rw [hsource]
    exact .int hp hn
  | double d =>
    cases d with
    | nan => cases h
    | infinite negative => cases h
    | finite negative units =>
      obtain ⟨p, hp, hn, hsource⟩ := Double.strict_text negative units
      refine ⟨(Double.finite negative units).text, rfl, ?_⟩
      rw [hsource]
      exact .double hp hn
  | text s => exact ⟨_, rfl, .text (textLiteral_spells s)⟩
  | array items =>
    obtain ⟨texts, htexts, hspells⟩ := writeItems_spells l (depth + 1) items h
    obtain ⟨cs, hcs, htext⟩ := l.enclose_content depth "[" "]" hspells
    refine ⟨l.enclose depth "[" "]" texts, by rw [writeAt, htexts], ?_⟩
    rw [htext]
    exact .array hcs
  | object members =>
    obtain ⟨texts, htexts, hspells⟩ := writeMembers_spells l (depth + 1) members h
    obtain ⟨cs, hcs, htext⟩ := l.enclose_content depth "\x7b" "\x7d" hspells
    refine ⟨l.enclose depth "\x7b" "\x7d" texts, by rw [writeAt, htexts], ?_⟩
    rw [htext]
    exact .object hcs
  | foreign v => cases h

theorem writeItems_spells (l : Layout) (depth : Nat) (items : List Json)
    (h : areStrict items = true) :
    ∃ texts, writeItems l depth items = .ok texts ∧
      List.Forall₂ (fun j text => Spells j text.toList) items texts := by
  cases items with
  | nil => exact ⟨[], rfl, .nil⟩
  | cons j rest =>
    rw [areStrict, Bool.and_eq_true] at h
    obtain ⟨text, htext, hj⟩ := writeAt_spells l depth j h.1
    obtain ⟨texts, htexts, hrest⟩ := writeItems_spells l depth rest h.2
    refine ⟨text :: texts, ?_, .cons hj hrest⟩
    rw [writeItems, htext]
    simp only [htexts]

theorem writeMembers_spells (l : Layout) (depth : Nat) (members : List (String × Json))
    (h : haveStrict members = true) :
    ∃ texts, writeMembers l depth members = .ok texts ∧
      List.Forall₂ (fun m text => SpellsMember m text.toList) members texts := by
  match members with
  | [] => exact ⟨[], rfl, .nil⟩
  | (key, j) :: rest =>
    rw [haveStrict, Bool.and_eq_true] at h
    obtain ⟨text, htext, hj⟩ := writeAt_spells l depth j h.1
    obtain ⟨texts, htexts, hrest⟩ := writeMembers_spells l depth rest h.2
    refine ⟨_ :: texts, ?_, .cons (member_spells key hj) hrest⟩
    rw [writeMembers, htext]
    simp only [htexts]

end

/-- A document that holds nothing but what JSON has is written as a text that spells it. -/
theorem write_spells (indent : Option Nat) {j : Json} (h : j.isStrict = true) :
    ∃ text, write indent j = .ok text ∧ Spells j text.toList :=
  writeAt_spells { indent } 0 j h

end Json

end StyleBundle
