import StyleBundle.Proofs.FrameOrder
import StyleBundle.Proofs.Lexing
import StyleBundle.Proofs.Reading

/-!
# StyleBundle.Proofs.Equality

Equality of values by meaning. A value means what is left of it when numbers are replaced by where
they lie (`Value.meaning`), and two values are the same exactly if they mean the same
(`Value.same_iff`). So the comparison is an equivalence, as long as no number is the one that is
none; and no value that is read from text holds that one (`Token.ofText_comparable`).
-/

namespace StyleBundle

/-- What a value stands for in a comparison. -/
inductive Meaning where
  | null
  | number (position : Int ×ₗ Int)
  | text (s : String)
  | list (items : List Meaning)
  | call (name : String) (args : List Meaning) (deferred : Bool)
  | time (position : Int ×ₗ Int) (unit : String)
  | easing (kind : String) (args : List Meaning)
  /-- Maps and layers of transitions, which no declaration is read into. -/
  | other

/-- All numbers but the one that is none. -/
def Bounds.comparable : Bounds where
  number n := n ≠ .nan
  time n := n ≠ .nan

namespace Number

theorem int_ne_nan (n : Int) : Number.int n ≠ nan := by
  intro h
  cases h

theorem same_iff {m n : Number} (hm : m ≠ nan) (hn : n ≠ nan) :
    m.same n = true ↔ m.position = n.position := by
  rw [same_eq hm hn, decide_eq_true_eq]

end Number

namespace Value

mutual

def meaning : Value → Meaning
  | .null => .null
  | .bool b => .number (Number.int (if b then 1 else 0)).position
  | .int n => .number (Number.int n).position
  | .double d => .number (Number.double d).position
  | .text s => .text s
  | .list items => .list (meanings items)
  | .call name args deferred => .call name (meanings args) deferred
  | .time t => .time t.value.position t.unit
  | .easing kind args => .easing kind (meanings args)
  | .map _ | .layer _ _ _ _ _ => .other

def meanings : List Value → List Meaning
  | [] => []
  | v :: rest => v.meaning :: meanings rest

end

mutual

theorem same_iff (a b : Value) (ha : a.Over .comparable) (hb : b.Over .comparable) :
    a.same b = true ↔ a.meaning = b.meaning := by
  have hint := Number.int_ne_nan
  cases a with
  | null => cases b <;> simp [same, number?, meaning]
  | bool x =>
    cases b with
    | bool y => simp [same, number?, meaning, Number.same_iff (hint _) (hint _)]
    | int n => simp [same, number?, meaning, Number.same_iff (hint _) (hint _)]
    | double d => simp [same, number?, meaning, Number.same_iff (hint _) hb]
    | _ => simp [same, number?, meaning]
  | int m =>
    cases b with
    | bool y => simp [same, number?, meaning, Number.same_iff (hint _) (hint _)]
    | int n => simp [same, number?, meaning, Number.same_iff (hint _) (hint _)]
    | double d => simp [same, number?, meaning, Number.same_iff (hint _) hb]
    | _ => simp [same, number?, meaning]
  | double c =>
    cases b with
    | bool y => simp [same, number?, meaning, Number.same_iff ha (hint _)]
    | int n => simp [same, number?, meaning, Number.same_iff ha (hint _)]
    | double d => simp [same, number?, meaning, Number.same_iff ha hb]
    | _ => simp [same, number?, meaning]
  | text s => cases b <;> simp [same, number?, meaning]
  | list xs =>
    cases b with
    | list ys => simp [same, meaning, sameItems_iff xs ys ha hb]
    | _ => simp [same, number?, meaning]
  | call f xs d =>
    cases b with
    | call g ys e => simp [same, meaning, sameItems_iff xs ys ha hb, and_assoc]
    | _ => simp [same, number?, meaning]
  | time s =>
    cases b with
    | time t => simp [same, Time.same, meaning, Number.same_iff ha hb]
    | _ => simp [same, number?, meaning]
  | easing f xs =>
    cases b with
    | easing g ys => simp [same, meaning, sameItems_iff xs ys ha hb]
    | _ => simp [same, number?, meaning]
  | map entries => exact absurd ha id
  | layer property duration delay easing args => exact absurd ha id

theorem sameItems_iff (xs ys : List Value) (hx : AllOver .comparable xs)
    (hy : AllOver .comparable ys) : sameItems xs ys = true ↔ meanings xs = meanings ys := by
  cases xs with
  | nil => cases ys <;> simp [sameItems, meanings]
  | cons x xs =>
    cases ys with
    | nil => simp [sameItems, meanings]
    | cons y ys =>
      simp [sameItems, meanings, same_iff x y hx.1 hy.1, sameItems_iff xs ys hx.2 hy.2]

end

theorem same_refl {v : Value} (h : v.Over .comparable) : v.same v = true :=
  (same_iff v v h h).mpr rfl

/-- To compare all values with the first is to compare all with all. -/
theorem allSame_iff {vs : List Value} (h : ∀ v ∈ vs, v.Over .comparable) :
    allSame vs = true ↔ ∀ v ∈ vs, ∀ w ∈ vs, v.same w = true := by
  cases vs with
  | nil => simp [allSame]
  | cons first rest =>
    have hfirst := h first List.mem_cons_self
    constructor
    · intro hall v hv w hw
      have hmeaning : ∀ u ∈ first :: rest, u.meaning = first.meaning := by
        intro u hu
        rcases List.mem_cons.mp hu with rfl | hrest
        · rfl
        · exact (same_iff u first (h u hu) hfirst).mp (List.all_eq_true.mp hall u hrest)
      rw [same_iff v w (h v hv) (h w hw), hmeaning v hv, hmeaning w hw]
    · intro hall
      rw [allSame, List.all_eq_true]
      intro u hu
      exact hall u (List.mem_cons_of_mem _ hu) first List.mem_cons_self

end Value

/-! ## Values that are read -/

theorem Double.ofUnitRatio_ne_nan (negative : Bool) (num den : Nat) :
    ofUnitRatio negative num den ≠ .nan := by
  unfold ofUnitRatio
  simp only
  split
  · intro h
    cases h
  · intro h
    cases h

theorem Double.ofDecimal_ne_nan (negative : Bool) (digits : Nat) (exponent : Int) :
    ofDecimal negative digits exponent ≠ .nan := by
  unfold ofDecimal
  simp only
  split
  · intro h
    cases h
  · split
    · intro h
      cases h
    · split
      · intro h
        cases h
      · split
        · exact ofUnitRatio_ne_nan _ _ _
        · exact ofUnitRatio_ne_nan _ _ _

theorem Read.NumeralParts.number_ne_nan (p : NumeralParts) : p.numeral.number ≠ .nan := by
  unfold Numeral.number
  split
  · exact Number.int_ne_nan _
  · intro h
    exact Double.ofDecimal_ne_nan _ _ _ (Number.double.inj h)

theorem Token.ofText_comparable (text : String) : Token.Over .comparable (Token.ofText text) := by
  intro a ha
  have hread := Token.ofText_read text a ha
  cases a with
  | number n =>
    obtain ⟨p, rfl⟩ := hread
    exact p.number_ne_nan
  | dimension n unit =>
    obtain ⟨p, rfl⟩ := hread
    exact ⟨fun _ => p.number_ne_nan, fun _ => p.number_ne_nan⟩
  | _ => exact trivial

end StyleBundle
