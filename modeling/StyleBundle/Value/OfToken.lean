import StyleBundle.Token.Split
import StyleBundle.Value.Basic

/-!
# StyleBundle.Value.OfToken

The values that component values stand for. Lengths in pixels are numbers; lengths that the host
has to work out are calls, of which `em` waits for layout; `var` names a custom property and may
have a fallback. Everything else stays text.
-/

namespace StyleBundle

namespace Token

theorem mem_of_mem_layersFrom {t : Token} {layer : List Token} :
    ∀ {ts done : List Token}, layer ∈ layersFrom done ts → t ∈ layer → t ∈ ts ∨ t ∈ done := by
  intro ts
  induction ts with
  | nil =>
    intro done hl ht
    unfold layersFrom at hl
    split at hl
    · simp at hl
    · simp only [List.mem_singleton] at hl
      subst hl
      exact .inr (by simpa using ht)
  | cons u rest ih =>
    intro done hl ht
    unfold layersFrom at hl
    split at hl
    · split at hl
      · rcases ih hl ht with h | h
        · exact .inl (List.mem_cons_of_mem _ h)
        · simp at h
      · rcases List.mem_cons.mp hl with h | h
        · subst h
          exact .inr (by simpa using ht)
        · rcases ih h ht with h | h
          · exact .inl (List.mem_cons_of_mem _ h)
          · simp at h
    · split at hl
      · rcases ih hl ht with h | h
        · exact .inl (List.mem_cons_of_mem _ h)
        · rcases List.mem_cons.mp h with h | h
          · exact .inl (h ▸ List.mem_cons_self)
          · exact .inr h
      · rcases ih hl ht with h | h
        · exact .inl (List.mem_cons_of_mem _ h)
        · exact .inr h

/-- A layer holds only values of the list. -/
theorem mem_of_mem_layers {t : Token} {layer ts : List Token} (hl : layer ∈ layers ts)
    (ht : t ∈ layer) : t ∈ ts := by
  rcases mem_of_mem_layersFrom hl ht with h | h
  · exact h
  · simp at h

end Token

namespace Value

/-- Units of length that the host works out. -/
def hostUnits : List String := ["rem", "vw", "vh", "vmin", "vmax"]

/-- The value of a number with a unit. -/
def ofDimension (n : Numeral) (unit : String) : Value :=
  let u := Text.lower unit
  if u == "px" then n.number.toValue
  else if hostUnits.contains u then .call u [n.number.toValue] false
  else if u == "em" then .call "em" [n.number.toValue] true
  else .text (String.ofList (Write.atom (.dimension n unit)))

/-- The value of one component value. -/
def ofToken : Token → Value
  | .atom _ (.number n) => n.number.toValue
  | .atom _ (.dimension n unit) => ofDimension n unit
  | .atom _ (.ident v) => .text v
  | .atom _ (.string v _) => .text v
  | .atom _ (.hash v _) => .text ("#" ++ v)
  | .atom p a => .text (Token.trimmed [.atom p a])
  | .block p b content => .text (Token.trimmed [.block p b content])
  | .function p f arguments =>
    if Text.lower f == "var" then
      match _hl : Token.layers arguments with
      | [] => .text (Token.text [.function p f arguments])
      | [name] => .call "var" [.text (Token.trimmed name)] false
      | name :: [t] :: _ => .call "var" [.text (Token.trimmed name), ofToken t] false
      | name :: fallback :: _ =>
        .call "var" [.text (Token.trimmed name), .text (Token.trimmed fallback)] false
    else .text (Token.trimmed [.function p f arguments])
termination_by t => sizeOf t
decreasing_by
  have hm : [t] ∈ Token.layers arguments := by rw [_hl]; simp
  have hs := List.sizeOf_lt_of_mem (Token.mem_of_mem_layers hm List.mem_cons_self)
  simp only [Token.function.sizeOf_spec]
  omega

/-- The value of a list of component values: nothing for an empty one, the value of a single
significant one, and otherwise the text of them all. -/
def ofTokens (ts : List Token) : Value :=
  match Token.significant ts with
  | [] => .null
  | [t] => ofToken t
  | _ => .text (Token.trimmed ts)

end Value

end StyleBundle
