import Mathlib
import StyleBundle.Sheet.Parse

/-!
# StyleBundle.Proofs.Tokens

Component values and what is cut out of lists of them.

* `Token.atoms`: the leaves, at any depth. Layers, parts and the block of a statement have no leaves
  but those of the list that they are cut out of.
* `Token.splitCommas_eq_splitOnP`, `Token.flatten_splitCommas`: the parts between commas.
* `Token.layers_eq`: the layers, which are what is significant in the parts.
-/

namespace StyleBundle

namespace Token

mutual

/-- The leaves of a component value, at any depth. -/
def atoms : Token → List Atom
  | .atom _ a => [a]
  | .function _ _ arguments => atomsAll arguments
  | .block _ _ content => atomsAll content

def atomsAll : List Token → List Atom
  | [] => []
  | t :: rest => t.atoms ++ atomsAll rest

end

theorem mem_atomsAll {a : Atom} {ts : List Token} : a ∈ atomsAll ts ↔ ∃ t ∈ ts, a ∈ t.atoms := by
  induction ts with
  | nil => simp [atomsAll]
  | cons t rest ih => simp [atomsAll, ih]

theorem atomsAll_subset {ts us : List Token} (h : us ⊆ ts) : atomsAll us ⊆ atomsAll ts := by
  intro a ha
  obtain ⟨t, ht, hat⟩ := mem_atomsAll.mp ha
  exact mem_atomsAll.mpr ⟨t, h ht, hat⟩

theorem significant_subset (ts : List Token) : significant ts ⊆ ts := List.filter_sublist.subset

/-! ## Parts between commas -/

theorem splitCommas_comma {t : Token} (h : t.isComma = true) (rest : List Token) :
    splitCommas (t :: rest) = [] :: splitCommas rest := by
  rw [splitCommas, if_pos h]

theorem splitCommas_other {t : Token} (h : t.isComma = false) {rest part : List Token}
    {parts : List (List Token)} (hrest : splitCommas rest = part :: parts) :
    splitCommas (t :: rest) = (t :: part) :: parts := by
  rw [splitCommas, h, hrest]
  rfl

theorem exists_splitCommas_cons (ts : List Token) :
    ∃ part parts, splitCommas ts = part :: parts := by
  induction ts with
  | nil => exact ⟨[], [], rfl⟩
  | cons t rest ih =>
    cases h : t.isComma with
    | true => exact ⟨_, _, splitCommas_comma h rest⟩
    | false =>
      obtain ⟨part, parts, hrest⟩ := ih
      exact ⟨_, _, splitCommas_other h hrest⟩

theorem splitCommas_eq_splitOnP (ts : List Token) : splitCommas ts = ts.splitOnP isComma := by
  induction ts with
  | nil => rfl
  | cons t rest ih =>
    obtain ⟨part, parts, hrest⟩ := exists_splitCommas_cons rest
    rw [List.splitOnP_cons_eq_if_modifyHead, ← ih]
    cases ht : t.isComma with
    | true => rw [splitCommas_comma ht, if_pos rfl]
    | false => rw [splitCommas_other ht hrest, hrest]; rfl

theorem splitCommas_single {ts : List Token} (h : ∀ t ∈ ts, t.isComma = false) :
    splitCommas ts = [ts] := by
  rw [splitCommas_eq_splitOnP]
  exact List.splitOnP_eq_singleton h

theorem splitCommas_first {before : List Token} (h : ∀ t ∈ before, t.isComma = false)
    {comma : Token} (hcomma : comma.isComma = true) (after : List Token) :
    splitCommas (before ++ comma :: after) = before :: splitCommas after := by
  rw [splitCommas_eq_splitOnP, splitCommas_eq_splitOnP]
  exact List.splitOnP_append_cons_of_forall_mem h comma hcomma after

theorem flatten_splitCommas (ts : List Token) :
    (splitCommas ts).flatten = ts.filter (!·.isComma) := by
  induction ts with
  | nil => rfl
  | cons t rest ih =>
    obtain ⟨part, parts, hrest⟩ := exists_splitCommas_cons rest
    cases ht : t.isComma with
    | true => simp [splitCommas_comma ht, ht, ih]
    | false =>
      rw [hrest] at ih
      simpa [splitCommas_other ht hrest, ht] using ih

theorem sublist_of_mem_splitCommas {ts part : List Token} (h : part ∈ splitCommas ts) :
    part.Sublist (ts.filter (!·.isComma)) := by
  rw [← flatten_splitCommas]
  exact List.sublist_flatten_of_mem h

theorem subset_of_mem_splitCommas {ts part : List Token} (h : part ∈ splitCommas ts) :
    part ⊆ ts :=
  ((sublist_of_mem_splitCommas h).trans List.filter_sublist).subset

/-- The layer that is being read goes before the first part. -/
theorem layersFrom_eq {ts part : List Token} {parts : List (List Token)}
    (h : splitCommas ts = part :: parts) (done : List Token) :
    layersFrom done ts =
      ((done.reverse ++ significant part) :: parts.map significant).filter (!·.isEmpty) := by
  induction ts generalizing part parts done with
  | nil =>
    cases h
    cases done <;> simp [layersFrom, significant]
  | cons t rest ih =>
    obtain ⟨part', parts', hrest⟩ := exists_splitCommas_cons rest
    cases ht : t.isComma with
    | true =>
      rw [splitCommas_comma ht, hrest] at h
      cases h
      cases done <;> simp [layersFrom, ht, ih hrest, significant]
    | false =>
      rw [splitCommas_other ht hrest] at h
      cases h
      cases hs : t.isSignificant <;> simp [layersFrom, ht, hs, ih hrest, significant]

/-- Layers are what is significant in the parts between commas, where there is anything. -/
theorem layers_eq (ts : List Token) :
    layers ts = ((splitCommas ts).map significant).filter (!·.isEmpty) := by
  obtain ⟨part, parts, h⟩ := exists_splitCommas_cons ts
  rw [layers, layersFrom_eq h, h]
  rfl

theorem layers_single {ts : List Token} (h : ∀ t ∈ ts, t.isComma = false)
    (hne : significant ts ≠ []) : layers ts = [significant ts] := by
  rw [layers_eq, splitCommas_single h]
  simp [hne]

theorem layers_first {before : List Token} (h : ∀ t ∈ before, t.isComma = false)
    {comma : Token} (hcomma : comma.isComma = true) (hne : significant before ≠ [])
    (after : List Token) :
    layers (before ++ comma :: after) = significant before :: layers after := by
  rw [layers_eq, layers_eq, splitCommas_first h hcomma]
  simp [hne]

theorem layers_skip {before : List Token} (h : ∀ t ∈ before, t.isComma = false)
    {comma : Token} (hcomma : comma.isComma = true) (hnil : significant before = [])
    (after : List Token) : layers (before ++ comma :: after) = layers after := by
  rw [layers_eq, layers_eq, splitCommas_first h hcomma]
  simp [hnil]

theorem significant_significant (ts : List Token) :
    significant (significant ts) = significant ts := by
  simp [significant]

theorem of_mem_layers {ts layer : List Token} (h : layer ∈ layers ts) :
    layer ≠ [] ∧ significant layer = layer ∧
      layer.Sublist (significant (ts.filter (!·.isComma))) := by
  rw [layers_eq, List.mem_filter] at h
  obtain ⟨part, hpart, rfl⟩ := List.mem_map.mp h.1
  exact ⟨by simpa using h.2, significant_significant part,
    (sublist_of_mem_splitCommas hpart).filter _⟩

end Token

/-! ## Statements -/

/-- What a statement is made of: the leaves of its prelude and of its block. -/
def Statement.atoms : Statement → List Atom
  | .atRule _ before content => Token.atomsAll before ++ Token.atomsAll (content.getD [])
  | .qualified before content => Token.atomsAll before ++ Token.atomsAll content
  | .fault _ _ => []

theorem prelude_before (semicolons : Bool) (ts : List Token) : (prelude semicolons ts).1 ⊆ ts := by
  induction ts with
  | nil => exact List.nil_subset _
  | cons t rest ih =>
    unfold prelude
    split
    · exact List.nil_subset _
    · split
      · exact List.nil_subset _
      · exact List.cons_subset_cons t ih

theorem prelude_rest (semicolons : Bool) (ts : List Token) : (prelude semicolons ts).2.2 ⊆ ts := by
  induction ts with
  | nil => exact List.nil_subset _
  | cons t rest ih =>
    unfold prelude
    split
    · exact List.subset_cons_self _ _
    · split
      · exact List.subset_cons_self _ _
      · exact List.subset_cons_of_subset t ih

theorem prelude_content (semicolons : Bool) (ts : List Token) :
    Token.atomsAll ((prelude semicolons ts).2.1.content?.getD []) ⊆ Token.atomsAll ts := by
  induction ts with
  | nil => exact List.nil_subset _
  | cons t rest ih =>
    unfold prelude
    split
    · exact List.subset_append_left _ _
    · split
      · exact List.nil_subset _
      · exact List.subset_append_of_subset_right _ ih

theorem Statement.atoms_listOfTokens (whole : Bool) (ts : List Token) :
    ∀ s ∈ listOfTokens whole ts, s.atoms ⊆ Token.atomsAll ts := by
  fun_induction listOfTokens whole ts with
  | case1 =>
    intro s hs
    cases hs
  | case2 t rest hidle ih =>
    intro s hs
    exact List.Subset.trans (ih s hs) (Token.atomsAll_subset (List.subset_cons_self _ _))
  | case3 rest p keyword r hsignificant ih =>
    have hrest : Token.atomsAll rest ⊆ Token.atomsAll (.atom p (.atKeyword keyword) :: rest) :=
      Token.atomsAll_subset (List.subset_cons_self _ _)
    refine List.forall_mem_cons.mpr ⟨?_, ?_⟩
    · refine List.append_subset.mpr ⟨?_, ?_⟩
      · exact List.Subset.trans (Token.atomsAll_subset (prelude_before true rest)) hrest
      · exact List.Subset.trans (prelude_content true rest) hrest
    · intro s hs
      refine List.Subset.trans (ih s hs) ?_
      exact List.Subset.trans (Token.atomsAll_subset (prelude_rest true rest)) hrest
  | case4 t rest hsignificant r p content hstop hother ih =>
    simp only [r] at hstop ih
    simp only [hstop]
    have hcontent := prelude_content false (t :: rest)
    rw [hstop] at hcontent
    refine List.forall_mem_cons.mpr ⟨?_, ?_⟩
    · exact List.append_subset.mpr ⟨Token.atomsAll_subset (prelude_before false _), hcontent⟩
    · intro s hs
      exact List.Subset.trans (ih s hs) (Token.atomsAll_subset (prelude_rest false _))
  | case5 t rest hsignificant r hother hstop =>
    simp only [r] at hstop
    intro s hs
    simp only at hs
    rw [List.mem_singleton.mp hs]
    exact List.nil_subset _

end StyleBundle
