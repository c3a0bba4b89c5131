import StyleBundle.Proofs.Filing
import StyleBundle.Proofs.Selector

/-!
# StyleBundle.Proofs.Cascade

The rank of the rules that an extraction files. Selectors rank rules by their classes alone, so the
order number of a block and the importance of its declarations reach the rules unchanged.

* `extractAll_cascade`: the rules of a block have its number as their order, the rules under a key
  are sorted by order and importance, important rules are above all others, and rules of
  one key and one rank come from the same declarations.
* `group_mark_ties_with_class`: a mark of a group can have the rank of a rule that it stands beside,
  and declares nothing.
-/

namespace StyleBundle

namespace Specificity

theorem cmp_of_important_lt {a b : Specificity} (h : a.important < b.important) :
    cmp a b = .lt := by
  simp [cmp, Nat.compare_eq_lt.mpr h, Ordering.then]

end Specificity

/-- The rank of the rules that a block files, where the selectors count classes only. -/
structure Filed.Ranked (f : Filed) : Prop where
  important : f.rule.specificity.important = if f.important then 1 else 0
  inline : f.rule.specificity.inline = 0
  pseudoElements : f.rule.specificity.pseudoElements = 0
  order : f.rule.specificity.order = f.order

section Rank

variable {c : Settings} {p : SheetBlock} {blocks : List SheetBlock} {order : Nat} {f g : Filed}

theorem SheetBlock.ranked (h : f ∈ p.filings c.standard order) : f.Ranked := by
  obtain ⟨rfl, r, hr, hfrom⟩ := mem_filings h
  obtain ⟨_, _, n, hn⟩ := Selector.classify_parts hfrom.target
  have hrank : f.rule.specificity = specificity f.order f.important + { className := n } := by
    rw [← (rule?_eq hr).1, ← hn]
    cases hmark : f.isMark with
    | true => rw [(hfrom.mark hmark).2]; rfl
    | false => rw [(hfrom.plain hmark).2]; rfl
  constructor <;> rw [hrank] <;> rfl

/-- What a filing says: a mark names its group, and any other has the declarations of the block. -/
theorem SheetBlock.body_of_mem (h : f ∈ p.filings c order) :
    f.rule.body =
      if f.isMark then { specificity := {}, container := some { names := .named [f.key] } }
      else (buildRule (c.buildContext (.ofDirectives p.block.directives)) c.read {}
        (p.block.declarationsOf f.important)).rule.body := by
  obtain ⟨_, r, hr, hfrom⟩ := mem_filings h
  cases hmark : f.isMark with
  | true => rw [(hfrom.mark hmark).2]; rfl
  | false =>
    rw [(hfrom.plain hmark).2, if_neg Bool.false_ne_true, ← (rule?_eq hr).2.2.2]
    rfl

/-- Earlier blocks come first, and in a block the declarations that are not important. -/
def Filed.Before (f g : Filed) : Prop :=
  f.order < g.order ∨ f.order = g.order ∧ f.important ≤ g.important

theorem SheetBlock.filings_sorted (c : Settings) (order : Nat) (p : SheetBlock) :
    (p.filings c order).Pairwise Filed.Before := by
  have hsame (important : Bool) : (p.filingsOf c order important).Pairwise Filed.Before := by
    apply List.pairwise_of_forall_mem_list
    intro f hf g hg
    obtain ⟨horder, himportant, _⟩ := mem_filingsOf hf
    obtain ⟨horder', himportant', _⟩ := mem_filingsOf hg
    exact .inr ⟨horder.trans horder'.symm, Bool.le_of_eq (himportant.trans himportant'.symm)⟩
  refine List.pairwise_append.mpr ⟨hsame false, hsame true, ?_⟩
  intro f hf g hg
  obtain ⟨horder, himportant, _⟩ := mem_filingsOf hf
  obtain ⟨horder', _, _⟩ := mem_filingsOf hg
  exact .inr ⟨horder.trans horder'.symm, himportant ▸ Bool.false_le _⟩

theorem Sheet.filed_sorted (c : Settings) (order : Nat) (blocks : List SheetBlock) :
    (Sheet.filed c order blocks).Pairwise Filed.Before := by
  induction blocks generalizing order with
  | nil => exact List.Pairwise.nil
  | cons p rest ih =>
    rw [Sheet.filed_cons]
    refine List.pairwise_append.mpr ⟨p.filings_sorted c order, ih (order + 1), ?_⟩
    intro f hf g hg
    obtain ⟨i, q, _, hg⟩ := Sheet.mem_filed_iff.mp hg
    have hf := (SheetBlock.mem_filings hf).1
    have hg := (SheetBlock.mem_filings hg).1
    exact .inl (by omega)

theorem Sheet.ranked (h : f ∈ Sheet.filed c.standard order blocks) : f.Ranked := by
  obtain ⟨i, p, _, hf⟩ := Sheet.mem_filed_iff.mp h
  exact SheetBlock.ranked hf

/-- Order and importance arrange the ranks of filings as they arrange the filings. -/
theorem Filed.Before.rank (h : f.Before g) (hf : f.Ranked) (hg : g.Ranked) :
    f.rule.specificity.order < g.rule.specificity.order ∨
    f.rule.specificity.order = g.rule.specificity.order ∧
      f.rule.specificity.important ≤ g.rule.specificity.important := by
  rw [hf.order, hg.order, hf.important, hg.important]
  rcases h with hlt | ⟨heq, hle⟩
  · exact .inl hlt
  · refine .inr ⟨heq, ?_⟩
    cases hfi : f.important with
    | false => exact Nat.zero_le _
    | true =>
      rw [hfi] at hle
      have hgi : g.important = true := hle rfl
      simp [hgi]

/-- A rank tells the order number of the block and the importance of the declarations. -/
theorem Filed.Ranked.eq_of_rank (hf : f.Ranked) (hg : g.Ranked)
    (h : f.rule.specificity = g.rule.specificity) :
    f.order = g.order ∧ f.important = g.important := by
  have horder := hf.order.symm.trans ((congrArg Specificity.order h).trans hg.order)
  have himportant := hf.important.symm.trans ((congrArg Specificity.important h).trans hg.important)
  refine ⟨horder, ?_⟩
  revert himportant
  cases f.important <;> cases g.important <;> decide

/-- Filings of one order number are of one block, so that only marks differ from the others in what
they say. -/
theorem Sheet.body_eq (hf : f ∈ Sheet.filed c order blocks) (hg : g ∈ Sheet.filed c order blocks)
    (hkey : f.key = g.key) (horder : f.order = g.order) (himportant : f.important = g.important)
    (hmark : f.isMark = g.isMark) : f.rule.body = g.rule.body := by
  obtain ⟨i, p, hp, hf⟩ := Sheet.mem_filed_iff.mp hf
  obtain ⟨j, q, hq, hg⟩ := Sheet.mem_filed_iff.mp hg
  have hi := (SheetBlock.mem_filings hf).1
  have hj := (SheetBlock.mem_filings hg).1
  obtain rfl : i = j := by omega
  rw [hp] at hq
  cases hq
  rw [SheetBlock.body_of_mem hf, SheetBlock.body_of_mem hg, hmark, hkey, himportant]

end Rank

/-- The rules of a state are those that some blocks file, ranked as the blocks are numbered. -/
structure Cascade (c : Settings) (blocks : List SheetBlock) (s : State) : Prop where
  /-- The number after that of the last block is the next one. -/
  order : s.order = 1 + blocks.length
  rules : ∀ key, s.rules.under key =
    ((Sheet.filed c 1 blocks).filter (·.key = key)).map (·.rule)
  /-- What a block files has the rank of its order number. -/
  ranked : ∀ (i : Nat) (p : SheetBlock), blocks[i]? = some p →
    ∀ f ∈ p.filings c (1 + i), f.order = 1 + i ∧ f.Ranked
  /-- Under a key, order and importance do not fall. -/
  sorted : ∀ key, (s.rules.under key).Pairwise fun r r' =>
    r.specificity.order < r'.specificity.order ∨
    r.specificity.order = r'.specificity.order ∧
      r.specificity.important ≤ r'.specificity.important
  /-- An important rule is above every rule that is not, whatever their keys. -/
  importance : ∀ key key', ∀ r ∈ s.rules.under key, ∀ r' ∈ s.rules.under key',
    r.specificity.important = 0 → r'.specificity.important = 1 →
      Specificity.cmp r.specificity r'.specificity = .lt
  /-- Rules of one key and one rank come from the same declarations, and unless just one of them is
  a mark they say the same. -/
  ties : ∀ f ∈ Sheet.filed c 1 blocks, ∀ g ∈ Sheet.filed c 1 blocks, f.key = g.key →
    f.rule.specificity = g.rule.specificity →
      f.order = g.order ∧ f.important = g.important ∧
      (f.isMark = g.isMark → f.rule.body = g.rule.body)

theorem cascade_of_filed {c : Settings} {blocks : List SheetBlock} {s : State}
    (horder : s.order = 1 + blocks.length)
    (hrules : s.rules = Table.pushAll [] ((Sheet.filed c.standard 1 blocks).map Filed.entry)) :
    Cascade c.standard blocks s := by
  have hunder (key : String) : s.rules.under key =
      ((Sheet.filed c.standard 1 blocks).filter (·.key = key)).map (·.rule) := by
    rw [hrules, under_entries]
  refine ⟨horder, hunder, ?_, ?_, ?_, ?_⟩
  · intro i p hp f hf
    exact ⟨(SheetBlock.mem_filings hf).1, SheetBlock.ranked hf⟩
  · intro key
    rw [hunder, List.pairwise_map]
    have hsorted := (Sheet.filed_sorted c.standard 1 blocks).filter (·.key = key)
    refine hsorted.imp_of_mem ?_
    intro f g hf hg hbefore
    exact hbefore.rank (Sheet.ranked (List.mem_filter.mp hf).1)
      (Sheet.ranked (List.mem_filter.mp hg).1)
  · intro key key' r _ r' _ hr hr'
    exact Specificity.cmp_of_important_lt (by omega)
  · intro f hf g hg hkey hrank
    obtain ⟨horder, himportant⟩ := (Sheet.ranked hf).eq_of_rank (Sheet.ranked hg) hrank
    exact ⟨horder, himportant, Sheet.body_eq hf hg hkey horder himportant⟩

/-- The cascade of a style sheet: the blocks with declarations that are reached, numbered from one
in the order of the source, rank the rules that they file. If a rule stops the extraction, this
holds of the blocks before it. -/
theorem extractAll_cascade (c : Settings) (dark : DarkMode) (rules : List Rule) :
    let s : State := { darkMode := dark }
    let carried := Sheet.carried c.standard s rules
    let o := s.extractAll c.standard {} rules
    carried <+: Sheet.reached rules ∧
    (o.failure = none → carried = Sheet.reached rules) ∧
    Cascade c.standard (Sheet.blocks dark carried) o.state := by
  intro s carried o
  obtain ⟨horder, hrules⟩ := @extractAll_files c.standard s Int.one_nonneg rules
  exact ⟨Outcome.carried_prefix _ _ _, carried_of_ok, cascade_of_filed horder hrules⟩

/-- A mark can have the rank of a rule of its key and block and still declare something else: here
the mark that `.group .a` leaves for the group, beside the rule that `.group:hover` files. -/
theorem group_mark_ties_with_class :
    let c : Settings :=
      { isGroup := (· == "group"), ignores := fun _ => false, classifier := .standard,
        read := Declaration.read }
    let block : StyleBlock :=
      { selectors := [".group .a", ".group:hover"],
        declarations := [{ property := "color", value := "red" }] }
    let rs := (State.extractAll c {} {} [.style block]).state.rules.under "group"
    ∃ r ∈ rs, ∃ r' ∈ rs, r.specificity = r'.specificity ∧ r.declarations ≠ r'.declarations := by
  intro c block rs
  have hlength : ∃ r ∈ rs, ∃ r' ∈ rs, r.specificity = r'.specificity ∧
      r.declarations.length ≠ r'.declarations.length := by decide +kernel
  obtain ⟨r, hr, r', hr', hrank, hne⟩ := hlength
  exact ⟨r, hr, r', hr', hrank, fun h => hne (congrArg List.length h)⟩

end StyleBundle
