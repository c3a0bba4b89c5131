import StyleBundle.Proofs.Leaves
import StyleBundle.Proofs.Tokens

/-!
# StyleBundle.Proofs.Sources

Where the parts of a sheet come from. The progress of frames is the start, the finish, and the
percentages that the source writes: `Sheet.parse_readFrom`.
-/

namespace StyleBundle

namespace Noted

variable {ε α β : Type}

theorem bind_ok {m : Noted ε α} {f : α → Noted ε β} {b : β} :
    (m >>= f).result = .ok b ↔ ∃ a, m.result = .ok a ∧ (f a).result = .ok b := by
  simp only [Bind.bind, Noted.bind]
  cases m.result with
  | error e => simp
  | ok a => simp

/-- One thing in front of others goes through only if both do. -/
theorem cons_ok {first : Noted ε α} {rest : Noted ε (List β)} {f : α → β} {ys : List β}
    (h : (do
      let x ← first
      let others ← rest
      return f x :: others : Noted ε (List β)).result = .ok ys) :
    ∃ x others, first.result = .ok x ∧ rest.result = .ok others ∧ ys = f x :: others := by
  obtain ⟨x, hx, h⟩ := bind_ok.mp h
  obtain ⟨others, hothers, h⟩ := bind_ok.mp h
  cases h
  exact ⟨x, others, hx, hothers, rfl⟩

end Noted

/-- The progress that frames can have in a sheet made of the given leaves. -/
inductive Sheet.FrameProgress (as : List Atom) : Number → Prop
  | start : FrameProgress as (.double (.finite false 0))
  | finish : FrameProgress as (.double (.finite false Double.one))
  | percentage {n : Numeral} (h : Atom.percentage n ∈ as) :
    FrameProgress as (.double n.value.percent)

def Keyframe.ReadFrom (as : List Atom) (k : Keyframe) : Prop :=
  ∀ o ∈ k.offsets, ∀ n, o.progress? = some n → Sheet.FrameProgress as n

/-- A rule as it is read from component values made of the given leaves. -/
def LeafRule.ReadFrom (as : List Atom) : LeafRule → Prop
  | .keyframes k => ∀ f ∈ k.frames, f.ReadFrom as
  | _ => True

theorem Sheet.fraction?_progress {t : Token} {v : Number} (h : fraction? t = some v) :
    Sheet.FrameProgress t.atoms v := by
  unfold fraction? at h
  split at h
  · cases h
    exact .percentage (List.mem_singleton.mpr rfl)
  · cases h

theorem Sheet.FrameProgress.mono {as bs : List Atom} (hsub : as ⊆ bs) {n : Number}
    (h : Sheet.FrameProgress as n) :
    Sheet.FrameProgress bs n := by
  cases h with
  | start => exact .start
  | finish => exact .finish
  | percentage h => exact .percentage (hsub h)

theorem Sheet.offset_progress {ts : List Token} {n : Number} (h : (offset ts).progress? = some n) :
    Sheet.FrameProgress (Token.atomsAll ts) n := by
  unfold offset at h
  simp only at h
  split at h
  · rename_i t hsignificant
    have ht : t ∈ ts := Token.significant_subset ts (hsignificant ▸ List.mem_singleton.mpr rfl)
    split at h
    · cases h
      exact .start
    · split at h
      · cases h
        exact .finish
      · split at h
        · rename_i v hv
          cases h
          exact (Sheet.fraction?_progress hv).mono fun a ha => Token.mem_atomsAll.mpr ⟨t, ht, ha⟩
        · cases h
  · cases h

theorem Sheet.offsets_progress {as : List Atom} {before : List Token}
    (h : Token.atomsAll before ⊆ as) :
    ∀ o ∈ offsets before, ∀ n, o.progress? = some n → Sheet.FrameProgress as n := by
  intro o ho n hn
  obtain ⟨part, hpart, rfl⟩ := List.mem_map.mp ho
  have hsub := Token.subset_of_mem_splitCommas (List.mem_filter.mp hpart).1
  exact (Sheet.offset_progress hn).mono (List.Subset.trans (Token.atomsAll_subset hsub) h)

theorem Sheet.frames_readFrom {as : List Atom} {statements : List Statement}
    (h : ∀ s ∈ statements, s.atoms ⊆ as) {ks : List Keyframe}
    (hks : (Sheet.frames statements).result = .ok ks) : ∀ k ∈ ks, k.ReadFrom as := by
  induction statements generalizing ks with
  | nil =>
    cases hks
    nofun
  | cons s rest ih =>
    obtain ⟨hhead, hrest⟩ := List.forall_mem_cons.mp h
    cases s with
    | atRule keyword before content => exact ih hrest hks
    | fault p problem => exact ih hrest hks
    | qualified before content =>
      obtain ⟨k, others, hk, hothers, rfl⟩ := Noted.cons_ok (f := id) hks
      cases hk
      refine List.forall_mem_cons.mpr ⟨?_, ih hrest hothers⟩
      exact Sheet.offsets_progress (List.append_subset.mp hhead).1

theorem Sheet.cons_readFrom {α : Type} {first : Noted SourceError α}
    {rest : Noted SourceError (List Rule)} {f : α → Rule} {as : List Atom} {frames : List Wrapper}
    (hfirst : ∀ x, first.result = .ok x → ∀ l ∈ (f x).leaves frames, l.rule.ReadFrom as)
    (hrest : ∀ others, rest.result = .ok others →
      ∀ l ∈ Rule.leavesAll frames others, l.rule.ReadFrom as) {rules : List Rule}
    (h : (do
      let x ← first
      let others ← rest
      return f x :: others : Noted SourceError (List Rule)).result = .ok rules) :
    ∀ l ∈ Rule.leavesAll frames rules, l.rule.ReadFrom as := by
  obtain ⟨x, others, hx, hothers, rfl⟩ := Noted.cons_ok h
  rw [Rule.leavesAll]
  exact List.forall_mem_append.mpr ⟨hfirst x hx, hrest others hothers⟩

/-- The statements in the block of an at-rule are made of what the at-rule is made of. -/
theorem Statement.atoms_content {as : List Atom} {keyword : String} {before : List Token}
    {content : Option (List Token)} (h : (Statement.atRule keyword before content).atoms ⊆ as) :
    ∀ s ∈ listOfTokens false (content.getD []), s.atoms ⊆ as := by
  intro s hmem
  exact List.Subset.trans (atoms_listOfTokens false _ s hmem) (List.append_subset.mp h).2

theorem Sheet.keyframes_readFrom {as : List Atom} {statements : List Statement}
    (h : ∀ s ∈ statements, s.atoms ⊆ as) {ks : List Keyframe}
    (hks : (Sheet.frames statements).result = .ok ks) (name : String) (frames : List Wrapper) :
    ∀ l ∈ (Rule.keyframes { name, frames := ks }).leaves frames, l.rule.ReadFrom as := by
  rw [Rule.leaves]
  exact List.forall_mem_singleton.mpr (Sheet.frames_readFrom h hks)

/-- The rules of statements are read from what the statements are made of. -/
theorem Sheet.ofStatements_readFrom {as : List Atom} {statements : List Statement}
    (h : ∀ s ∈ statements, s.atoms ⊆ as) {rules : List Rule}
    (hrules : (Sheet.ofStatements statements).result = .ok rules) (frames : List Wrapper) :
    ∀ l ∈ Rule.leavesAll frames rules, l.rule.ReadFrom as := by
  fun_induction Sheet.ofStatements statements generalizing rules frames with
  | case1 =>
    cases hrules
    nofun
  | case2 p problem rest => cases hrules
  | case3 before content rest ih =>
    refine Sheet.cons_readFrom ?_ (fun others hothers => ?_) hrules
    · intro block _
      rw [Rule.leaves]
      exact List.forall_mem_singleton.mpr trivial
    · exact ih (List.forall_mem_cons.mp h).2 hothers frames
  | case4 keyword before content rest hkeyword ihcontent ih =>
    obtain ⟨hhead, hrest⟩ := List.forall_mem_cons.mp h
    refine Sheet.cons_readFrom ?_ (fun others hothers => ih hrest hothers frames) hrules
    intro children hchildren
    rw [Rule.leaves]
    exact ihcontent (Statement.atoms_content hhead) hchildren _
  | case5 keyword before content rest hkeyword ihcontent ih =>
    obtain ⟨hhead, hrest⟩ := List.forall_mem_cons.mp h
    refine Sheet.cons_readFrom (f := fun children =>
      .container (containerPrelude before).1 (containerPrelude before).2 children) ?_
      (fun others hothers => ih hrest hothers frames) hrules
    intro children hchildren
    rw [Rule.leaves]
    exact ihcontent (Statement.atoms_content hhead) hchildren _
  | case6 keyword before content rest hkeyword ih =>
    obtain ⟨hhead, hrest⟩ := List.forall_mem_cons.mp h
    refine Sheet.cons_readFrom ?_ (fun others hothers => ih hrest hothers frames) hrules
    intro ks hks
    exact Sheet.keyframes_readFrom (Statement.atoms_content hhead) hks _ frames
  | case7 keyword before content rest hkeyword ih =>
    obtain ⟨hhead, hrest⟩ := List.forall_mem_cons.mp h
    refine Sheet.cons_readFrom ?_ (fun others hothers => ih hrest hothers frames) hrules
    intro ks hks
    exact Sheet.keyframes_readFrom (Statement.atoms_content hhead) hks _ frames
  | case8 keyword before content rest hkeyword ih =>
    obtain ⟨others, hothers, hrules⟩ := Noted.bind_ok.mp hrules
    cases hrules
    rw [Rule.leavesAll, Rule.leaves]
    refine List.forall_mem_append.mpr ⟨List.forall_mem_singleton.mpr trivial, ?_⟩
    exact ih (List.forall_mem_cons.mp h).2 hothers frames
  | case9 keyword before content rest hmedia hcontainer hkeyframes hprefixed hinterop ih =>
    obtain ⟨_, _, hrules⟩ := Noted.bind_ok.mp hrules
    exact ih (List.forall_mem_cons.mp h).2 hrules frames

theorem Sheet.parse_readFrom {source : String} {rules : List Rule}
    (h : (Sheet.parse source).result = .ok rules) (frames : List Wrapper) :
    ∀ l ∈ Rule.leavesAll frames rules,
      l.rule.ReadFrom (Token.atomsAll (Token.ofText source)) :=
  Sheet.ofStatements_readFrom (Statement.atoms_listOfTokens true _) h frames

end StyleBundle
