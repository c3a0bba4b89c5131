import StyleBundle.Declaration.Read
import StyleBundle.Proofs.Parts

/-!
# StyleBundle.Proofs.Containers

The container of a rule. Each use of a property of containers either clears the names, and then they
stay cleared, or it contributes some. Contributed names add up, each once and in the order in which
they first come (`Container.FirstSeen`), as soon as there are two uses; a single use keeps its names
as they are, repeated ones too.

* `Container.distinct_firstSeen`, `Container.FirstSeen.eq`: putting names together gives the one
  list that has them in that order.
* `Container.names_foldl`, `Container.kind_foldl`: what a run of uses comes to.
* `ofInstructions_container`: the container of a rule.
-/

namespace StyleBundle

/-- One use of a property of containers. -/
structure ContainerUse where
  property : String
  setting : ContainerSetting

namespace ContainerUse

/-- Only a property other than the type can clear the names. -/
def Clears (u : ContainerUse) : Prop :=
  u.property ≠ "container-type" ∧ u.setting.cleared = true

instance (u : ContainerUse) : Decidable u.Clears := inferInstanceAs (Decidable (_ ∧ _))

/-- The names of a use that clears none: the default name for the type, and where none is given. -/
def names (u : ContainerUse) : List String :=
  if u.property = "container-type" then [Container.defaultName]
  else u.setting.names.getD [Container.defaultName]

theorem contributed_eq (u : ContainerUse) :
    Container.contributed u.property u.setting =
      if u.Clears then .cleared else .named u.names := by
  obtain ⟨property, names, cleared, kind⟩ := u
  by_cases htype : property = "container-type"
  · simp [Container.contributed, Clears, ContainerUse.names, htype]
  · cases names <;> cases cleared <;>
      simp [Container.contributed, Clears, ContainerUse.names, htype]

end ContainerUse

def Instruction.containerUse? : Instruction → Option ContainerUse
  | .container property setting => some ⟨property, setting⟩
  | _ => none

namespace Container

/-! ## Names in the order in which they first come -/

/-- The names of a list, each once, in the order in which they first come. -/
structure FirstSeen (all names : List String) : Prop where
  nodup : names.Nodup
  mem : ∀ n, n ∈ names ↔ n ∈ all
  order : names.Pairwise fun m n => all.idxOf m < all.idxOf n

theorem FirstSeen.eq {all names names' : List String} (h : FirstSeen all names)
    (h' : FirstSeen all names') : names = names' := by
  have hperm : names.Perm names' := by
    rw [List.perm_ext_iff_of_nodup h.nodup h'.nodup]
    intro n
    rw [h.mem, h'.mem]
  refine hperm.eq_of_pairwise ?_ h.order h'.order
  intro m n _ _ hlt hgt
  omega

theorem firstSeen_self_iff {names : List String} : FirstSeen names names ↔ names.Nodup := by
  constructor
  · intro h
    exact h.nodup
  · intro h
    refine ⟨h, fun n => Iff.rfl, ?_⟩
    rw [List.pairwise_iff_getElem]
    intro i j hi hj hij
    rwa [h.idxOf_getElem i hi, h.idxOf_getElem j hj]

theorem distinct_append (xs ys : List String) :
    distinct (xs ++ ys) =
      ys.foldl (fun seen n => if seen.contains n then seen else seen ++ [n]) (distinct xs) :=
  List.foldl_append

theorem distinct_firstSeen (all : List String) : FirstSeen all (distinct all) := by
  induction all using List.reverseRecOn with
  | nil => exact ⟨List.nodup_nil, fun n => Iff.rfl, List.Pairwise.nil⟩
  | append_singleton all n ih =>
    have hkept : (distinct all).Pairwise fun m m' =>
        (all ++ [n]).idxOf m < (all ++ [n]).idxOf m' := by
      refine ih.order.imp_of_mem ?_
      intro m m' hm hm' hlt
      rwa [List.idxOf_append_of_mem ((ih.mem m).mp hm),
        List.idxOf_append_of_mem ((ih.mem m').mp hm')]
    rw [distinct_append, List.foldl_cons, List.foldl_nil]
    split
    · rename_i hseen
      have hn : n ∈ all := (ih.mem n).mp (by simpa using hseen)
      refine ⟨ih.nodup, ?_, hkept⟩
      intro m
      rw [ih.mem]
      simp only [List.mem_append, List.mem_singleton]
      constructor
      · exact .inl
      · rintro (hm | rfl)
        · exact hm
        · exact hn
    · rename_i hnew
      have hn : n ∉ all := fun hmem => hnew (by simpa using (ih.mem n).mpr hmem)
      refine ⟨?_, ?_, ?_⟩
      · refine List.nodup_append.mpr ⟨ih.nodup, by simp, ?_⟩
        rintro m hm m' hm' rfl
        rw [List.mem_singleton.mp hm'] at hm
        exact hn ((ih.mem n).mp hm)
      · intro m
        simp [ih.mem]
      · refine List.pairwise_append.mpr ⟨hkept, List.pairwise_singleton _ _, ?_⟩
        intro m hm m' hm'
        rw [List.mem_singleton.mp hm', List.idxOf_append_of_mem ((ih.mem m).mp hm),
          List.idxOf_append_of_notMem hn]
        have hlt := List.idxOf_lt_length_of_mem ((ih.mem m).mp hm)
        omega

theorem distinct_of_nodup {names : List String} (h : names.Nodup) : distinct names = names :=
  (distinct_firstSeen names).eq (firstSeen_self_iff.mpr h)

theorem distinct_distinct_append (xs ys : List String) :
    distinct (distinct xs ++ ys) = distinct (xs ++ ys) := by
  rw [distinct_append, distinct_append, distinct_of_nodup (distinct_firstSeen xs).nodup]

/-! ## Runs -/

theorem merge_contributed {names : ContainerNames} {u : ContainerUse} (h : u.Clears) :
    merge names (contributed u.property u.setting) = .cleared := by
  rw [u.contributed_eq, if_pos h]
  cases names <;> rfl

/-- The names after a run of uses. -/
def namesAfter (names : ContainerNames) (us : List ContainerUse) : ContainerNames :=
  us.foldl (fun names u => merge names (contributed u.property u.setting)) names

theorem namesAfter_cleared (us : List ContainerUse) : namesAfter .cleared us = .cleared := by
  induction us with
  | nil => rfl
  | cons u rest ih =>
    have hmerge : merge .cleared (contributed u.property u.setting) = .cleared := by
      cases contributed u.property u.setting <;> rfl
    rw [namesAfter, List.foldl_cons, hmerge]
    exact ih

theorem namesAfter_of_clears {us : List ContainerUse} (h : ∃ u ∈ us, u.Clears)
    (names : ContainerNames) : namesAfter names us = .cleared := by
  obtain ⟨u, hu, hclears⟩ := h
  obtain ⟨before, after, rfl⟩ := List.append_of_mem hu
  rw [namesAfter, List.foldl_append, List.foldl_cons, merge_contributed hclears]
  exact namesAfter_cleared after

theorem namesAfter_named {us : List ContainerUse} (h : ∀ u ∈ us, ¬ u.Clears) (xs : List String) :
    namesAfter (.named (distinct xs)) us = .named (distinct (xs ++ us.flatMap (·.names))) := by
  induction us generalizing xs with
  | nil => simp [namesAfter]
  | cons u rest ih =>
    obtain ⟨hu, hrest⟩ := List.forall_mem_cons.mp h
    have hmerge : merge (.named (distinct xs)) (contributed u.property u.setting) =
        .named (distinct (xs ++ u.names)) := by
      rw [u.contributed_eq, if_neg hu, merge, distinct_distinct_append]
    rw [namesAfter, List.foldl_cons, hmerge, List.flatMap_cons, ← List.append_assoc]
    exact ih hrest (xs ++ u.names)

/-- The first use brings its names as they are; the second is the first to look for repeated
ones. -/
theorem namesAfter_unset {u : ContainerUse} {rest : List ContainerUse}
    (h : ∀ v ∈ u :: rest, ¬ v.Clears) :
    namesAfter .unset (u :: rest) =
      .named (if rest.isEmpty then u.names else distinct ((u :: rest).flatMap (·.names))) := by
  obtain ⟨hu, hrest⟩ := List.forall_mem_cons.mp h
  have hfirst : merge .unset (contributed u.property u.setting) = .named u.names := by
    rw [u.contributed_eq, if_neg hu]
    rfl
  rw [namesAfter, List.foldl_cons, hfirst]
  cases rest with
  | nil => rfl
  | cons v rest =>
    obtain ⟨hv, hrest⟩ := List.forall_mem_cons.mp hrest
    have hsecond : merge (.named u.names) (contributed v.property v.setting) =
        .named (distinct (u.names ++ v.names)) := by
      rw [v.contributed_eq, if_neg hv, merge]
    rw [List.foldl_cons, hsecond]
    simp only [List.isEmpty_cons, Bool.false_eq_true, if_false, List.flatMap_cons,
      ← List.append_assoc]
    exact namesAfter_named hrest (u.names ++ v.names)

def applyUse (c : Container) (u : ContainerUse) : Container := c.apply u.property u.setting

theorem names_foldl (c : Container) (us : List ContainerUse) :
    (us.foldl applyUse c).names = namesAfter c.names us := by
  induction us generalizing c with
  | nil => rfl
  | cons u rest ih => exact ih (c.applyUse u)

theorem kind_foldl (c : Container) (us : List ContainerUse) :
    (us.foldl applyUse c).kind =
      ((us.map (·.setting.kind)).filter (!·.isVacant)).getLast?.getD c.kind := by
  induction us generalizing c with
  | nil => rfl
  | cons u rest ih =>
    rw [List.foldl_cons, ih]
    cases h : u.setting.kind.isVacant with
    | true => simp [applyUse, apply, h]
    | false =>
      simp only [applyUse, apply, h, Bool.false_eq_true, if_false, List.map_cons, List.filter_cons,
        Bool.not_false, if_true, List.getLast?_cons]
      cases ((rest.map (·.setting.kind)).filter (!·.isVacant)).getLast? <;> rfl

end Container

namespace StyleRule

variable (ctx : BuildContext) (specificity : Specificity)

theorem container_eq (is : List Instruction) :
    (ofInstructions ctx specificity is).container =
      if (is.filterMap Instruction.containerUse?).isEmpty then none
      else some ((is.filterMap Instruction.containerUse?).foldl Container.applyUse {}) := by
  have hrun : (ofInstructions ctx specificity is).container =
      (is.filterMap Instruction.containerUse?).foldl
        (fun (c : Option Container) u => some ((c.getD {}).applyUse u)) none := by
    refine Draft.run_settings (k := .container) ctx ?_ { rule := { specificity } } is
    intro c i
    cases i <;> rfl
  rw [hrun, foldl_begun]

/-- The container of a rule, whatever its uses of the properties are. The names are cleared exactly
if a use clears them, wherever it stands. Otherwise they are the contributed names in the order in
which they first come, each once, exactly if there are two uses or no name comes twice; a single use
keeps its names. The type is that of the last use that gives one. -/
theorem ofInstructions_container (is : List Instruction)
    (h : is.filterMap Instruction.containerUse? ≠ []) :
    let uses := is.filterMap Instruction.containerUse?
    let all := uses.flatMap (·.names)
    ∃ c, (ofInstructions ctx specificity is).container = some c ∧
      (c.names = .cleared ↔ ∃ u ∈ uses, u.Clears) ∧
      ((∀ u ∈ uses, ¬ u.Clears) → ∃ names, c.names = .named names ∧
        (Container.FirstSeen all names ↔ 2 ≤ uses.length ∨ all.Nodup) ∧
        (uses.length = 1 → names = all)) ∧
      c.kind = ((uses.map (·.setting.kind)).filter (!·.isVacant)).getLast?.getD .null := by
  intro uses all
  obtain ⟨u, rest, huses⟩ : ∃ u rest, uses = u :: rest := List.exists_cons_of_ne_nil h
  have hnamed (hkept : ∀ u ∈ uses, ¬ u.Clears) :
      (uses.foldl Container.applyUse {}).names =
        .named (if rest.isEmpty then u.names else Container.distinct all) := by
    unfold all
    rw [Container.names_foldl]
    rw [huses] at hkept ⊢
    exact Container.namesAfter_unset hkept
  refine ⟨uses.foldl Container.applyUse {}, ?_, ?_, ?_, Container.kind_foldl {} uses⟩
  · rw [container_eq, if_neg (by simpa using h)]
  · constructor
    · intro hcleared
      by_contra hkept
      rw [hnamed fun u hu hclears => hkept ⟨u, hu, hclears⟩] at hcleared
      cases hcleared
    · intro hclears
      rw [Container.names_foldl]
      exact Container.namesAfter_of_clears hclears _
  · intro hkept
    refine ⟨_, hnamed hkept, ?_⟩
    cases rest with
    | nil =>
      have hall : all = u.names := by simp [all, huses]
      simp [hall, huses, Container.firstSeen_self_iff]
    | cons v rest =>
      simp [huses, Container.distinct_firstSeen]

/-- Three uses with a name that comes twice in the first and again in the last. -/
theorem ofInstructions_container_three :
    ∃ c, (ofInstructions {} {} [
        .container "container-name" { names := some ["b", "a", "b"] },
        .measure .width,
        .container "container-type" { names := some ["c"], kind := .text "size" },
        .container "container" { names := some ["d", "a"] }]).container = some c ∧
      c.names = .named ["b", "a", "___default___", "d"] ∧ c.kind = .text "size" := by
  obtain ⟨c, hc, -, hnames, hkind⟩ := ofInstructions_container {} {} [
    .container "container-name" { names := some ["b", "a", "b"] },
    .measure .width,
    .container "container-type" { names := some ["c"], kind := .text "size" },
    .container "container" { names := some ["d", "a"] }] (by simp [Instruction.containerUse?])
  obtain ⟨names, hnamed, hseen, -⟩ := hnames (by decide)
  refine ⟨c, hc, ?_, hkind⟩
  have hfirst := hseen.mpr (.inl (by decide))
  rw [hnamed, hfirst.eq (Container.distinct_firstSeen _)]
  rfl

/-- A name that a single use repeats stays repeated. -/
theorem single_use_repeats_name :
    let is := Declaration.read ⟨"container-name", "a a"⟩
    let uses := is.filterMap Instruction.containerUse?
    uses.length = 1 ∧ (∀ u ∈ uses, ¬ u.Clears) ∧ uses.flatMap (·.names) = ["a", "a"] ∧
      (ofInstructions {} {} is).container.map (·.names) = some (.named ["a", "a"]) ∧
      ¬ Container.FirstSeen ["a", "a"] ["a", "a"] := by
  refine ⟨by decide +kernel, by decide +kernel, by decide +kernel, by decide +kernel, ?_⟩
  rw [Container.firstSeen_self_iff]
  decide

end StyleRule

end StyleBundle
