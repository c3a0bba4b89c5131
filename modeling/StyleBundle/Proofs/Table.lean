import Mathlib
import StyleBundle.Table

/-!
# StyleBundle.Proofs.Table

Laws of tables. A table in which no key comes twice (`Table.Distinct`) stays so under every change,
and its keys keep their order: an altered key stays where it is, a new one goes to the end.

* `Table.merge f t u`: the entries of `u` put into `t` one after the other, each by `f`. Keys of `t`
  stay where they are and new ones follow in the order of `u` (`keys_merge`, `get?_merge`).
* `merge_alter`: to merge and then alter is to alter and then merge, if the two alterations fit.
* `Table.pushAll`: entries filed under their keys; under every key stand exactly its own entries, in
  their order (`under_pushAll`).
* `Table.concat`: the lists of a table put behind those of another (`under_concat`).
* `foldl_last_write`: steps that write a value or leave it alone come to the last value written. So
  the table of a list of entries holds the last one of each key (`get?_ofList`).
-/

namespace StyleBundle

theorem foldl_last_write {σ α β : Type} {step : σ → α → σ} (view : σ → Option β)
    (write : α → Option β) (h : ∀ s a, view (step s a) = (write a).or (view s)) (s : σ)
    (xs : List α) : view (xs.foldl step s) = (xs.filterMap write).getLast?.or (view s) := by
  induction xs generalizing s with
  | nil => rfl
  | cons x rest ih =>
    rw [List.foldl_cons, ih, h]
    cases hx : write x with
    | none => rw [List.filterMap_cons_none hx, Option.none_or]
    | some v =>
      rw [List.filterMap_cons_some hx, List.getLast?_cons]
      cases (rest.filterMap write).getLast? <;> rfl

namespace Table

variable {α β : Type}

/-- No key comes twice. -/
def Distinct (t : Table α) : Prop := t.keys.Nodup

instance (t : Table α) : Decidable t.Distinct := inferInstanceAs (Decidable t.keys.Nodup)

@[simp] theorem keys_nil : keys ([] : Table α) = [] := rfl

@[simp] theorem keys_cons (e : String × α) (t : Table α) : keys (e :: t) = e.1 :: keys t := rfl

theorem distinct_nil : Distinct ([] : Table α) := List.nodup_nil

theorem distinct_cons {e : String × α} {t : Table α} :
    Distinct (e :: t) ↔ e.1 ∉ keys t ∧ Distinct t := List.nodup_cons

theorem get?_eq_none_iff {key : String} {t : Table α} : get? key t = none ↔ key ∉ keys t := by
  induction t with
  | nil => simp
  | cons e rest ih =>
    obtain ⟨k, v⟩ := e
    by_cases h : k = key
    · simp [get?, h]
    · simp [get?, h, ih, Ne.symm h]

theorem get?_of_mem {key : String} {t : Table α} {v : α} (ht : t.Distinct) (h : (key, v) ∈ t) :
    get? key t = some v := by
  induction t with
  | nil => cases h
  | cons e rest ih =>
    obtain ⟨k, w⟩ := e
    obtain ⟨hk, hrest⟩ := distinct_cons.mp ht
    rcases List.mem_cons.mp h with heq | hmem
    · cases heq
      simp [get?]
    · have hne : k ≠ key := by
        rintro rfl
        exact hk (List.mem_map.mpr ⟨(k, v), hmem, rfl⟩)
      simp only [get?, if_neg hne]
      exact ih hrest hmem

theorem mem_of_get? {key : String} {t : Table α} {v : α} (h : get? key t = some v) :
    (key, v) ∈ t := by
  induction t with
  | nil => cases h
  | cons e rest ih =>
    obtain ⟨k, w⟩ := e
    by_cases hk : k = key
    · subst hk
      simp only [get?, if_pos] at h
      cases h
      exact List.mem_cons_self
    · simp only [get?, if_neg hk] at h
      exact List.mem_cons_of_mem _ (ih h)

theorem get?_put (key k : String) (v : α) (t : Table α) :
    get? key (t.put k v) = (if k = key then some v else none).or (get? key t) := by
  by_cases h : k = key
  · rw [if_pos h, ← h]
    exact get?_alter_self k _ t
  · rw [if_neg h]
    exact get?_alter_of_ne (Ne.symm h) _ t

theorem get?_ofList (entries : List (String × α)) (key : String) :
    get? key (ofList entries) =
      (entries.filterMap fun e => if e.1 = key then some e.2 else none).getLast? := by
  have hrun := foldl_last_write (get? key)
    (fun e : String × α => if e.1 = key then some e.2 else none)
    (fun t e => get?_put key e.1 e.2 t) [] entries
  exact hrun.trans Option.or_none

theorem keys_alter (key : String) (f : Option α → α) (t : Table α) :
    keys (t.alter key f) = if key ∈ keys t then keys t else keys t ++ [key] := by
  induction t with
  | nil => rfl
  | cons e rest ih =>
    obtain ⟨k, v⟩ := e
    by_cases h : k = key
    · simp [alter, h]
    · have hne : ¬ key = k := Ne.symm h
      simp only [alter, if_neg h, keys_cons, ih, List.mem_cons, hne, false_or]
      split <;> rfl

theorem mem_keys_alter {k key : String} {f : Option α → α} {t : Table α} :
    k ∈ keys (t.alter key f) ↔ k ∈ keys t ∨ k = key := by
  rw [keys_alter]
  split
  · rename_i h
    constructor
    · exact .inl
    · rintro (hk | rfl)
      · exact hk
      · exact h
  · simp

theorem forall_alter {R : String → α → Prop} {t : Table α} (h : ∀ e ∈ t, R e.1 e.2)
    {key : String} {f : Option α → α} (hf : ∀ old, (∀ v, old = some v → R key v) → R key (f old)) :
    ∀ e ∈ t.alter key f, R e.1 e.2 := by
  induction t with
  | nil =>
    rw [alter]
    refine List.forall_mem_singleton.mpr (hf none ?_)
    intro v hv
    cases hv
  | cons e rest ih =>
    obtain ⟨k, v⟩ := e
    obtain ⟨hhead, hrest⟩ := List.forall_mem_cons.mp h
    rw [alter]
    split
    · rename_i hk
      subst hk
      refine List.forall_mem_cons.mpr ⟨hf _ ?_, hrest⟩
      rintro _ ⟨⟩
      exact hhead
    · exact List.forall_mem_cons.mpr ⟨hhead, ih hrest⟩

theorem Distinct.alter {t : Table α} (h : t.Distinct) (key : String) (f : Option α → α) :
    (t.alter key f).Distinct := by
  unfold Distinct
  rw [keys_alter]
  split
  · exact h
  · rename_i hk
    refine List.nodup_append.mpr ⟨h, by simp, ?_⟩
    rintro a ha b hb rfl
    rw [List.mem_singleton.mp hb] at ha
    exact hk ha

theorem alter_alter (key : String) (f g : Option α → α) (t : Table α) :
    (t.alter key f).alter key g = t.alter key fun old => g (some (f old)) := by
  induction t with
  | nil => simp [alter]
  | cons e rest ih =>
    obtain ⟨k, v⟩ := e
    by_cases h : k = key
    · simp [alter, h]
    · simp [alter, h, ih]

/-- Alterations of different keys commute if the one that goes first makes no new key. -/
theorem alter_comm {key other : String} (hne : other ≠ key) (f g : Option α → α) {t : Table α}
    (h : key ∈ keys t) : (t.alter other f).alter key g = (t.alter key g).alter other f := by
  induction t with
  | nil => cases h
  | cons e rest ih =>
    obtain ⟨k, v⟩ := e
    by_cases hk : k = key
    · subst hk
      simp [alter, Ne.symm hne]
    · by_cases ho : k = other
      · subst ho
        simp [alter, hk]
      · have hrest : key ∈ keys rest := by
          rcases List.mem_cons.mp h with rfl | h
          · exact absurd rfl hk
          · exact h
        simp [alter, hk, ho, ih hrest]

/-! ## Merging -/

/-- The entries of a table put into another one after the other; `f` makes the new entry of a key
from the old one and the one that is put in. -/
def merge (f : Option α → β → α) (t : Table α) (u : Table β) : Table α :=
  u.foldl (fun t e => t.alter e.1 fun old => f old e.2) t

@[simp] theorem merge_nil (f : Option α → β → α) (t : Table α) : merge f t [] = t := rfl

@[simp] theorem merge_cons (f : Option α → β → α) (t : Table α) (e : String × β) (u : Table β) :
    merge f t (e :: u) = merge f (t.alter e.1 fun old => f old e.2) u := rfl

theorem merge_append (f : Option α → β → α) (t : Table α) (u u' : Table β) :
    t.merge f (u ++ u') = (t.merge f u).merge f u' := List.foldl_append

/-- A table with the entries of another, which count if both have one. -/
def update (t u : Table α) : Table α := merge (fun _ v => v) t u

theorem get?_merge (f : Option α → β → α) {u : Table β} (hu : u.Distinct) (key : String)
    (t : Table α) :
    get? key (t.merge f u) = match get? key u with
      | none => get? key t
      | some v => some (f (get? key t) v) := by
  induction u generalizing t with
  | nil => rfl
  | cons e rest ih =>
    obtain ⟨k, v⟩ := e
    obtain ⟨hk, hrest⟩ := distinct_cons.mp hu
    rw [merge_cons, ih hrest]
    by_cases h : k = key
    · subst h
      simp [get?, get?_eq_none_iff.mpr hk, get?_alter_self]
    · simp [get?, h, get?_alter_of_ne (Ne.symm h)]

theorem keys_merge (f : Option α → β → α) {u : Table β} (hu : u.Distinct) (t : Table α) :
    keys (t.merge f u) = keys t ++ (keys u).filter fun k => k ∉ keys t := by
  induction u generalizing t with
  | nil => simp
  | cons e rest ih =>
    obtain ⟨hk, hrest⟩ := distinct_cons.mp hu
    rw [merge_cons, ih hrest, keys_cons]
    by_cases h : e.1 ∈ keys t
    · simp [keys_alter, h]
    · have hsame : (keys rest).filter (fun k => k ∉ keys t ++ [e.1]) =
          (keys rest).filter fun k => k ∉ keys t := by
        apply List.filter_congr
        intro k hmem
        have hne : k ≠ e.1 := fun heq => hk (heq ▸ hmem)
        simp [hne]
      simp only [keys_alter, if_neg h, hsame]
      simp [h]

/-- What stands under a key is made from the entries of that key alone, in their order. -/
theorem get?_merge_filter (f : Option α → β → α) (u : Table β) (key : String) (t : Table α) :
    get? key (t.merge f u) =
      (u.filter (·.1 = key)).foldl (fun old e => some (f old e.2)) (get? key t) := by
  induction u generalizing t with
  | nil => rfl
  | cons e rest ih =>
    rw [merge_cons, ih]
    by_cases h : e.1 = key
    · simp [h, get?_alter_self]
    · simp [h, get?_alter_of_ne (Ne.symm h)]

/-- New keys come in the order in which they first occur. -/
theorem keys_merge_eraseDups (f : Option α → β → α) (u : Table β) (t : Table α) :
    keys (t.merge f u) = keys t ++ ((keys u).filter fun k => k ∉ keys t).eraseDups := by
  induction u generalizing t with
  | nil => simp
  | cons e rest ih =>
    rw [merge_cons, ih, keys_alter]
    by_cases h : e.1 ∈ keys t
    · simp [h]
    · simp only [h, if_false, keys_cons, List.filter_cons, not_false_eq_true, decide_true, if_true,
        List.eraseDups_cons, List.filter_filter, List.append_assoc, List.singleton_append]
      congr 3
      apply List.filter_congr
      intro k _
      by_cases hk : k = e.1
      · simp [hk]
      · simp [hk]

theorem merge_alter_of_not_mem (f : Option α → β → α) (g : Option α → α) {key : String}
    {u : Table β} (hu : key ∉ keys u) {t : Table α} (ht : key ∈ keys t) :
    (t.merge f u).alter key g = (t.alter key g).merge f u := by
  induction u generalizing t with
  | nil => rfl
  | cons e rest ih =>
    have hne : e.1 ≠ key := fun h => hu (by simp [h])
    have hrest : key ∉ keys rest := fun h => hu (by simp [h])
    rw [merge_cons, merge_cons, ih hrest (mem_keys_alter.mpr (.inl ht)), alter_comm hne _ _ ht]

/-- Merging commutes with altering: `g` alters an entry of the table that is put in as `h` alters
the merged one. -/
theorem merge_alter (f : Option α → β → α) (g : Option β → β) (h : Option α → α) {key : String}
    {u : Table β} (hu : u.Distinct) (hnew : ∀ old, h old = f old (g none))
    (hold : ∀ b, get? key u = some b → ∀ old, h (some (f old b)) = f old (g (some b)))
    (t : Table α) : t.merge f (u.alter key g) = (t.merge f u).alter key h := by
  induction u generalizing t with
  | nil =>
    have hfun : h = fun old => f old (g none) := funext hnew
    rw [hfun]
    rfl
  | cons e rest ih =>
    obtain ⟨k, v⟩ := e
    obtain ⟨hk, hrest⟩ := distinct_cons.mp hu
    by_cases heq : k = key
    · subst heq
      have hfun : (fun old => h (some (f old v))) = fun old => f old (g (some v)) :=
        funext (hold v (by simp [get?]))
      rw [merge_cons, merge_alter_of_not_mem f h hk (mem_keys_alter.mpr (.inr rfl)), alter_alter,
        hfun]
      simp [alter]
    · have hold' : ∀ b, get? key rest = some b →
          ∀ old, h (some (f old b)) = f old (g (some b)) := by
        intro b hb
        exact hold b (by simpa [get?, heq] using hb)
      simp only [alter, if_neg heq, merge_cons]
      exact ih hrest hold' _

theorem update_put {u : Table α} (hu : u.Distinct) (key : String) (value : α) (t : Table α) :
    t.update (u.put key value) = (t.update u).put key value :=
  merge_alter _ _ _ hu (fun _ => rfl) (fun _ _ _ => rfl) t

/-! ## Filing -/

/-- Files items under their keys, one after the other. -/
def pushAll (t : Table (List β)) (entries : List (String × β)) : Table (List β) :=
  entries.foldl (fun t e => t.push e.1 e.2) t

theorem pushAll_append (t : Table (List β)) (es es' : List (String × β)) :
    t.pushAll (es ++ es') = (t.pushAll es).pushAll es' := List.foldl_append

theorem Distinct.pushAll {t : Table (List β)} (h : t.Distinct) (entries : List (String × β)) :
    (t.pushAll entries).Distinct := by
  induction entries generalizing t with
  | nil => exact h
  | cons e rest ih => exact ih (h.alter _ _)

/-- The items under a key; none if the key is not there. -/
def under (t : Table (List β)) (key : String) : List β := (t.get? key).getD []

@[simp] theorem under_nil (key : String) : under ([] : Table (List β)) key = [] := rfl

theorem under_push (t : Table (List β)) (k key : String) (item : β) :
    (t.push k item).under key = t.under key ++ if k = key then [item] else [] := by
  unfold under push
  by_cases h : k = key
  · subst h
    simp [get?_alter_self]
  · simp [get?_alter_of_ne (Ne.symm h), h]

theorem under_pushAll (t : Table (List β)) (entries : List (String × β)) (key : String) :
    (t.pushAll entries).under key =
      t.under key ++ (entries.filter fun e => e.1 = key).map (·.2) := by
  induction entries generalizing t with
  | nil => simp [pushAll]
  | cons e rest ih =>
    have hstep : t.pushAll (e :: rest) = (t.push e.1 e.2).pushAll rest := rfl
    rw [hstep, ih, under_push]
    by_cases h : e.1 = key
    · simp [h]
    · simp [h]

/-- A table with the items of another behind its own, each changed by `g`. -/
def concat (g : β → β) (t u : Table (List β)) : Table (List β) :=
  merge (fun old items => old.getD [] ++ items.map g) t u

theorem concat_push (g : β → β) {u : Table (List β)} (hu : u.Distinct) (key : String) (item : β)
    (t : Table (List β)) : t.concat g (u.push key item) = (t.concat g u).push key (g item) := by
  refine merge_alter _ _ _ hu ?_ ?_ t
  · intro old
    rfl
  · intro items _ old
    simp

theorem keys_concat (g : β → β) {u : Table (List β)} (hu : u.Distinct) (t : Table (List β)) :
    keys (t.concat g u) = keys t ++ (keys u).filter fun k => k ∉ keys t :=
  keys_merge _ hu t

theorem under_concat (g : β → β) {u : Table (List β)} (hu : u.Distinct) (key : String)
    (t : Table (List β)) : (t.concat g u).under key = t.under key ++ (u.under key).map g := by
  unfold under concat
  rw [get?_merge _ hu]
  cases get? key u with
  | none => simp
  | some items => rfl

end Table

end StyleBundle
