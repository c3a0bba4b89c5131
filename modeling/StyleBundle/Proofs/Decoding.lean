import Mathlib
import StyleBundle.Bundle.Encode

/-!
# StyleBundle.Proofs.Decoding

Declarations read back from their JSON. Plain values are scalars, lists and calls, to any depth;
their JSON tells them apart, down to the deferral of calls inside and to the two kinds of
numbers.

* `Value.isPlain`: the values that can be read back.
* `Json.value?`, `Json.target?`, `StyleDeclaration.ofJson?`: reading back.
* `value?_eq_some_iff`: what is read back is exactly what plain values become.
* `toJson_lossless`: the same of whole declarations, so that no two of them become the same.
-/

namespace StyleBundle

namespace Value

mutual

/-- Whether a value is made of scalars, lists and calls only, whatever its depth. -/
def isPlain : Value → Bool
  | .null | .bool _ | .int _ | .double _ | .text _ => true
  | .list items => arePlain items
  | .call _ args _ => arePlain args
  | .time _ | .easing _ _ | .map _ | .layer _ _ _ _ _ => false

def arePlain : List Value → Bool
  | [] => true
  | v :: rest => v.isPlain && arePlain rest

end

end Value

namespace Json

mutual

/-- The plain value that a document stands for. -/
def value? : Json → Option Value
  | .null => some .null
  | .bool b => some (.bool b)
  | .int n => some (.int n)
  | .double d => some (.double d)
  | .text s => some (.text s)
  | .array items => (values? items).map .list
  | .object [("fn", .text name), ("args", .array items)] =>
    (values? items).map fun args => .call name args false
  | .object [("fn", .text name), ("args", .array items), ("delay", .bool true)] =>
    (values? items).map fun args => .call name args true
  | _ => none

def values? : List Json → Option (List Value)
  | [] => some []
  | j :: rest =>
    match j.value?, values? rest with
    | some v, some vs => some (v :: vs)
    | _, _ => none

end

def texts? : List Json → Option (List String)
  | [] => some []
  | .text s :: rest => (texts? rest).map (s :: ·)
  | _ => none

/-- The target that a document stands for: a name is text, a path a list of texts. -/
def target? : Json → Option Target
  | .text name => some (.bare name)
  | .array steps => (texts? steps).map .path
  | _ => none

end Json

namespace StyleDeclaration

def ofParts? (value target : Json) (deferred : Bool) : Option StyleDeclaration :=
  match value.value?, target.target? with
  | some v, some t => some { value := v, target := t, deferred }
  | _, _ => none

/-- The declaration that a document stands for; `true` at the end says that it is deferred. -/
def ofJson? : Json → Option StyleDeclaration
  | .array [value, target] => ofParts? value target false
  | .array [value, target, .bool true] => ofParts? value target true
  | _ => none

end StyleDeclaration

/-! ## Values -/

mutual

/-- A plain value becomes a document that is read back as the value. -/
theorem Value.value?_toJson :
    ∀ v : Value, v.isPlain = true → ∃ j, v.toJson = .ok j ∧ j.value? = some v
  | .null, _ => ⟨.null, rfl, rfl⟩
  | .bool b, _ => ⟨.bool b, rfl, rfl⟩
  | .int n, _ => ⟨.int n, rfl, rfl⟩
  | .double d, _ => ⟨.double d, rfl, rfl⟩
  | .text s, _ => ⟨.text s, rfl, rfl⟩
  | .list items, h => by
    obtain ⟨js, hjs, hback⟩ := Value.values?_toJsons items h
    exact ⟨.array js, by rw [toJson, hjs], by rw [Json.value?, hback]; rfl⟩
  | .call name args deferred, h => by
    obtain ⟨js, hjs, hback⟩ := Value.values?_toJsons args h
    refine ⟨callObject name js deferred, by rw [toJson, hjs], ?_⟩
    cases deferred with
    | false => simp [callObject, Json.value?, hback]
    | true => simp [callObject, Json.value?, hback]
  | .time _, h => by cases h
  | .easing _ _, h => by cases h
  | .map _, h => by cases h
  | .layer _ _ _ _ _, h => by cases h

theorem Value.values?_toJsons :
    ∀ vs : List Value, Value.arePlain vs = true →
      ∃ js, Value.toJsons vs = .ok js ∧ Json.values? js = some vs
  | [], _ => ⟨[], rfl, rfl⟩
  | v :: rest, h => by
    rw [arePlain, Bool.and_eq_true] at h
    obtain ⟨j, hj, hv⟩ := Value.value?_toJson v h.1
    obtain ⟨js, hjs, hrest⟩ := Value.values?_toJsons rest h.2
    exact ⟨j :: js, by rw [toJsons, hj, hjs], by rw [Json.values?, hv, hrest]⟩

end

/-- Only what plain values become is read back; by induction along the reading. -/
theorem Json.toJson_of_value? :
    (∀ (j : Json) (v : Value), j.value? = some v → v.isPlain = true ∧ v.toJson = .ok j) ∧
    ∀ (js : List Json) (vs : List Value), Json.values? js = some vs →
      Value.arePlain vs = true ∧ Value.toJsons vs = .ok js := by
  refine Json.value?.mutual_induct _ _ ?null ?bool ?int ?double ?text ?array ?call ?deferred ?other
    ?nil ?cons ?stuck
  case null | bool | int | double | text =>
    intros
    rename_i h
    cases h
    exact ⟨rfl, rfl⟩
  case array =>
    intro items ih v h
    rw [value?, Option.map_eq_some_iff] at h
    obtain ⟨vs, hvs, rfl⟩ := h
    obtain ⟨hplain, hjson⟩ := ih vs hvs
    exact ⟨hplain, by rw [Value.toJson, hjson]⟩
  case call | deferred =>
    intro name items ih v h
    rw [value?, Option.map_eq_some_iff] at h
    obtain ⟨vs, hvs, rfl⟩ := h
    obtain ⟨hplain, hjson⟩ := ih vs hvs
    exact ⟨hplain, by rw [Value.toJson, hjson]; rfl⟩
  case other =>
    intro j hnull hbool hint hdouble htext harray hcall hdeferred v h
    rw [value?] at h
    · cases h
    all_goals assumption
  case nil =>
    intro vs h
    cases h
    exact ⟨rfl, rfl⟩
  case cons =>
    intro j rest v vs hrest hv ihv ihrest us h
    rw [values?, hv, hrest] at h
    cases h
    obtain ⟨hplain, hjson⟩ := ihv v hv
    obtain ⟨hplains, hjsons⟩ := ihrest vs hrest
    exact ⟨by rw [Value.arePlain, hplain, hplains]; rfl, by rw [Value.toJsons, hjson, hjsons]⟩
  case stuck =>
    intro j rest hnone _ _ us h
    rw [values?] at h
    split at h
    · rename_i v vs hv hvs
      exact (hnone v vs hv hvs).elim
    · cases h

theorem Json.value?_eq_some_iff {j : Json} {v : Value} :
    j.value? = some v ↔ v.isPlain = true ∧ v.toJson = .ok j := by
  constructor
  · exact Json.toJson_of_value?.1 j v
  · rintro ⟨hplain, hjson⟩
    obtain ⟨j', hj', hback⟩ := Value.value?_toJson v hplain
    cases hjson.symm.trans hj'
    exact hback

/-! ## Targets -/

theorem Json.texts?_eq_some_iff {js : List Json} {names : List String} :
    texts? js = some names ↔ names.map .text = js := by
  induction js generalizing names with
  | nil => simp [texts?, eq_comm]
  | cons j rest ih =>
    cases j with
    | text s =>
      cases names with
      | nil => simp [texts?]
      | cons name names => simp [texts?, ih, eq_comm, and_comm]
    | _ => cases names <;> simp [texts?]

theorem Json.target?_eq_some_iff {j : Json} {t : Target} : j.target? = some t ↔ t.toJson = j := by
  cases j with
  | text s => cases t <;> simp [target?, Target.toJson, ofTexts, eq_comm]
  | array steps => cases t <;> simp [target?, Target.toJson, ofTexts, texts?_eq_some_iff]
  | _ => cases t <;> simp [target?, Target.toJson, ofTexts]

/-! ## Declarations -/

namespace StyleDeclaration

theorem toJson_eq_ok_iff {d : StyleDeclaration} {j : Json} :
    d.toJson = .ok j ↔ ∃ value, d.value.toJson = .ok value ∧
      .array ([value, d.target.toJson] ++ if d.deferred then [.bool true] else []) = j := by
  unfold toJson
  cases d.value.toJson with
  | error e => simp [bind, Except.bind]
  | ok value => simp [bind, Except.bind, pure, Except.pure]

theorem ofParts?_eq_some_iff {value target : Json} {deferred : Bool} {d : StyleDeclaration} :
    ofParts? value target deferred = some d ↔
      (d.value.isPlain = true ∧ d.value.toJson = .ok value) ∧ d.target.toJson = target ∧
        d.deferred = deferred := by
  rw [← Json.value?_eq_some_iff, ← Json.target?_eq_some_iff, ofParts?]
  obtain ⟨v, t, deferred⟩ := d
  cases value.value? with
  | none => simp
  | some v' =>
    cases target.target? with
    | none => simp
    | some t' => simp [eq_comm]

theorem ofJson?_eq_some_iff {j : Json} {d : StyleDeclaration} :
    ofJson? j = some d ↔ d.value.isPlain = true ∧ d.toJson = .ok j := by
  rw [toJson_eq_ok_iff]
  constructor
  · intro h
    unfold ofJson? at h
    split at h
    · obtain ⟨⟨hplain, hvalue⟩, rfl, hdeferred⟩ := ofParts?_eq_some_iff.mp h
      exact ⟨hplain, _, hvalue, by simp [hdeferred]⟩
    · obtain ⟨⟨hplain, hvalue⟩, rfl, hdeferred⟩ := ofParts?_eq_some_iff.mp h
      exact ⟨hplain, _, hvalue, by simp [hdeferred]⟩
    · cases h
  · rintro ⟨hplain, value, hvalue, rfl⟩
    have hparts := ofParts?_eq_some_iff.mpr ⟨⟨hplain, hvalue⟩, rfl, rfl⟩
    cases hdeferred : d.deferred with
    | false => rwa [hdeferred] at hparts
    | true => rwa [hdeferred] at hparts

/-- A declaration with a plain value always becomes a document, the document is read back as the
declaration, and nothing else is read back. So two such declarations that become the same document
have the same value, the same target and the same deferral. -/
theorem toJson_lossless :
    (∀ d : StyleDeclaration, d.value.isPlain = true → ∃ j, d.toJson = .ok j) ∧
    (∀ j d, ofJson? j = some d ↔ d.value.isPlain = true ∧ d.toJson = .ok j) ∧
    ∀ d e : StyleDeclaration, d.value.isPlain = true → e.value.isPlain = true →
      d.toJson = e.toJson →
        d.value = e.value ∧ d.target = e.target ∧ d.deferred = e.deferred := by
  have htotal (d : StyleDeclaration) (hd : d.value.isPlain = true) : ∃ j, d.toJson = .ok j := by
    obtain ⟨value, hvalue, -⟩ := Value.value?_toJson d.value hd
    exact ⟨_, toJson_eq_ok_iff.mpr ⟨value, hvalue, rfl⟩⟩
  refine ⟨htotal, fun j d => ofJson?_eq_some_iff, ?_⟩
  intro d e hd he hjson
  obtain ⟨j, hj⟩ := htotal d hd
  have hback := ofJson?_eq_some_iff.mpr ⟨hd, hj⟩
  have hback' := ofJson?_eq_some_iff.mpr ⟨he, hjson.symm.trans hj⟩
  cases Option.some.inj (hback.symm.trans hback')
  exact ⟨rfl, rfl, rfl⟩

/-- The deferral of a call deep inside, and the kind of its number, show in the document. -/
theorem toJson_lossless_nested :
    let value (n : Value) (deferred : Bool) : Value :=
      .list [.call "translate" [.call "em" [n] deferred, .list [], .null] false, .bool true]
    let d : StyleDeclaration := { value := value (.int 2) true, target := .path ["transform"] }
    let prompt : StyleDeclaration := { d with value := value (.int 2) false }
    let double : StyleDeclaration :=
      { d with value := value (.double (.finite false (2 * Double.one))) true }
    (d.value.isPlain = true ∧ prompt.value.isPlain = true ∧ double.value.isPlain = true) ∧
    (∃ j, d.toJson = .ok j ∧ ofJson? j = some d) ∧
    d.toJson ≠ prompt.toJson ∧ d.toJson ≠ double.toJson := by
  intro value d prompt double
  obtain ⟨htotal, hread, hinjective⟩ := toJson_lossless
  obtain ⟨j, hj⟩ := htotal d rfl
  refine ⟨⟨rfl, rfl, rfl⟩, ⟨j, hj, (hread j d).mpr ⟨rfl, hj⟩⟩, ?_, ?_⟩
  · intro h
    cases (hinjective d prompt rfl rfl h).1
  · intro h
    cases (hinjective d double rfl rfl h).1

end StyleDeclaration

end StyleBundle
