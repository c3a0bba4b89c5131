import StyleBundle.Bundle.Basic
import StyleBundle.Proofs.Filing

/-!
# StyleBundle.Proofs.Compilation

A compilation in its parts: the source is read, the options come to settings, the rules are
extracted under the settings, and the rule sets are arranged.

* `Bundle.compile_result`: compiling under settings, by the extraction.
* `Bundle.ofRules_result`: compiling under options, by the settings that they come to.
* `Bundle.ofParsed_result`: compiling a source, by the rules that it is read into.
* `Bundle.ofSource_of_settings`: options that come to settings compile a source as the settings do.
-/

namespace StyleBundle

/-! ## Options -/

theorem Options.of_settings {o : Options} {c : Settings} (h : o.settings = .ok c) :
    c.classifier = o.classifier ∧ c.read = o.read := by
  unfold settings at h
  split at h
  · cases h
    exact ⟨rfl, rfl⟩
  · cases h

/-! ## Bundles -/

namespace Bundle

section Compile

variable {c : Settings} {s : State} {rules : List Rule} {b : Bundle}

theorem compile_result (c : Settings) (s : State) (rules : List Rule) :
    (compile c s rules).result = (s.extractAll c {} rules).failure.elim
      (.ok (ofState (s.extractAll c {} rules).state)) .error := by
  unfold compile
  simp only [bind, Noted.bind, Noted.take, Noted.withNotes]
  cases (s.extractAll c {} rules).failure <;> rfl

theorem compile_of_ok (h : (s.extractAll c {} rules).failure = none) :
    (compile c s rules).result =
      .ok (ofState (s.extractAll c {} rules).state) := by
  rw [compile_result, h, Option.elim_none]

theorem of_compile (h : (compile c s rules).result = .ok b) :
    b = ofState (s.extractAll c {} rules).state := by
  rw [compile_result] at h
  cases hfailure : (s.extractAll c {} rules).failure with
  | some e =>
    rw [hfailure] at h
    cases h
  | none =>
    rw [hfailure] at h
    cases h
    rfl

end Compile

theorem ofRules_result (o : Options) (rules : List Rule) :
    (ofRules o rules).result = o.settings.bind fun c =>
      (compile c (start o) rules).result.map (arranged o.arrange) := by
  unfold ofRules
  cases o.settings with
  | error e => rfl
  | ok c =>
    simp only [bind, Noted.bind, Noted.ofExcept, Noted.withNotes, Except.bind]
    cases (compile c (start o) rules).result <;> rfl

/-- What options compile to is arranged from what the settings compile to that they come to. -/
theorem of_ofRules {o : Options} {rules : List Rule} {b : Bundle}
    (h : (ofRules o rules).result = .ok b) :
    ∃ c b', o.settings = .ok c ∧ (compile c (start o) rules).result = .ok b' ∧
      b = b'.arranged o.arrange := by
  rw [ofRules_result] at h
  cases hc : o.settings with
  | error e =>
    rw [hc] at h
    cases h
  | ok c =>
    rw [hc, Except.bind] at h
    cases hb : (compile c (start o) rules).result with
    | error e =>
      rw [hb] at h
      cases h
    | ok b' =>
      rw [hb] at h
      cases h
      exact ⟨c, b', rfl, hb, rfl⟩

theorem ofParsed_result (compile : List Rule → Noted Error Bundle) (source : String) :
    (ofParsed compile source).result =
      ((Sheet.parse source).result.mapError Error.source).bind fun rules =>
        (compile rules).result := by
  unfold ofParsed
  simp only [bind, Noted.bind, Noted.mapError]
  cases (Sheet.parse source).result <;> rfl

theorem ofParsed_of_parse {source : String} {rules : List Rule}
    (h : (Sheet.parse source).result = .ok rules) (compile : List Rule → Noted Error Bundle) :
    (ofParsed compile source).result = (compile rules).result := by
  rw [ofParsed_result, h]
  rfl

theorem of_ofParsed {compile : List Rule → Noted Error Bundle} {source : String} {b : Bundle}
    (h : (ofParsed compile source).result = .ok b) :
    ∃ rules, (Sheet.parse source).result = .ok rules ∧ (compile rules).result = .ok b := by
  rw [ofParsed_result] at h
  cases hparse : (Sheet.parse source).result with
  | error e =>
    rw [hparse] at h
    cases h
  | ok rules =>
    rw [hparse] at h
    exact ⟨rules, rfl, h⟩

theorem ofSource_of_settings {o : Options} {c : Settings} (hc : o.settings = .ok c)
    (source : String) :
    (ofSource o source).result =
      (ofParsed (compile c (start o)) source).result.map (arranged o.arrange) := by
  rw [ofSource, ofParsed_result, ofParsed_result]
  cases (Sheet.parse source).result with
  | error e => rfl
  | ok rules =>
    simp only [Except.mapError, Except.bind, ofRules_result, hc]

theorem ofSource_of_unarranged {o : Options} {c : Settings} (hc : o.settings = .ok c)
    (harrange : o.arrange = id) (source : String) :
    (ofSource o source).result = (ofParsed (compile c (start o)) source).result := by
  rw [ofSource_of_settings hc, harrange]
  cases (ofParsed (compile c (start o)) source).result <;> rfl

end Bundle

end StyleBundle
