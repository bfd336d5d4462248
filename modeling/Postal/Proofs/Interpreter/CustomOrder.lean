import Postal.Proofs.Interpreter.FieldOrder

/-!
# What a custom order may change

Two interpreters over one table are compared. Resolving an order looks at the
options only through the custom order of the region in question, so all other
options, and the custom orders of all other regions, leave it as it is. A custom
order acts before the street address is expanded and only permutes what the
template shows. No field comes in or goes out, and the two line fields, which
are not there yet, cannot be parted.
-/

set_option autoImplicit false

namespace Postal

/-- The line fields stand side by side, and nowhere else. -/
def FieldOrder.LinesTogether (order : List Field) : Prop :=
  ∃ before after, order = before ++ .addressLine1 :: .addressLine2 :: after ∧
    .addressLine1 ∉ before ++ after ∧ .addressLine2 ∉ before ++ after

/-- The template refers to the street address and to neither line field. -/
def Template.NamesStreetAlone (template : Template) : Prop :=
  .field Field.streetAddress.code ∈ template ∧ .field Field.addressLine1.code ∉ template ∧
    .field Field.addressLine2.code ∉ template

instance (template : Template) : Decidable template.NamesStreetAlone :=
  inferInstanceAs (Decidable (_ ∧ _))

theorem FieldOrder.linesTogether_expandStreet (order : List Field) (hs : .streetAddress ∈ order)
    (h1 : .addressLine1 ∉ order) (h2 : .addressLine2 ∉ order) :
    LinesTogether (expandStreet order) := by
  obtain ⟨before, after, rfl, he⟩ := expandStreet_split order hs
  have hpart : ∀ f, f ∉ before ++ .streetAddress :: after → f ∉ before ++ after := by
    intro f hf hm
    apply hf
    rcases List.mem_append.mp hm with hm | hm
    · exact List.mem_append_left _ hm
    · exact List.mem_append_right _ (List.mem_cons_of_mem _ hm)
  exact ⟨before, after, he, hpart _ h1, hpart _ h2⟩

namespace Interpreter

/-- Two resolved orders of one template under the custom orders of its region. -/
structure Rearranged (template : Template) (custom₁ custom₂ order₁ order₂ : List Field) :
    Prop where
  perm : order₁.Perm order₂
  same : custom₁ = custom₂ → order₁ = order₂
  expanded : .streetAddress ∉ order₁ ∧ .streetAddress ∉ order₂
  lines : template.NamesStreetAlone →
    FieldOrder.LinesTogether order₁ ∧ FieldOrder.LinesTogether order₂

theorem fieldOrderOf_congr (i₁ i₂ : Interpreter) (s region : Text)
    (h : i₁.options.order region = i₂.options.order region) :
    i₁.fieldOrderOf s region = i₂.fieldOrderOf s region := by
  simp only [fieldOrderOf, h]

theorem format_congr (i₁ i₂ : Interpreter) (script : Script) (region : Text)
    (h : i₁.table = i₂.table) : i₁.format script region = i₂.format script region := by
  simp only [format, latinFormat?, h]

theorem linesTogether_of_perm (template : Template) (fields order : List Field)
    (hk : template.Known) (hf : FieldOrder.ofTemplate template = .ok fields)
    (hp : order.Perm fields) (h : template.NamesStreetAlone) :
    FieldOrder.LinesTogether (FieldOrder.expandStreet order) := by
  obtain ⟨known, hknown, -, hmem⟩ := ofTemplate_known template hk
  rw [hf] at hknown
  cases hknown
  have hm : ∀ f : Field, f ∈ order ↔ .field f.code ∈ template := fun f => by
    rw [hp.mem_iff, hmem]
  obtain ⟨hs, h1, h2⟩ := h
  exact FieldOrder.linesTogether_expandStreet order ((hm _).mpr hs)
    (fun h => h1 ((hm _).mp h)) fun h => h2 ((hm _).mp h)

theorem fieldOrderOf_rearranged (i₁ i₂ : Interpreter) (h₁ : i₁.options.Distinct)
    (h₂ : i₂.options.Distinct) (s region : Text) (template : Template)
    (h : Template.parseStrict s = .ok template) :
    ∃ order₁ order₂, i₁.fieldOrderOf s region = .ok order₁ ∧
      i₂.fieldOrderOf s region = .ok order₂ ∧
      Rearranged template (i₁.options.order region) (i₂.options.order region) order₁ order₂ := by
  have hk := ((Template.parseStrict_eq_ok s template).mp h).2
  obtain ⟨fields, placed₁, hf, hp₁, hi₁⟩ := fieldOrderOf_perm i₁ h₁ s region template h
  obtain ⟨others, placed₂, hf', hp₂, hi₂⟩ := fieldOrderOf_perm i₂ h₂ s region template h
  obtain ⟨known, hknown, hn, -⟩ := ofTemplate_known template hk
  rw [hf] at hf' hknown
  cases hf'
  cases hknown
  refine ⟨_, _, hi₁, hi₂, ?_, ?_, ?_, ?_⟩
  · exact FieldOrder.expandStreet_perm_of_perm placed₁ placed₂ (hp₁.trans hp₂.symm)
  · intro hcustom
    rw [fieldOrderOf_congr i₁ i₂ s region hcustom, hi₂] at hi₁
    injection hi₁ with he
    exact he.symm
  · constructor
    · exact FieldOrder.streetAddress_notMem_expandStreet placed₁ (hp₁.nodup_iff.mpr hn)
    · exact FieldOrder.streetAddress_notMem_expandStreet placed₂ (hp₂.nodup_iff.mpr hn)
  · intro halone
    constructor
    · exact linesTogether_of_perm template fields placed₁ hk hf hp₁ halone
    · exact linesTogether_of_perm template fields placed₂ hk hf hp₂ halone

theorem fieldOrder_eq_ok (i : Interpreter) (script : Script) (region : Text)
    (order : List Field) : i.fieldOrder script region = .ok order ↔
      ∃ s, i.format script region = .ok s ∧ i.fieldOrderOf s region = .ok order :=
  bind_eq_ok _ _ _

theorem exists_parseStrict_of_fieldOrderOf (i : Interpreter) (s region : Text)
    (order : List Field) (h : i.fieldOrderOf s region = .ok order) :
    ∃ template, Template.parseStrict s = .ok template := by
  obtain ⟨template, ht, -⟩ := (bind_eq_ok _ _ _).mp h
  exact ⟨template, (parseFor_eq_ok region s template).mp ht⟩

theorem rearranged_of_fieldOrder (i₁ i₂ : Interpreter) (htable : i₁.table = i₂.table)
    (h₁ : i₁.options.Distinct) (h₂ : i₂.options.Distinct) (script : Script) (region : Text)
    (order₁ order₂ : List Field) (ho₁ : i₁.fieldOrder script region = .ok order₁)
    (ho₂ : i₂.fieldOrder script region = .ok order₂) :
    ∃ s template, i₁.format script region = .ok s ∧ i₂.format script region = .ok s ∧
      Template.parseStrict s = .ok template ∧
      Rearranged template (i₁.options.order region) (i₂.options.order region) order₁ order₂ := by
  obtain ⟨s, hs, hof₁⟩ := (fieldOrder_eq_ok i₁ script region order₁).mp ho₁
  obtain ⟨s₂, hs₂, hof₂⟩ := (fieldOrder_eq_ok i₂ script region order₂).mp ho₂
  rw [← format_congr i₁ i₂ script region htable, hs] at hs₂
  cases hs₂
  obtain ⟨template, ht⟩ := exists_parseStrict_of_fieldOrderOf i₁ s region order₁ hof₁
  obtain ⟨found₁, found₂, hf₁, hf₂, hr⟩ :=
    fieldOrderOf_rearranged i₁ i₂ h₁ h₂ s region template ht
  rw [hof₁] at hf₁
  rw [hof₂] at hf₂
  cases hf₁
  cases hf₂
  exact ⟨s, template, hs, format_congr i₁ i₂ script region htable ▸ hs, ht, hr⟩

/-- Over one table and under any two options that can be put together, the orders of a template
that can be read, and so the orders of a region, are rearrangements of each other. They are the
same if the region has the same custom order, and always expanded. -/
theorem fieldOrder_rearranged (table : RegionTable) (edits₁ edits₂ : List FormOptions.Edit)
    (i₁ i₂ : Interpreter) (h₁ : build table (FormOptions.run edits₁ {}) = .ok i₁)
    (h₂ : build table (FormOptions.run edits₂ {}) = .ok i₂) :
    (∀ s region template, Template.parseStrict s = .ok template →
      ∃ order₁ order₂, i₁.fieldOrderOf s region = .ok order₁ ∧
        i₂.fieldOrderOf s region = .ok order₂ ∧
        Rearranged template ((FormOptions.run edits₁ {}).order region)
          ((FormOptions.run edits₂ {}).order region) order₁ order₂) ∧
    ∀ script region order₁ order₂, i₁.fieldOrder script region = .ok order₁ →
      i₂.fieldOrder script region = .ok order₂ →
      ∃ s template, i₁.format script region = .ok s ∧ i₂.format script region = .ok s ∧
        Template.parseStrict s = .ok template ∧
        Rearranged template ((FormOptions.run edits₁ {}).order region)
          ((FormOptions.run edits₂ {}).order region) order₁ order₂ := by
  have hempty : FormOptions.Distinct {} := fun entry hm => absurd hm List.not_mem_nil
  have hd₁ := FormOptions.distinct_run edits₁ {} hempty
  have hd₂ := FormOptions.distinct_run edits₂ {} hempty
  obtain ⟨hi₁, -⟩ := build_eq_ok table _ i₁ h₁
  obtain ⟨hi₂, -⟩ := build_eq_ok table _ i₂ h₂
  have ho₁ : i₁.options = FormOptions.run edits₁ {} := by rw [hi₁]
  have ho₂ : i₂.options = FormOptions.run edits₂ {} := by rw [hi₂]
  have htable : i₁.table = i₂.table := by rw [hi₁, hi₂]
  rw [← ho₁] at hd₁ ⊢
  rw [← ho₂] at hd₂ ⊢
  constructor
  · exact fieldOrderOf_rearranged i₁ i₂ hd₁ hd₂
  · exact rearranged_of_fieldOrder i₁ i₂ htable hd₁ hd₂

theorem fieldOrder_rearranged_street :
    ∃ i₁ i₂, build (onlyFormat "%N%n%A%n%C %Z".toList) (FormOptions.run [.order "US".toList
          [.postalCode, .addressLine2, .organization, .streetAddress, .recipient]] {}) = .ok i₁ ∧
      build (onlyFormat "%N%n%A%n%C %Z".toList) (FormOptions.run [.hide .recipient] {}) = .ok i₂ ∧
      ∃ order₁ order₂, i₁.fieldOrder .latin "US".toList = .ok order₁ ∧
        i₂.fieldOrder .latin "US".toList = .ok order₂ ∧
        order₁ = [.postalCode, .addressLine1, .addressLine2, .locality, .recipient] ∧
        order₂ = [.recipient, .addressLine1, .addressLine2, .locality, .postalCode] ∧
        order₁.Perm order₂ ∧ FieldOrder.LinesTogether order₁ := by
  refine ⟨_, _, rfl, rfl, _, _, rfl, rfl, rfl, rfl, ?_⟩
  obtain ⟨s, template, hs, -, ht, hr⟩ := (fieldOrder_rearranged (onlyFormat "%N%n%A%n%C %Z".toList)
    [.order "US".toList [.postalCode, .addressLine2, .organization, .streetAddress, .recipient]]
    [.hide .recipient] _ _ rfl rfl).2 .latin "US".toList _ _ rfl rfl
  obtain rfl : "%N%n%A%n%C %Z".toList = s := Except.ok.inj hs
  obtain rfl : [.field 'N', .newline, .field 'A', .newline, .field 'C', .literal [' '],
    .field 'Z'] = template := Except.ok.inj ht
  exact ⟨hr.perm, (hr.lines (by decide)).1⟩

end Interpreter
end Postal
