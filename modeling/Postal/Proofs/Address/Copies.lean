import Postal.Proofs.Address.Serialization

/-!
# Copies of addresses

Building cuts and trims street lines, and a record is trimmed member by member
on its way to an address. What an address holds is trimmed and cut already, and
both leave it as it is. So an address comes back unchanged from a draft that
took it over, from its record, and from its street value written as one text.
-/

set_option autoImplicit false

namespace Postal

open Text (Tidy)

theorem filterMap_trimmed? (lines : List Text) (h : ∀ line ∈ lines, Tidy line) :
    lines.filterMap Text.trimmed? = lines := by
  induction lines with
  | nil => rfl
  | cons line lines ih =>
    obtain ⟨hline, hlines⟩ := List.forall_mem_cons.mp h
    rw [List.filterMap_cons_some (Text.trimmed?_of_tidy line hline), ih hlines]

theorem bind_trimmed? (v : Option Text) (h : ∀ t, v = some t → Tidy t) :
    v >>= Text.trimmed? = v := by
  cases v with
  | none => rfl
  | some t => exact Text.trimmed?_of_tidy t (h t rfl)

section
variable (lines : List Text) (h : ∀ line ∈ lines, Tidy line ∧ '\n' ∉ line)
include h

theorem slotLines_join : slotLines (Text.join ['\n'] lines) = lines := by
  by_cases hne : lines = []
  · rw [hne]
    rfl
  · rw [slotLines, Text.splitOn_join '\n' lines hne fun line hl => (h line hl).2]
    exact filterMap_trimmed? lines fun line hl => (h line hl).1

theorem flatMap_slotLines : lines.flatMap slotLines = lines := by
  induction lines with
  | nil => rfl
  | cons line lines ih =>
    obtain ⟨hline, hlines⟩ := List.forall_mem_cons.mp h
    have hone : slotLines line = [line] := slotLines_join [line] (by simpa using hline)
    rw [List.flatMap_cons, hone, ih hlines]
    rfl

end

theorem Address.value_street (a : Address) : a.value .streetAddress =
    if a.lines = [] then none else some (Text.join ['\n'] a.lines) := by
  rw [value, street]
  split <;> simp_all

namespace Draft

theorem build_copyOf (a : Address) (h : a.Trimmed) : (copyOf a).build = a := by
  have hslots : (a.lines.map some).filterMap id = a.lines := by simp
  rw [copyOf_eq, build_eq, hslots, flatMap_slotLines a.lines h.line]

theorem build_set_street (d : Draft) (a : Address) (h : a.Trimmed) :
    (d.set .streetAddress (a.value .streetAddress)).build = { d.build with lines := a.lines } := by
  rw [a.value_street]
  by_cases hl : a.lines = []
  · rw [if_pos hl, hl]
    rfl
  · have hslot : ([some (Text.join ['\n'] a.lines)].filterMap id).flatMap slotLines = a.lines := by
      simp [slotLines_join a.lines h.line]
    rw [if_neg hl, set, setStreet, build_eq, hslot]
    rfl

end Draft

namespace AddressRecord

theorem foldl_set (v : SingleValues) (fields : List Field)
    (hs : ∀ f ∈ fields, f.isSingle = true) (d : Draft) :
    let filled := fields.foldl (fun d f => d.set f (v.get f)) d
    filled.slots = d.slots ∧ filled.language = d.language ∧
      ∀ g, filled.values.get g =
        if g ∈ fields then v.get g >>= Text.trimmed? else d.values.get g := by
  induction fields generalizing d with
  | nil => simp
  | cons f fields ih =>
    obtain ⟨hf, hfields⟩ := List.forall_mem_cons.mp hs
    have hset := Draft.set_of_single d f (v.get f) hf
    obtain ⟨hslots, hlanguage, hvalues⟩ := ih hfields (d.set f (v.get f))
    rw [hset] at hslots hlanguage hvalues
    rw [List.foldl_cons, hset]
    refine ⟨hslots, hlanguage, fun g => ?_⟩
    rw [hvalues g]
    by_cases hg : g ∈ fields
    · simp [hg]
    · by_cases he : g = f
      · subst he
        simp [hg, hf, Draft.setSingle]
      · have hne : f ≠ g := fun h => he h.symm
        simp [hg, he, hne, Draft.setSingle]

theorem mem_singles (f : Field) : f ∈ singles ↔ f.isSingle = true := by
  cases f <;> decide

theorem address_spec (r : AddressRecord) :
    (∀ f, r.address.values.get f = r.values.get f >>= Text.trimmed?) ∧
      r.address.lines = r.lines.flatMap slotLines ∧
      r.address.language = r.language >>= Text.trimmed? := by
  obtain ⟨-, hlanguage, hvalues⟩ := foldl_set r.values singles (fun f => (mem_singles f).mp) {}
  have hsame : r.address.values =
      (singles.foldl (fun (d : Draft) f => d.set f (r.values.get f)) {}).values := by
    rw [address, draft]
    cases r.language <;> rfl
  refine ⟨fun f => ?_, ?_, ?_⟩
  · rw [hsame, hvalues f]
    by_cases hf : f.isSingle = true
    · rw [if_pos ((mem_singles f).mpr hf)]
    · have hf' : f.isSingle = false := by simpa using hf
      simp [mem_singles, hf', SingleValues.get_of_not_single _ f hf']
  · have hslots : (r.lines.map some).filterMap id = r.lines := by simp
    rw [← hslots]
    rfl
  · rw [address, draft]
    cases hl : r.language with
    | none => exact hlanguage
    | some tag => rfl

theorem address_ofAddress (a : Address) (h : a.Trimmed) : (ofAddress a).address = a := by
  obtain ⟨hvalues, hlines, hlanguage⟩ := address_spec (ofAddress a)
  have hsingle : (ofAddress a).address.values = a.values := by
    apply SingleValues.ext_get
    intro f
    rw [hvalues f]
    exact bind_trimmed? _ (h.value f)
  have hline : (ofAddress a).address.lines = a.lines := by
    rw [hlines]
    exact flatMap_slotLines a.lines h.line
  have htag : (ofAddress a).address.language = a.language := by
    rw [hlanguage]
    exact bind_trimmed? _ h.language
  calc (ofAddress a).address
      = ⟨(ofAddress a).address.values, (ofAddress a).address.lines,
          (ofAddress a).address.language⟩ := rfl
    _ = ⟨a.values, a.lines, a.language⟩ := by rw [hsingle, hline, htag]

theorem memberValue?_ne (r : AddressRecord) (m : Member) (value : Json Text)
    (h : r.memberValue? m = some value) : value ≠ .null ∧ value ≠ .array [] := by
  cases m with
  | single f =>
    obtain ⟨t, -, rfl⟩ := Option.map_eq_some_iff.mp h
    simp
  | language =>
    obtain ⟨tag, -, rfl⟩ := Option.map_eq_some_iff.mp h
    simp
  | lines =>
    by_cases hl : r.lines = []
    · simp [memberValue?, hl] at h
    · simp only [memberValue?, hl, if_false, Option.some.injEq] at h
      subst h
      simp [hl]

theorem toJson_members (r : AddressRecord) :
    ∃ written, r.toJson = .object written ∧ ∀ m ∈ written, m.2 ≠ .null ∧ m.2 ≠ .array [] := by
  refine ⟨_, rfl, fun m hm => ?_⟩
  obtain ⟨member, -, hm⟩ := List.mem_filterMap.mp hm
  obtain ⟨value, hv, rfl⟩ := Option.map_eq_some_iff.mp hm
  exact memberValue?_ne r member value hv

end AddressRecord

namespace Address

theorem read?_toJson (a : Address) (h : a.Trimmed) :
    read? (Json.compact a.toJson) = some a ∧ read? (Json.pretty a.toJson) = some a := by
  obtain ⟨hc, hp⟩ := AddressRecord.read?_toJson (AddressRecord.ofAddress a)
  have hsome : some (AddressRecord.ofAddress a).address = some a :=
    congrArg some (AddressRecord.address_ofAddress a h)
  constructor
  · rw [read?, toJson, hc]
    exact hsome
  · rw [read?, toJson, hp]
    exact hsome

/-- An address comes back from every copy of it: from a draft that took it over, from any draft
that took it over and was then given its street value, from its record, and from either printed
form of the record, which leaves out what is absent. All this holds of the address of any record. -/
theorem copies_eq :
    (∀ a : Address, a.Built →
      (Draft.copyOf a).build = a ∧
      (∀ d : Draft, ((d.apply (.copy a)).set .streetAddress (a.value .streetAddress)).build = a) ∧
      (AddressRecord.ofAddress a).address = a ∧
      (∃ written, a.toJson = .object written ∧
        ∀ m ∈ written, m.2 ≠ .null ∧ m.2 ≠ .array []) ∧
      read? (Json.compact a.toJson) = some a ∧ read? (Json.pretty a.toJson) = some a) ∧
    ∀ r : AddressRecord, (AddressRecord.ofAddress r.address).address = r.address ∧
      read? (Json.compact r.address.toJson) = some r.address ∧
      read? (Json.pretty r.address.toJson) = some r.address := by
  constructor
  · intro a ha
    have h := ha.trimmed
    have hcopy := Draft.build_copyOf a h
    refine ⟨hcopy, fun d => ?_, AddressRecord.address_ofAddress a h,
      AddressRecord.toJson_members (AddressRecord.ofAddress a), a.read?_toJson h⟩
    have htaken : d.apply (.copy a) = Draft.copyOf a := rfl
    rw [htaken, Draft.build_set_street (Draft.copyOf a) a h, hcopy]
  · intro r
    have h := r.trimmed_address
    exact ⟨AddressRecord.address_ofAddress r.address h, r.address.read?_toJson h⟩

theorem copies_eq_escaped :
    ∃ a : Address, a.Built ∧ a.value .recipient = some "A\n\"\x01B".toList ∧
      a.lines = [['1'], ['2', '\\'], ['3']] ∧
      Json.compact a.toJson = ("\x7b\"address_lines\":[\"1\",\"2\\\\\",\"3\"],".toList ++
        "\"recipient\":\"A\\n\\\"\\u0001B\"\x7d".toList) ∧
      read? (Json.compact a.toJson) = some a ∧
      ((Draft.apply { slots := [some ['x'], none] } (.copy a)).set .streetAddress
        (a.value .streetAddress)).build = a := by
  have ha := Built.drafted [.single .recipient " A\n\"\x01B".toList, .street "1\n 2\\".toList,
    .addLine "\n3".toList] (by simp)
  obtain ⟨-, hstreet, -, -, hread, -⟩ := copies_eq.1 _ ha
  exact ⟨_, ha, rfl, rfl, by decide, hread, hstreet _⟩

end Address
end Postal
