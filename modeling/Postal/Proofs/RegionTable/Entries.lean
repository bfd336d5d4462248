import Postal.Proofs.RegionTable.Loaders

/-!
# What a table answers

A table made of entries answers from their texts alone. The text that counts for a region is the
last one under its code, and for the region `CQ` without a text of its own the last one of `GG`.
The alias is one of whole records: a text of its own hides every key of the other. No table is
made if any text is at fault, even one that a later entry would have replaced.
-/

set_option autoImplicit false

namespace Postal.RegionTable

open TextMap (LastGiven)

/-! ## Faults -/

def IsObject (text : Text) : Prop := ∃ members, Json.read? text = some (.object members)

inductive Fault (region text : Text) : MetadataError → Prop where
  | invalidJson (h : Json.read? text = none) : Fault region text (.invalidJson region)
  | notAnObject (value : Json Text) (h : Json.read? text = some value)
      (other : ∀ members, value ≠ .object members) : Fault region text (.notAnObject region)

/-- The fault of an entry behind entries without one. -/
def FirstFault (entries : List (Text × Text)) (e : MetadataError) : Prop :=
  ∃ before region text after, entries = before ++ (region, text) :: after ∧
    (∀ entry ∈ before, IsObject entry.2) ∧ Fault region text e

theorem readEntry_of_object (region text : Text) (members : RegionRecord)
    (h : Json.read? text = some (.object members)) : readEntry region text = .ok members := by
  rw [readEntry, readValue, h]
  rfl

theorem readEntry_of_fault (region text : Text) (e : MetadataError) (h : Fault region text e) :
    readEntry region text = .error e := by
  cases h with
  | invalidJson h =>
    rw [readEntry, readValue, h]
    rfl
  | notAnObject value h other =>
    rw [readEntry, readValue, h]
    cases value with
    | object members => exact absurd rfl (other members)
    | _ => rfl

theorem isObject_or_fault (region text : Text) : IsObject text ∨ ∃ e, Fault region text e := by
  cases h : Json.read? text with
  | none => exact .inr ⟨_, .invalidJson h⟩
  | some value =>
    cases value with
    | object members => exact .inl ⟨members, h⟩
    | _ => exact .inr ⟨_, .notAnObject _ h fun members he => by cases he⟩

theorem readEntry_eq_error (region text : Text) (e : MetadataError) :
    readEntry region text = .error e ↔ Fault region text e := by
  refine ⟨fun h => ?_, readEntry_of_fault region text e⟩
  rcases isObject_or_fault region text with ⟨members, ho⟩ | ⟨e', hf⟩
  · rw [readEntry_of_object region text members ho] at h
    cases h
  · rw [readEntry_of_fault region text e' hf] at h
    cases h
    exact hf

theorem exists_readEntry_ok (region text : Text) :
    (∃ record, readEntry region text = .ok record) ↔ IsObject text := by
  refine ⟨?_, fun ⟨members, h⟩ => ⟨members, readEntry_of_object region text members h⟩⟩
  rintro ⟨record, h⟩
  refine (isObject_or_fault region text).resolve_right fun ⟨e, hf⟩ => ?_
  rw [readEntry_of_fault region text e hf] at h
  cases h

theorem firstFault_cons (entry : Text × Text) (rest : List (Text × Text)) (e : MetadataError) :
    FirstFault (entry :: rest) e ↔
      Fault entry.1 entry.2 e ∨ IsObject entry.2 ∧ FirstFault rest e := by
  constructor
  · rintro ⟨before, region, text, after, he, hbefore, hf⟩
    cases before with
    | nil =>
      cases he
      exact .inl hf
    | cons first before =>
      cases he
      obtain ⟨ho, hbefore⟩ := List.forall_mem_cons.mp hbefore
      exact .inr ⟨ho, before, region, text, after, rfl, hbefore, hf⟩
  · rintro (hf | ⟨ho, before, region, text, after, rfl, hbefore, hf⟩)
    · exact ⟨[], entry.1, entry.2, rest, rfl, fun _ h => absurd h List.not_mem_nil, hf⟩
    · exact ⟨entry :: before, region, text, after, rfl,
        List.forall_mem_cons.mpr ⟨ho, hbefore⟩, hf⟩

theorem readEntries_eq_error (entries : List (Text × Text)) (e : MetadataError) :
    readEntries entries = .error e ↔ FirstFault entries e := by
  induction entries with
  | nil =>
    refine iff_of_false (fun h => by cases h) ?_
    rintro ⟨before, region, text, after, he, -⟩
    simp at he
  | cons entry rest ih =>
    obtain ⟨region, text⟩ := entry
    rw [firstFault_cons, readEntries, bind_eq_error, readEntry_eq_error, ← ih,
      ← exists_readEntry_ok region]
    apply or_congr_right
    constructor
    · rintro ⟨record, hr, h⟩
      rcases (bind_eq_error _ _ _).mp h with h | ⟨more, -, h⟩
      · exact ⟨⟨record, hr⟩, h⟩
      · cases h
    · rintro ⟨⟨record, hr⟩, h⟩
      exact ⟨record, hr, (bind_eq_error _ _ _).mpr (.inl h)⟩

theorem ofEntries_eq_error (entries : List (Text × Text)) (e : MetadataError) :
    ofEntries entries = .error e ↔ FirstFault entries e := by
  rw [← readEntries_eq_error, ofEntries, bind_eq_error]
  refine or_iff_left ?_
  rintro ⟨records, -, h⟩
  cases h

theorem exists_firstFault (entries : List (Text × Text)) :
    (∃ e, FirstFault entries e) ↔ ∃ entry ∈ entries, ¬IsObject entry.2 := by
  constructor
  · rintro ⟨e, before, region, text, after, rfl, -, hf⟩
    refine ⟨(region, text), by simp, fun ho => ?_⟩
    obtain ⟨record, hr⟩ := (exists_readEntry_ok region text).mpr ho
    rw [readEntry_of_fault region text e hf] at hr
    cases hr
  · rintro ⟨entry, he, hn⟩
    induction entries with
    | nil => cases he
    | cons first rest ih =>
      rcases isObject_or_fault first.1 first.2 with ho | ⟨e, hf⟩
      · have hrest : entry ∈ rest := (List.mem_cons.mp he).resolve_left fun h => hn (h ▸ ho)
        obtain ⟨e, h⟩ := ih hrest
        exact ⟨e, (firstFault_cons first rest e).mpr (.inr ⟨ho, h⟩)⟩
      · exact ⟨e, (firstFault_cons first rest e).mpr (.inl hf)⟩

/-! ## Answers -/

def objectOf (text : Text) : RegionRecord :=
  match Json.read? text with
  | some (.object members) => members
  | _ => []

theorem read?_of_isObject (text : Text) (h : IsObject text) :
    Json.read? text = some (.object (objectOf text)) := by
  obtain ⟨members, h⟩ := h
  rw [objectOf, h]

/-- The last text of the region, or where it has none and is `CQ`, the last one of `GG`. -/
def Supplies (entries : List (Text × Text)) (region text : Text) : Prop :=
  LastGiven entries region text ∨
    (∀ entry ∈ entries, entry.1 ≠ region) ∧ region = "CQ".toList ∧
      LastGiven entries "GG".toList text

def source? (entries : List (Text × Text)) (region : Text) : Option Text :=
  entries.reverse.lookup region <|>
    (aliases.lookup region).bind fun code => entries.reverse.lookup code

theorem lookup_aliases (region code : Text) :
    aliases.lookup region = some code ↔ region = "CQ".toList ∧ "GG".toList = code := by
  by_cases h : region = "CQ".toList
  · rw [h, aliases, List.lookup_cons_self, Option.some_inj, and_iff_right rfl]
  · rw [aliases, TextMap.lookup_cons_of_ne region _ _ [] h]
    exact iff_of_false (fun he => by cases he) fun he => h he.1

theorem source?_eq_some (entries : List (Text × Text)) (region text : Text) :
    source? entries region = some text ↔ Supplies entries region text := by
  rw [source?, Option.orElse_eq_some, TextMap.lookup_reverse_eq_some,
    TextMap.lookup_reverse_eq_none, Option.bind_eq_some_iff]
  simp only [lookup_aliases, TextMap.lookup_reverse_eq_some, Supplies, and_assoc, exists_and_left,
    exists_eq_left']

theorem record?_objects (entries : List (Text × Text)) (region : Text) :
    (ofRecords (entries.map fun e => (e.1, objectOf e.2))).record? region =
      (source? entries region).map objectOf := by
  have hlookup : ∀ code, (entries.map fun e => (e.1, objectOf e.2)).reverse.lookup code =
      (entries.reverse.lookup code).map objectOf := fun code => by
    rw [← List.map_reverse, TextMap.lookup_map]
  rw [record?_ofRecords, source?]
  simp only [hlookup, Option.orElse_eq_orElse, Option.orElse_eq_or, Option.map_or]
  cases aliases.lookup region <;> rfl

theorem ofEntries_eq_ok_objects (entries : List (Text × Text)) (table : RegionTable)
    (h : ofEntries entries = .ok table) :
    (∀ e ∈ entries, IsObject e.2) ∧
      table = ofRecords (entries.map fun e => (e.1, objectOf e.2)) := by
  have hall : ∀ e ∈ entries, IsObject e.2 := fun e he =>
    (exists_readEntry_ok e.1 e.2).mp ⟨_, ((ofEntries_eq_ok entries table).mp h).1 e he⟩
  have htable := ofEntries_objects entries objectOf fun e he => read?_of_isObject e.2 (hall e he)
  rw [h] at htable
  exact ⟨hall, Except.ok.inj htable⟩

theorem supplies_mem (entries : List (Text × Text)) (region text : Text)
    (h : Supplies entries region text) : ∃ e ∈ entries, e.2 = text := by
  rcases h with ⟨before, after, rfl, -⟩ | ⟨-, -, before, after, rfl, -⟩
  · exact ⟨(region, text), by simp, rfl⟩
  · exact ⟨("GG".toList, text), by simp, rfl⟩

theorem lookup?_eq_some (members : RegionRecord) (name : Text) (value : Json Text) :
    Json.lookup? name members = some value ↔ LastGiven members name value := by
  rw [Json.lookup?_eq_get?, TextMap.get?_ofList, TextMap.lookup_reverse_eq_some]

theorem string?_eq_some (value : Json Text) (text : Text) :
    value.string? = some text ↔ value = .string text := by
  cases value <;> simp [Json.string?]

theorem text?_eq_some (record : RegionRecord) (k : RegionKey) (text : Text) :
    record.text? k = some text ↔ LastGiven record k.name (.string text) := by
  rw [← lookup?_eq_some]
  constructor
  · intro h
    obtain ⟨value, hv, ht⟩ := Option.bind_eq_some_iff.mp h
    rw [hv, (string?_eq_some value text).mp ht]
  · intro h
    exact Option.bind_eq_some_iff.mpr ⟨_, h, rfl⟩

theorem get?_objects (entries : List (Text × Text)) (hall : ∀ e ∈ entries, IsObject e.2)
    (region : Text) (k : RegionKey) (text : Text) :
    (ofRecords (entries.map fun e => (e.1, objectOf e.2))).get? region k = some text ↔
      ∃ source members, Supplies entries region source ∧
        Json.read? source = some (.object members) ∧ LastGiven members k.name (.string text) := by
  have hrecord := record?_objects entries region
  simp only [← source?_eq_some]
  cases hs : source? entries region with
  | none =>
    rw [hs, Option.map_none] at hrecord
    rw [get?_of_record?_eq_none _ region hrecord k]
    simp
  | some source =>
    rw [hs, Option.map_some] at hrecord
    obtain ⟨e, he, rfl⟩ := supplies_mem entries region source ((source?_eq_some _ _ _).mp hs)
    rw [get?_of_record? _ region _ hrecord k, text?_eq_some]
    simp [read?_of_isObject e.2 (hall e he)]

theorem codes_ofRecords_sorted (records : List (Text × RegionRecord)) :
    (ofRecords records).codes.Pairwise (· < ·) :=
  List.pairwise_map.mpr (TextMap.sorted_sortedEntries records)

/-- Entries fail to make a table exactly if a text among them is no object, and with the fault of
the first such text. The table that they make finds the string under a key in the text that counts
for the region, the record of a region if there is such a text, and every code once, in order. -/
theorem ofEntries_answers (entries : List (Text × Text)) :
    ((∃ e, ofEntries entries = .error e) ↔ ∃ entry ∈ entries, ¬IsObject entry.2) ∧
    (∀ e, ofEntries entries = .error e ↔ FirstFault entries e) ∧
    ∀ table, ofEntries entries = .ok table →
      (∀ region k text, table.get? region k = some text ↔
        ∃ source members, Supplies entries region source ∧
          Json.read? source = some (.object members) ∧ LastGiven members k.name (.string text)) ∧
      (∀ region, table.contains region = true ↔ ∃ source, Supplies entries region source) ∧
      table.codes.Pairwise (· < ·) ∧
      (∀ code, code ∈ table.codes ↔ ∃ entry ∈ entries, entry.1 = code) ∧
      table.size = table.codes.length := by
  refine ⟨by simp only [ofEntries_eq_error, exists_firstFault], ofEntries_eq_error entries, ?_⟩
  intro table h
  obtain ⟨hall, rfl⟩ := ofEntries_eq_ok_objects entries table h
  refine ⟨get?_objects entries hall, fun region => ?_, codes_ofRecords_sorted _, fun code => ?_,
    TextMap.size_eq_length_keys _⟩
  · rw [contains, record?_objects, Option.isSome_map, Option.isSome_iff_exists]
    simp only [source?_eq_some]
  · rw [codes, ofRecords, TextMap.mem_keys_ofList]
    simp

/-- A code given twice, a member given twice, the record of `GG` under its alias, and the first of
two faults. -/
theorem ofEntries_answers_replaced :
    let entries := [("US".toList, "\x7b\"fmt\":\"%A\"\x7d".toList),
      ("GG".toList, "\x7b\"fmt\":\"%A\"\x7d".toList),
      ("US".toList, "\x7b\"lang\":null,\"lang\":\"en\"\x7d".toList)]
    (∃ table, ofEntries entries = .ok table ∧ table.get? "CQ".toList .fmt = some "%A".toList ∧
      table.get? "US".toList .lang = some "en".toList ∧ table.contains "CQ".toList = true) ∧
      ofEntries (entries ++ [("AT".toList, "[]".toList), ("DE".toList, [])]) =
        .error (.notAnObject "AT".toList) := by
  have hfmt : Json.read? "\x7b\"fmt\":\"%A\"\x7d".toList =
      some (.object [("fmt".toList, .string "%A".toList)]) := by cbv
  have hlang : Json.read? "\x7b\"lang\":null,\"lang\":\"en\"\x7d".toList =
      some (.object [("lang".toList, .null),
        ("lang".toList, .string "en".toList)]) := by cbv
  have hlist : Json.read? "[]".toList = some (.array []) := by cbv
  intro entries
  have hall : ∀ entry ∈ entries, IsObject entry.2 := by
    simp only [entries, List.forall_mem_cons]
    exact ⟨⟨_, hfmt⟩, ⟨_, hfmt⟩, ⟨_, hlang⟩, fun _ h => absurd h List.not_mem_nil⟩
  have hcq : Supplies entries "CQ".toList "\x7b\"fmt\":\"%A\"\x7d".toList :=
    .inr ⟨by decide, rfl, [entries[0]], [entries[2]], rfl, by decide⟩
  have hus : Supplies entries "US".toList "\x7b\"lang\":null,\"lang\":\"en\"\x7d".toList :=
    .inl ⟨[entries[0], entries[1]], [], rfl, by decide⟩
  constructor
  · obtain ⟨hfails, -, hanswers⟩ := ofEntries_answers entries
    cases h : ofEntries entries with
    | error e =>
      obtain ⟨entry, he, hn⟩ := hfails.mp ⟨e, h⟩
      exact absurd (hall entry he) hn
    | ok table =>
      obtain ⟨hget, hcontains, -⟩ := hanswers table h
      exact ⟨table, rfl, (hget _ _ _).mpr ⟨_, _, hcq, hfmt, [], [], rfl, by decide⟩,
        (hget _ _ _).mpr ⟨_, _, hus, hlang, [_], [], rfl, by decide⟩, (hcontains _).mpr ⟨_, hcq⟩⟩
  · have hother : ∀ members, Json.array ([] : List (Json Text)) ≠ .object members :=
      fun members h => by cases h
    exact ((ofEntries_answers _).2.1 _).mpr ⟨entries, "AT".toList, "[]".toList,
      [("DE".toList, [])], rfl, hall, .notAnObject _ hlist hother⟩

end Postal.RegionTable
