import Postal.Address.Draft
import Postal.LookupKey.Edit

/-!
# Taking over one address after another

An address that a key takes over replaces nodes and language. The script is only ever set to
Latin: a tag that does not select Latin leaves what an earlier address has set. So a key used
for several addresses is the key of the last one but for the script, which stays Latin once one
of them had a Latin tag. The text of a data key does not show this, that of a key of examples
does.
-/

set_option autoImplicit false

namespace Postal

theorem Script.name_injective : Function.Injective name := by
  intro s t h
  have hname := ofName?_name s
  rw [h, ofName?_name] at hname
  exact (Option.some.inj hname).symm

namespace LookupKey

def SelectsLatin (a : Address) : Prop := a.language.any Language.isLatin

instance (a : Address) : Decidable (SelectsLatin a) :=
  inferInstanceAs (Decidable (a.language.any Language.isLatin = true))

theorem setAddress_eq (key : LookupKey) (a : Address) : key.setAddress a =
    { key with
      script := if SelectsLatin a then .latin else key.script
      nodes := leadingValues a Field.hierarchy
      language := a.language } := rfl

/-- What a run of addresses leaves: all but the script is from the last of them. -/
theorem run_addresses (earlier : List Address) (a : Address) (key : LookupKey) :
    run ((earlier ++ [a]).map .address) key =
      { key with
        script := if ∃ b ∈ earlier ++ [a], SelectsLatin b then .latin else key.script
        nodes := leadingValues a Field.hierarchy
        language := a.language } := by
  induction earlier generalizing key with
  | nil =>
    change key.setAddress a = _
    simp [setAddress_eq]
  | cons b earlier ih =>
    change run ((earlier ++ [a]).map .address) (key.setAddress b) = _
    rw [ih, setAddress_eq]
    -- A Latin tag here is kept by the addresses that follow.
    by_cases hb : SelectsLatin b <;> simp [hb]

def reused (kind : KeyKind) (addresses : List Address) : LookupKey :=
  run (addresses.map .address) { kind := kind }

theorem reused_eq (kind : KeyKind) (earlier : List Address) (a : Address) :
    reused kind (earlier ++ [a]) =
      { kind := kind
        script := if ∃ b ∈ earlier ++ [a], SelectsLatin b then .latin else .native
        nodes := leadingValues a Field.hierarchy
        language := a.language } :=
  run_addresses earlier a { kind := kind }

/-- No address before the last has set another script than the last one would. -/
def ScriptOfLast (earlier : List Address) (a : Address) : Prop :=
  SelectsLatin a ∨ ∀ b ∈ earlier, ¬SelectsLatin b

theorem script_reused_iff (kind : KeyKind) (earlier : List Address) (a : Address) :
    (reused kind (earlier ++ [a])).script = (reused kind [a]).script ↔ ScriptOfLast earlier a := by
  rw [reused_eq, show reused kind [a] = _ from reused_eq kind [] a]
  by_cases ha : SelectsLatin a
  · simp [ha, ScriptOfLast]
  · by_cases hb : ∃ b ∈ earlier, SelectsLatin b
    · simp [ha, hb, ScriptOfLast]
    · exact iff_of_true (by simp [ha, hb]) (.inr fun b hm hl => hb ⟨b, hm, hl⟩)

theorem text_eq_iff_script (kind : KeyKind) (s t : Script) (nodes : List Text)
    (language : Option Text) :
    text ⟨kind, s, nodes, language⟩ = text ⟨kind, t, nodes, language⟩ ↔
      kind = .data ∨ nodes = [] ∨ s = t := by
  cases kind with
  | data => exact iff_of_true rfl (.inl rfl)
  | examples =>
    cases nodes with
    | nil => exact iff_of_true rfl (.inr (.inl rfl))
    | cons country nodes =>
      simp [text, Script.name_injective.eq_iff]

/-- A key used again agrees with a new key in all but the script, and in the script exactly if no
earlier address has set another. -/
theorem reused_agrees_iff (kind : KeyKind) (earlier : List Address) (a : Address) :
    let key := reused kind (earlier ++ [a])
    let new := reused kind [a]
    key.kind = new.kind ∧ key.nodes = new.nodes ∧ key.language = new.language ∧
      (key.script = new.script ↔ ScriptOfLast earlier a) ∧
      (key.text = new.text ↔ kind = .data ∨ a.value .country = none ∨ ScriptOfLast earlier a) := by
  intro key new
  have hkey : key = _ := reused_eq kind earlier a
  have hnew : new = _ := reused_eq kind [] a
  have hscript : key.script = new.script ↔ ScriptOfLast earlier a :=
    script_reused_iff kind earlier a
  refine ⟨by rw [hkey, hnew], by rw [hkey, hnew], by rw [hkey, hnew], hscript, ?_⟩
  rw [← hscript, ← leadingValues_eq_nil_iff, hkey, hnew]
  exact text_eq_iff_script kind _ _ _ a.language

/-- An address in Japanese after one with a tag of Latin script. -/
theorem exists_reused_ne :
    ∃ a b : Draft, let key := reused .examples [a.build, b.build]
      let new := reused .examples [b.build]
      key.text = "examples/JP/latin/ja".toList ∧ new.text = "examples/JP/local/ja".toList ∧
        key.script ≠ new.script :=
  ⟨Draft.run [.single .country "JP".toList, .language "ja-Latn".toList] {},
    Draft.run [.single .country "JP".toList, .language "ja".toList] {},
    by decide +kernel⟩

end LookupKey
end Postal
