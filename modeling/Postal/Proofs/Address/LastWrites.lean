import Postal.Proofs.Address.Copies
import Postal.Proofs.Outcome

/-!
# Last writes

A single value of an address is what the last edit that wrote its field left there. Its own
setter writes it, the setter for any field if it is given this one, and a copy, which writes all
of them and the language with them. An edit of the street lines writes none, and taking the built
address up again writes back what is there. Building only reads, so a session in which addresses
are built between the edits leads to the same draft and gives the same further addresses.
-/

set_option autoImplicit false

namespace Postal.Draft

/-- The value that an edit writes to a single field as it was given. -/
def Edit.written? (f : Field) : Edit → Option (Option Text)
  | .single g v => if g = f then some (some v) else none
  | .set g v => if g = f then some v else none
  | .copy a => some (a.value f)
  | _ => none

def Edit.tagged? : Edit → Option (Option Text)
  | .language tag => some (some tag)
  | .clearLanguage => some none
  | .copy a => some a.language
  | _ => none

/-! ## One edit -/

section
variable (d : Draft) (f : Field) (hf : f.isSingle = true)
include hf

theorem value_build : d.build.value f = d.values.get f := d.build.value_of_single f hf

theorem value_setSingle (g : Field) (v : Option Text) :
    (d.setSingle g v).build.value f = if g = f then v >>= Text.trimmed? else d.build.value f := by
  rw [value_build _ f hf, value_build d f hf, setSingle]
  split_ifs with hg
  · rw [hg, SingleValues.get_set_self _ f _ hf]
  · rw [SingleValues.get_set_of_ne _ g f _ hg]

theorem value_setSlot (index : ℕ) (v : Option Text) :
    (d.setSlot index v).build.value f = d.build.value f := by
  obtain ⟨slots, hs⟩ := exists_setSlot_eq d index v
  rw [value_build _ f hf, value_build d f hf, hs]

theorem value_set (g : Field) (v : Option Text) :
    (d.set g v).build.value f = if g = f then v >>= Text.trimmed? else d.build.value f := by
  by_cases hg : g = f
  · subst hg
    rw [set_of_single d g v hf]
    exact value_setSingle d g hf g v
  · rw [if_neg hg]
    cases g with
    | streetAddress =>
      rw [value_build _ f hf, value_build d f hf]
      cases v <;> rfl
    | addressLine1 => exact value_setSlot d f hf 0 v
    | addressLine2 => exact value_setSlot d f hf 1 v
    | _ => exact (value_setSingle d f hf _ v).trans (if_neg hg)

theorem value_apply (edit : Edit) (hc : ∀ a, edit = .copy a → a.Trimmed) :
    (d.apply edit).build.value f =
      ((edit.written? f).map (· >>= Text.trimmed?)).getD (d.build.value f) := by
  cases edit with
  | single g v =>
    rw [apply_single, value_setSingle d f hf, Edit.written?]
    split_ifs <;> rfl
  | set g v =>
    rw [apply, value_set d f hf, Edit.written?]
    split_ifs <;> rfl
  | line1 v => exact value_setSlot d f hf 0 v
  | line2 v => exact value_setSlot d f hf 1 v
  | copy a =>
    have htidy : ∀ t, a.value f = some t → Text.Tidy t := by
      rw [a.value_of_single f hf]
      exact (hc a rfl).value f
    calc (d.apply (.copy a)).build.value f
        = (copyOf a).values.get f := value_build _ f hf
      _ = a.value f := by rw [values_copyOf, a.value_of_single f hf]
      _ = a.value f >>= Text.trimmed? := (bind_trimmed? _ htidy).symm
  | rebuild =>
    calc (d.apply .rebuild).build.value f
        = (copyOf d.build).values.get f := value_build _ f hf
      _ = d.build.value f := by rw [values_copyOf, d.build.value_of_single f hf]
  | _ => rw [value_build _ f hf, value_build d f hf]; rfl

theorem value_apply_of_unwritten (edit : Edit) (he : edit.written? f = none) :
    (d.apply edit).build.value f = d.build.value f := by
  have hc : ∀ a, edit = .copy a → a.Trimmed := by
    rintro a rfl
    cases he
  rw [value_apply d f hf edit hc, he]
  rfl

theorem value_run (edits : List Edit) (hc : ∀ a, .copy a ∈ edits → a.Trimmed) :
    (run edits d).build.value f =
      ((edits.filterMap (Edit.written? f)).getLast?.map (· >>= Text.trimmed?)).getD
        (d.build.value f) := by
  rw [← List.getLast?_map, List.map_filterMap]
  refine getD_foldl_of_step apply (fun d => d.build.value f) _ edits (fun d edit he => ?_) d
  exact value_apply d f hf edit fun a ha => hc a (ha ▸ he)

end

section
variable (d : Draft)

theorem language_set (g : Field) (v : Option Text) : (d.set g v).language = d.language := by
  cases g with
  | streetAddress => cases v <;> rfl
  | addressLine1 =>
    obtain ⟨slots, hs⟩ := exists_setSlot_eq d 0 v
    rw [set, hs]
  | addressLine2 =>
    obtain ⟨slots, hs⟩ := exists_setSlot_eq d 1 v
    rw [set, hs]
  | _ => rfl

theorem language_apply (edit : Edit) (hc : ∀ a, edit = .copy a → a.Trimmed) :
    (d.apply edit).build.language =
      (edit.tagged?.map (· >>= Text.trimmed?)).getD d.build.language := by
  cases edit with
  | single g v =>
    rw [apply_single]
    rfl
  | set g v => exact language_set d g v
  | line1 v => exact language_set d .addressLine1 v
  | line2 v => exact language_set d .addressLine2 v
  | copy a => exact (bind_trimmed? a.language (hc a rfl).language).symm
  | _ => rfl

theorem language_apply_of_untagged (edit : Edit) (he : edit.tagged? = none) :
    (d.apply edit).build.language = d.build.language := by
  have hc : ∀ a, edit = .copy a → a.Trimmed := by
    rintro a rfl
    cases he
  rw [language_apply d edit hc, he]
  rfl

theorem language_run (edits : List Edit) (hc : ∀ a, .copy a ∈ edits → a.Trimmed) :
    (run edits d).build.language =
      ((edits.filterMap Edit.tagged?).getLast?.map (· >>= Text.trimmed?)).getD
        d.build.language := by
  rw [← List.getLast?_map, List.map_filterMap]
  refine getD_foldl_of_step apply (fun d => d.build.language) _ edits (fun d edit he => ?_) d
  exact language_apply d edit fun a ha => hc a (ha ▸ he)

end

/-! ## Sessions -/

/-- What a draft is asked for. Building answers with the address, an edit with nothing. -/
inductive Call where
  | edit (e : Edit)
  | build
  deriving DecidableEq, Repr

def Call.edit? : Call → Option Edit
  | .edit e => some e
  | .build => none

def perform : Call → StateM Draft (Option Address)
  | .edit e => do
    modify fun d => d.apply e
    return none
  | .build => do
    let d ← get
    return some d.build

/-- The answers to several calls and the draft that they leave. -/
def session (calls : List Call) (d : Draft) : List (Option Address) × Draft :=
  (calls.mapM perform).run d

theorem session_append (calls more : List Call) (d : Draft) :
    session (calls ++ more) d =
      ((session calls d).1 ++ (session more (session calls d).2).1,
        (session more (session calls d).2).2) := by
  rw [session, List.mapM_append]
  rfl

theorem session_edit (e : Edit) (calls : List Call) (d : Draft) :
    session (.edit e :: calls) d =
      (none :: (session calls (d.apply e)).1, (session calls (d.apply e)).2) := by
  rw [session, List.mapM_cons]
  rfl

theorem session_build (calls : List Call) (d : Draft) :
    session (.build :: calls) d = (some d.build :: (session calls d).1, (session calls d).2) := by
  rw [session, List.mapM_cons]
  rfl

theorem session_snd (calls : List Call) (d : Draft) :
    (session calls d).2 = run (calls.filterMap Call.edit?) d := by
  induction calls generalizing d with
  | nil => rfl
  | cons call calls ih =>
    cases call with
    | edit e =>
      rw [session_edit, ih]
      rfl
    | build =>
      rw [session_build, ih]
      rfl

/-- A single value of the address at the end of a run is the trimmed text that the last edit to
write its field was given. It is absent if this text was blank or missing or if no edit wrote the
field, and an edit that does not write it leaves it in every draft. The same holds for the
language. Asking for an address between the edits has no effect on the address at the end, nor
on any other answer. -/
theorem run_last_writes (edits : List Edit) (copies : ∀ a, .copy a ∈ edits → a.Built) :
    let a := (run edits {}).build
    (∀ f, f.isSingle = true →
      a.value f = (edits.filterMap (Edit.written? f)).getLast?.join >>= Text.trimmed? ∧
      ∀ (d : Draft) (edit : Edit), edit.written? f = none →
        (d.apply edit).build.value f = d.build.value f) ∧
    (a.language = (edits.filterMap Edit.tagged?).getLast?.join >>= Text.trimmed? ∧
      ∀ (d : Draft) (edit : Edit), edit.tagged? = none →
        (d.apply edit).build.language = d.build.language) ∧
    ∀ before after : List Call, (before ++ after).filterMap Call.edit? = edits →
      let first := session before {}
      let rest := session after first.2
      first.2 = run (before.filterMap Call.edit?) {} ∧ rest.2.build = a ∧
        session (before ++ after) {} = (first.1 ++ rest.1, rest.2) ∧
        session (before ++ .build :: after) {} =
          (first.1 ++ some first.2.build :: rest.1, rest.2) := by
  intro a
  have hc : ∀ a, .copy a ∈ edits → a.Trimmed := fun a ha => (copies a ha).trimmed
  -- No write at all, a missing text and a blank one come to the same at an empty draft.
  have hjoin : ∀ last : Option (Option Text),
      (last.map (· >>= Text.trimmed?)).getD none = last.join >>= Text.trimmed? := by
    intro last
    cases last <;> rfl
  refine ⟨fun f hf => ⟨?_, fun d edit => value_apply_of_unwritten d f hf edit⟩,
    ⟨?_, fun d edit => language_apply_of_untagged d edit⟩, ?_⟩
  · have hempty : (build {}).value f = none := by cases f <;> rfl
    rw [← hjoin, ← hempty]
    exact value_run {} f hf edits hc
  · rw [← hjoin]
    exact language_run {} edits hc
  · intro before after hcalls first rest
    have hwhole : session (before ++ after) {} = (first.1 ++ rest.1, rest.2) :=
      session_append before after {}
    refine ⟨session_snd before {}, ?_, hwhole, ?_⟩
    · have hlast := session_snd (before ++ after) {}
      rw [hwhole, hcalls] at hlast
      exact congrArg build hlast
    · rw [session_append, session_build]

/-- A copy clears what the copied address lacks, a blank text clears the field it is written to,
and an address that is built halfway holds what was written so far. -/
theorem run_last_writes_copied :
    ∃ source : Address, source.Built ∧
      let before : List Call := [.edit (.single .locality "Bonn".toList), .build,
        .edit (.set .postalCode (some " 5 ".toList)), .edit (.language "de".toList)]
      let after : List Call := [.edit (.copy source), .edit (.set .locality (some " \t".toList)),
        .edit (.line1 (some "x".toList)), .build, .edit .rebuild,
        .edit (.single .recipient "\nS\u0000".toList)]
      let a := (run ((before ++ after).filterMap Call.edit?) {}).build
      a.value .locality = none ∧ a.value .postalCode = none ∧
        a.value .recipient = some ['S'] ∧ a.value .organization = some "UN".toList ∧
        a.language = some "it".toList ∧ (session (before ++ after) {}).2.build = a ∧
        ∃ halfway : Address, halfway.value .postalCode = some ['5'] ∧
          session (before ++ .build :: after) {} =
            ((session before {}).1 ++ some halfway :: (session after (session before {}).2).1,
              (session (before ++ after) {}).2) := by
  have hs := Address.Built.drafted [.single .locality "Rome".toList,
    .single .organization " UN".toList, .language "it ".toList] (by simp)
  refine ⟨_, hs, ?_⟩
  intro before after a
  obtain ⟨hvalue, ⟨hlanguage, -⟩, hsession⟩ :=
    run_last_writes ((before ++ after).filterMap Call.edit?)
      (by simpa [before, after, Call.edit?] using hs)
  obtain ⟨-, hlast, hwhole, hbuild⟩ := hsession before after rfl
  refine ⟨(hvalue .locality rfl).1, (hvalue .postalCode rfl).1, (hvalue .recipient rfl).1,
    (hvalue .organization rfl).1, hlanguage, ?_, (session before {}).2.build, rfl, ?_⟩
  · rw [hwhole]
    exact hlast
  · rw [hwhole]
    exact hbuild

end Postal.Draft
