import Postal.Template

/-!
# Field orders

A form shows the fields of its template in the order of their first
reference. A custom order rearranges, among themselves, the fields that it
names. At last the street address gives way to the two line fields.
-/

set_option autoImplicit false

namespace Postal.FieldOrder

def firstSeenBeside (seen : List Field) : List Field → List Field
  | [] => []
  | f :: rest =>
    if f ∈ seen then firstSeenBeside seen rest else f :: firstSeenBeside (f :: seen) rest

def firstSeen (fields : List Field) : List Field := firstSeenBeside [] fields

theorem firstSeenBeside_nodup (seen fields : List Field) :
    (firstSeenBeside seen fields).Nodup ∧ ∀ f ∈ firstSeenBeside seen fields, f ∉ seen := by
  induction fields generalizing seen with
  | nil => simp [firstSeenBeside]
  | cons f rest ih =>
    by_cases h : f ∈ seen
    · simpa [firstSeenBeside, h] using ih seen
    · obtain ⟨hn, ho⟩ := ih (f :: seen)
      refine ⟨?_, ?_⟩
      · simp only [firstSeenBeside, h, if_false, List.nodup_cons]
        exact ⟨fun hf => ho f hf List.mem_cons_self, hn⟩
      · intro g hg
        simp only [firstSeenBeside, h, if_false, List.mem_cons] at hg
        rcases hg with rfl | hg
        · exact h
        · exact fun hs => ho g hg (List.mem_cons_of_mem _ hs)

theorem firstSeen_nodup (fields : List Field) : (firstSeen fields).Nodup :=
  (firstSeenBeside_nodup [] fields).1

def ofTemplate (template : Template) : Except FieldError (List Field) := do
  return firstSeen (← template.fields)

/-- What a loop over the tokens holds: the fields seen so far and the order made of them. -/
structure Noted where
  seen : List Field := []
  order : List Field := []

def Noted.note (noted : Noted) (f : Field) : Noted :=
  if f ∈ noted.seen then noted else ⟨f :: noted.seen, noted.order ++ [f]⟩

def noteToken (noted : Noted) : Token → Except FieldError Noted
  | .field code => do return noted.note (← Field.ofCode code)
  | _ => .ok noted

def repeatBeside? (seen : List Field) : List Field → Option Field
  | [] => none
  | f :: rest => if f ∈ seen then some f else repeatBeside? (f :: seen) rest

def repeat? (fields : List Field) : Option Field := repeatBeside? [] fields

/-- Writes the queued fields, in turn, over the places held by `members`. -/
def refill (members : List Field) : List Field → List Field → List Field
  | [], _ => []
  | f :: order, [] => f :: order
  | f :: order, next :: queue =>
    if f ∈ members then next :: refill members order queue
    else f :: refill members order (next :: queue)

@[simp] theorem refill_length (members order queue : List Field) :
    (refill members order queue).length = order.length := by
  induction order generalizing queue with
  | nil => rfl
  | cons f order ih =>
    cases queue with
    | nil => rfl
    | cons next queue =>
      unfold refill
      split <;> simp [ih]

def applyCustom (region : Text) (order custom : List Field) : Except FieldError (List Field) :=
  match repeat? custom with
  | some f => .error (.repeatedInOrder region f)
  | none => .ok (refill custom order (custom.filter order.contains))

def collect (region : Text) (present members queue : List Field) :
    List Field → Except FieldError (List Field × List Field)
  | [] => .ok (members, queue)
  | f :: rest =>
    if f ∈ members then .error (.repeatedInOrder region f)
    else collect region present (f :: members) (if f ∈ present then queue ++ [f] else queue) rest

/-- Applies a custom order to the order that is held as the state. -/
def rearrange (region : Text) (custom : List Field) :
    ExceptT FieldError (StateM (List Field)) Unit := do
  match collect region (← get) [] [] custom with
  | .ok (members, queue) => modify fun order => refill members order queue
  | .error e => throw e

theorem rearrange_run_collect (region : Text) (order custom : List Field) :
    (rearrange region custom).run.run order =
      match collect region order [] [] custom with
      | .ok (members, queue) => (.ok (), refill members order queue)
      | .error e => (.error e, order) := by
  have hget : (rearrange region custom).run.run order =
      (match collect region order [] [] custom with
        | .ok (members, queue) => modify fun order => refill members order queue
        | .error e => throw e : ExceptT FieldError (StateM (List Field)) Unit).run.run order := rfl
  rw [hget]
  cases collect region order [] [] custom <;> rfl

def expandStreet : List Field → List Field
  | [] => []
  | .streetAddress :: rest => .addressLine1 :: .addressLine2 :: rest
  | f :: rest => f :: expandStreet rest

end Postal.FieldOrder
