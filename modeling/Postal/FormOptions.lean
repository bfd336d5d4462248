import Postal.FieldOrder

/-!
# Form options

What a caller wants of a form: fields to hide or to show read-only, regions
to leave out of pickers, and a field order of its own for some regions.
Region pickers ignore case; an order holds for exactly the region named.
-/

set_option autoImplicit false

namespace Postal

structure FormOptions where
  hidden : List Field := []
  readOnly : List Field := []
  /-- Codes in upper case. -/
  blacklist : List Text := []
  orders : List (Text × List Field) := []
  deriving DecidableEq, Repr

namespace FormOptions

def hide (o : FormOptions) (f : Field) : FormOptions := { o with hidden := f :: o.hidden }

def setReadOnly (o : FormOptions) (f : Field) : FormOptions :=
  { o with readOnly := f :: o.readOnly }

def blacklistRegion (o : FormOptions) (region : Text) : FormOptions :=
  { o with blacklist := region.upperCase :: o.blacklist }

def isHidden (o : FormOptions) (f : Field) : Bool := o.hidden.contains f

def isReadOnly (o : FormOptions) (f : Field) : Bool := o.readOnly.contains f

def isBlacklisted (o : FormOptions) (region : Text) : Bool := o.blacklist.contains region.upperCase

def order (o : FormOptions) (region : Text) : List Field := (o.orders.lookup region).getD []

def setOrder (o : FormOptions) (region : Text) (fields : List Field) :
    Except FieldError FormOptions :=
  match FieldOrder.repeat? fields with
  | some f => .error (.repeatedInOrder region f)
  | none =>
    let others := o.orders.filter fun entry => entry.1 != region
    .ok { o with orders := if fields = [] then others else (region, fields) :: others }

def storeOrder (region : Text) (fields : List Field) :
    ExceptT FieldError (StateM FormOptions) Unit := do
  if fields = [] then
    modify fun o => { o with orders := o.orders.filter fun entry => entry.1 != region }
  else
    match FieldOrder.repeat? fields with
    | some f => throw (.repeatedInOrder region f)
    | none =>
      modify fun o =>
        { o with orders := (region, fields) :: o.orders.filter fun entry => entry.1 != region }

inductive Edit where
  | hide (field : Field)
  | readOnly (field : Field)
  | blacklist (region : Text)
  | order (region : Text) (fields : List Field)
  deriving DecidableEq, Repr

def edited (o : FormOptions) : Edit → Except FieldError FormOptions
  | .hide field => .ok (o.hide field)
  | .readOnly field => .ok (o.setReadOnly field)
  | .blacklist region => .ok (o.blacklistRegion region)
  | .order region fields => o.setOrder region fields

def apply (o : FormOptions) (edit : Edit) : FormOptions :=
  match o.edited edit with
  | .ok next => next
  | .error _ => o

def run (edits : List Edit) (o : FormOptions) : FormOptions := edits.foldl apply o

@[simp] theorem run_append (edits more : List Edit) (o : FormOptions) :
    run (edits ++ more) o = run more (run edits o) := by
  simp [run]

end FormOptions
end Postal
