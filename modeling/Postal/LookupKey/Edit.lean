import Postal.LookupKey.Decoding

/-!
# Editing lookup keys

The steps by which a key is put together. A step may fail, and the steps
towards the root may find no key; in either case the key stays as it was.
-/

set_option autoImplicit false

namespace Postal.LookupKey

inductive Edit where
  | fresh (kind : KeyKind)
  | decoded (text : Text)
  | script (script : Script)
  | language (tag : Text)
  | clearLanguage
  | node (field : Field) (value : Text)
  | address (a : Address)
  | parent
  | upper (field : Field)
  deriving DecidableEq, Repr

def edited (key : LookupKey) : Edit → Except KeyError (Option LookupKey)
  | .fresh kind => .ok (some { kind := kind })
  | .decoded text => do return some (← decode text)
  | .script script => .ok (some { key with script := script })
  | .language tag => .ok (some { key with language := some tag })
  | .clearLanguage => .ok (some { key with language := none })
  | .node field value => do return some (← key.setNode field value)
  | .address a => .ok (some (key.setAddress a))
  | .parent => key.parent
  | .upper field => key.upper field

def after (key : LookupKey) : Except KeyError (Option LookupKey) → LookupKey
  | .ok (some next) => next
  | _ => key

def apply (key : LookupKey) : Edit → LookupKey
  | .node field value => ((storeNode field value).run.run key).2
  | edit => key.after (key.edited edit)

theorem apply_eq (key : LookupKey) (edit : Edit) : key.apply edit = key.after (key.edited edit) := by
  cases edit with
  | node field value =>
    rw [apply, storeNode_run, edited]
    cases key.setNode field value <;> rfl
  | _ => rfl

def runChecked (edits : List Edit) (key : LookupKey) : Except KeyError LookupKey :=
  edits.foldlM (fun key edit => do return (← key.edited edit).getD key) key

def run (edits : List Edit) (key : LookupKey) : LookupKey := edits.foldl apply key

end Postal.LookupKey
