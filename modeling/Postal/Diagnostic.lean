import Postal.Template

/-!
# Diagnostics of templates

A diagnostic points into a template by a span of bytes. For an error of the
template the span is one character: the code of an invalid escape, or the
dangling `%` itself.
-/

set_option autoImplicit false

namespace Postal

structure Diagnostic where
  cause : Text
  help : Option Text
  offset : Nat
  length : Nat
  deriving DecidableEq, Repr

namespace Diagnostic

def code : Text := "addrfmt::template".toList

def label : Text := "error here".toList

def message (d : Diagnostic) : Text := "template error: ".toList ++ d.cause

def causeOf : TemplateError → Text
  | .danglingEscape _ => "'%' at end of template".toList
  | .invalidField _ cause => cause.message

def helpOf : TemplateError → Text
  | .danglingEscape _ => "every '%' must be followed by a field code or 'n'".toList
  | .invalidField _ _ =>
    "field codes are R, 1, 2, A, S, C, D, Z, X, N, O, T, F and L; %n is a newline".toList

def position : TemplateError → Nat
  | .danglingEscape column => column - 1
  | .invalidField column _ => column

def ofTemplateError (template : Text) (e : TemplateError) : Diagnostic where
  cause := causeOf e
  help := some (helpOf e)
  offset := Text.byteLength (template.take (position e))
  length := Text.byteLength ((template.drop (position e)).take 1)

def ofFieldError (template : Text) (e : FieldError) : Diagnostic where
  cause := e.message
  help := none
  offset := 0
  length := Text.byteLength template

def check (template : Text) : Option Diagnostic :=
  match Template.parseStrict template with
  | .ok _ => none
  | .error e => some (ofTemplateError template e)

end Diagnostic
end Postal
