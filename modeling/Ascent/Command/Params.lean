import Ascent.Loose
import Ascent.Tag

/-!
The arguments of a command.

An argument may be absent, or be there without a value. Most are read as absent then; a few must
have a value if they are there at all.

Main exports: `Params.value?`, `Params.required`, `Params.textOr`, `Params.integer?`.
-/

namespace Ascent.Params

/-- The value of an argument, if it has one. -/
def value? (params : Params) (key : String) : Option String := (Pairs.get? params key).join

/-- The value of an argument that commands of this kind are not run without. -/
def required (params : Params) (key : String) : String := (value? params key).getD ""

/-- The value of an argument, or a default where it is absent; being there without a value is a
fault. -/
def textOr (params : Params) (key : String) (default : String) : Except Fault String :=
  match Pairs.get? params key with
  | none => .ok default
  | some (some s) => .ok s
  | some none => .error .valueless

/-- The integer in an argument, if there is one. -/
def integer? (params : Params) (key : String) : Option Int :=
  (value? params key).bind Loose.integerOfText?

/-- Whether an argument is there, with a value or without. -/
def has (params : Params) (key : String) : Bool := (Pairs.get? params key).isSome

end Ascent.Params
