import Ascent.Command.Registry
import Ascent.Legal

/-!
Carrying out commands, one after another.

A command that is unknown, lacks an argument or fails is left out as a whole: the state that it saw
goes on to the next one. Every state that a command leads to is made legal.

Main exports: `Ignored`, `dispatch`, `Dispatched`, `dispatchAll`.
-/

namespace Ascent

/-- Why a command was left out. -/
inductive IgnoredReason where
  | unknown
  | missing (argument : String)
  | failed (fault : Fault)
deriving DecidableEq, Repr

/-- A reason in words. -/
def IgnoredReason.text : IgnoredReason → String
  | .unknown => "unknown command"
  | .missing argument => "missing required argument '" ++ argument ++ "'"
  | .failed fault => "processor error: " ++ fault.message

/-- A command that was left out, under its name as spelled. -/
structure Ignored where
  name : String
  reason : IgnoredReason
deriving DecidableEq, Repr

/-- Whether an argument is missing: absent, without a value, or blank. -/
def Params.lacks (params : Params) (key : String) : Bool :=
  match params.value? key with
  | some value => Text.isBlankText value
  | none => true

/-- A command carried out, or left out. -/
def dispatch (registry : Registry) (state : GameState) (command : Command) (supply : Supply) :
    Except Ignored Effect × Supply :=
  let refused (reason : IgnoredReason) : Except Ignored Effect := .error ⟨command.name, reason⟩
  match registry.find? command.name with
  | none => (refused .unknown, supply)
  | some rule => match rule.required.find? command.params.lacks with
    | some argument => (refused (.missing argument), supply)
    | none => match (rule.run state command.params).outcome supply with
      | (.ok effect, supply) => (.ok { effect with state := effect.state.legalize }, supply)
      | (.error fault, supply) => (refused (.failed fault), supply)

/-- What came of several commands. -/
structure Dispatched where
  state : GameState
  supply : Supply
  updates : List IndexUpdate := []
  ignored : List Ignored := []
  messages : List String := []
deriving DecidableEq

/-- What came of the commands so far and one more. -/
def Dispatched.next (registry : Registry) (done : Dispatched) (command : Command) : Dispatched :=
  match dispatch registry done.state command done.supply with
  | (.error ignored, supply) => { done with supply := supply, ignored := done.ignored ++ [ignored] }
  | (.ok effect, supply) =>
    { done with
      state := effect.state
      supply := supply
      updates := done.updates ++ effect.updates
      messages := done.messages ++ effect.messages }

/-- Commands carried out in order, each on the state that those before it led to. -/
def dispatchAll (registry : Registry) (state : GameState) (supply : Supply)
    (commands : List Command) : Dispatched :=
  commands.foldl (Dispatched.next registry) { state, supply }

end Ascent
