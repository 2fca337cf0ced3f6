/-! # Consoles

Everything a program shows or asks for goes through a console. A console is a
type of states with one function for each request; it answers a request from its
state and gives the next state.
-/

namespace PocketScript

/-- How a menu was left. -/
inductive MenuChoice where
  | selected (index : Nat)
  | cancelled
  /-- The menu could not be shown or not be answered. -/
  | failed
  deriving DecidableEq, Repr

/-- The states of a console. -/
class Console (κ : Type) where
  /-- Show a text until the user goes on; false if the user stops instead. -/
  print : κ → (text : String) → Bool × κ
  /-- Ask for a text of at most `limit` characters; none if the user stops. -/
  askText : κ → (limit : Nat) → Option String × κ
  /-- Ask for a number of at most `limit` characters; none if the user stops. -/
  askNumber : κ → (limit : Nat) → Option Float32 × κ
  /-- Let the user choose one of several options. -/
  choose : κ → (title : String) → (options : List String) → MenuChoice × κ
  /-- Whether the user wants the program to stop; asked after every statement. -/
  escapes : κ → Bool × κ
  /-- The program goes on running after it showed or asked for something. -/
  resume : κ → κ

end PocketScript
