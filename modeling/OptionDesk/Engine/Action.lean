import OptionDesk.Engine.Forward

/-!
# Actions on an engine

Everything that a client can do with an engine that stands on a desk. A history of the desk is a
list of such actions, each on one of the engines; an action that fails is part of the history.
-/

namespace OptionDesk

inductive EngineAction (α : Type)
  | update (fields : List (String × Value α))
  | setMarket (m : Market α)
  | validate
  | calculate
  | reset
  /-- Load the equivalent plain option, on a decorator. -/
  | loadInner
  /-- Take over the results of the engine that a decorator prices through. -/
  | takeResults
  | assignResult (name : String) (v : Value α)
  | setFixed (values : List (String × Value α))

namespace Engine

variable {α : Type} [Scalar α] [NormalSource α]

def perform (e : Engine α) : EngineAction α → DeskSession α Unit
  | .update fields => e.updateTerms fields
  | .setMarket m => e.setMarket m
  | .validate => e.validate
  | .calculate => e.calculate
  | .reset => e.reset
  | .loadInner => match e with
    | decorator _ _ inner => e.loadInner inner
    | _ => .fail (.misuse .missingMember)
  | .takeResults => match e with
    | decorator _ style inner => e.takeResults style inner
    | _ => .fail (.misuse .missingMember)
  | .assignResult name v => e.assignResult name v
  | .setFixed values => e.setFixed values

end Engine

end OptionDesk
