/-!
# Contracts

What an option gives the right to, and when.
-/

namespace OptionDesk

inductive OptionType
  | call
  | put
deriving DecidableEq

inductive ExerciseType
  | european
  | american
  | bermudan
deriving DecidableEq

def OptionType.name : OptionType → String
  | .call => "CALL"
  | .put => "PUT"

def ExerciseType.name : ExerciseType → String
  | .european => "EUROPEAN"
  | .american => "AMERICAN"
  | .bermudan => "BERMUDAN"

end OptionDesk
