import Seamark.Playback.Run

/-!
# Messages of players

A player reports on a line of its own when it starts to play and when it has stopped.
-/

namespace Seamark

/-- The line that an event prints, for the events that print one. -/
def Event.message? {α : Type} [Scalar α] : Event α → Option String
  | .playing name segments cycle =>
    some ("[PLAYER] " ++ name ++ ": playing " ++ toString segments ++ " segments ("
      ++ Scalar.fixed 2 cycle ++ "s cycle)")
  | .stopped name => some ("[PLAYER] " ++ name ++ ": stopped")
  | _ => none

end Seamark
