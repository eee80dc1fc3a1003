/-!
Cues: what is to be answered to calls of one kind, one cue after the other.
-/
namespace Dispatch.Rehearsal

/-- The last cue is given again and again. -/
structure Cues (α : Type) where
  current : α
  later : List α := []
  deriving Repr

namespace Cues

def add (cues : Cues α) (cue : α) : Cues α := { cues with later := cues.later ++ [cue] }

/-- What remains after one cue has been given. -/
def advance (cues : Cues α) : Cues α :=
  match cues.later with
  | [] => cues
  | next :: later => { current := next, later }

end Cues

/-- Cues for several kinds of calls, in the order in which the kinds were first named. -/
abbrev Prompt (α : Type) : Type := List (String × Cues α)

namespace Prompt

def add (kind : String) (cue : α) : Prompt α → Prompt α
  | [] => [(kind, { current := cue })]
  | (other, cues) :: rest =>
    if other = kind then (other, cues.add cue) :: rest else (other, cues) :: add kind cue rest

/-- The cue of the first kind that is meant, and the cues after it has been given. -/
def take? (isMeant : String → Bool) : Prompt α → Option (α × Prompt α)
  | [] => none
  | (kind, cues) :: rest =>
    if isMeant kind then some (cues.current, (kind, cues.advance) :: rest)
    else (take? isMeant rest).map fun (cue, rest) => (cue, (kind, cues) :: rest)

end Prompt

end Dispatch.Rehearsal
