import ReadPool.PoolError
import ReadPool.Pool.Slots

/-!
# Log events

What a pool reports of its work. A failed close is a warning; all else is for debugging.
-/

namespace ReadPool

inductive LogEvent where
  | openFailed (identity : Identity) (error : IoError)
  | published (identity : Identity) (entry : Entry) (replaced : Option Entry)
  | lostRace (identity : Identity) (entry : Entry)
  | loserCloseFailed (identity : Identity) (entry : Entry) (error : IoError)
  | drained (identity : Identity) (entry : Entry) (removed : Bool)
  | released (identity : Identity) (entry : Entry)
  | closeFailed (identity : Identity) (entry : Entry) (error : IoError)
  | releasedInline (identity : Identity) (entry : Entry)
deriving DecidableEq, Repr

inductive LogLevel where
  | debug
  | warn
deriving DecidableEq, Repr

namespace LogEvent

def level : LogEvent → LogLevel
  | loserCloseFailed .. => .warn
  | closeFailed .. => .warn
  | _ => .debug

def title : LogEvent → String
  | openFailed .. => "open failed"
  | published .. => "published shared handle"
  | lostRace .. => "lost publish race"
  | loserCloseFailed .. => "failed to close discarded handle"
  | drained .. => "dead entry drained"
  | released .. => "released shared handle"
  | closeFailed .. => "failed to close shared handle"
  | releasedInline .. => "pool dropped, releasing inline"

def identity : LogEvent → Identity
  | openFailed X _ => X
  | published X _ _ => X
  | lostRace X _ => X
  | loserCloseFailed X _ _ => X
  | drained X _ _ => X
  | released X _ => X
  | closeFailed X _ _ => X
  | releasedInline X _ => X

/-- The entry; an open that failed has none. -/
def entry? : LogEvent → Option Entry
  | openFailed _ _ => none
  | published _ e _ => some e
  | lostRace _ e => some e
  | loserCloseFailed _ e _ => some e
  | drained _ e _ => some e
  | released _ e => some e
  | closeFailed _ e _ => some e
  | releasedInline _ e => some e

/-- What an event has to say besides identity and entry. -/
def detail : LogEvent → List (String × String)
  | openFailed _ error => [("error", error.display)]
  | published _ _ replaced => [("replaced", Text.showOption toString replaced)]
  | loserCloseFailed _ _ error => [("error", error.display)]
  | drained _ _ removed => [("removed", if removed then "true" else "false")]
  | closeFailed _ _ error => [("error", error.display)]
  | _ => []

def fields (e : LogEvent) : List (String × String) :=
  ("identity", e.identity.display)
    :: (e.entry?.map fun n => ("entry", toString n)).toList ++ e.detail

end LogEvent

def LogLevel.name : LogLevel → String
  | debug => "DEBUG"
  | warn => "WARN"

/-- The event as one line. -/
def LogEvent.line (e : LogEvent) : String :=
  " ".intercalate
    (["log", e.level.name, e.title] ++ e.fields.map fun (key, value) => key ++ "=" ++ value)

end ReadPool
