import ReadPool.Config
import ReadPool.FileTree.Change
import ReadPool.FileTree.Open
import ReadPool.Pool.Log
import ReadPool.Stream.Composite

/-!
# Scripts of sessions

A session is a list of steps on named pools and named handles. What its openers give is laid down
too: for each path a list of openings, each with the stream it gives, the errors it fails with, and
the steps that run while the opener or the close is at work.
-/

namespace ReadPool.Session

inductive Step where
  | newPool (pool : String) (onFiles : Bool) (config : Config)
  | dropPool (pool : String)
  | acquire (pool : String) (path : Path) (name : Option String) (canonical : Bool)
  | openShared (path : Path) (name : Option String)
  | clone (handle : String) (name : Option String)
  | drop (handle : String)
  | dropAll
  | read (handle : String) (n : Nat)
  | readExact (handle : String) (n : Nat)
  | readToEnd (handle : String) (limit : Nat)
  | readToString (handle : String) (limit : Nat)
  | close (handle : String)
  | identity (handle : String)
  | sameStream (a b : String)
  | purge (pool : String)
  | size (pool : String)
  | isEmpty (pool : String)
  | contains (pool : String) (path : Path)
  | canonicalize (path : Path)
  | change (change : TreeChange)
  /-- A step that there is no such thing as. -/
  | unknown
deriving DecidableEq

/-- A step under the name that its answer is reported by. -/
structure NamedStep where
  verb : String
  step : Step
deriving DecidableEq

/-- How one open goes, and what it gives. -/
structure Opening where
  during : List NamedStep := []
  error : Option IoError := none
  stream : Stream := { source := .counting 0 }
  closeError : Option IoError := none
  onClose : List NamedStep := []
deriving DecidableEq

/-- Which log events a session reports. -/
inductive LogFilter where
  | nothing
  | warnings
  | everything
deriving DecidableEq, Repr

def LogFilter.admits : LogFilter → LogLevel → Bool
  | nothing, _ => false
  | warnings, level => level = .warn
  | everything, _ => true

structure Script where
  steps : List NamedStep
  /-- The openings of a path, by the path as it is displayed. -/
  openings : List (String × List Opening) := []
  log : LogFilter := .nothing
  /-- The changes that make the session's tree, if it has one. -/
  tree : Option (List TreeChange) := none
  /-- The process-wide pool takes part. -/
  shared : Bool := false

/-! ## Answers -/

/-- Why a step could not be tried. -/
inductive Fault where
  | noHandle
  | noPool
  | nameTaken
  | busy
  | differentKinds
  | noTree
  | missing
  | badRequest
deriving DecidableEq, Repr

inductive Result where
  | ok
  | count (n : Nat)
  | truth (b : Bool)
  | text (s : String)
  | bytes (data : List UInt8)
  | allBytes (data : List UInt8)
  | allText (n : Nat) (s : String)
  | poolError (e : PoolError)
  /-- With the bytes that had come before, where they are not lost. -/
  | readError (e : IoError) (kept : Option (List UInt8))
  | fault (f : Fault)
deriving DecidableEq

inductive Event where
  | opening (number : Nat) (path : String)
  | opened (number : Nat)
  | openFailed (number : Nat)
  | closing (number : Nat)
  | closed (number : Nat)
  | closeFailed (number : Nat)
  | log (event : LogEvent)
  /-- The answer of a step that ran while an opener or a close was at work. -/
  | nested (verb : String) (result : Result)
deriving DecidableEq

/-- The line of an event that has one. -/
def Event.line? : Event → Option String
  | opening n path => some ("open " ++ toString n ++ " " ++ path)
  | opened n => some ("open " ++ toString n ++ " ok")
  | openFailed n => some ("open " ++ toString n ++ " err")
  | closing n => some ("close " ++ toString n)
  | closed n => some ("close " ++ toString n ++ " ok")
  | closeFailed n => some ("close " ++ toString n ++ " err")
  | log event => some event.line
  | nested _ _ => none

end ReadPool.Session
