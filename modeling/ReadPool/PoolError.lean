import ReadPool.Identity
import ReadPool.IoError

/-!
# Errors of the library

Why a path has no identity, a pool could not be made, or a stream could not be opened. `kind` says
what the cause was to the environment.
-/

namespace ReadPool

inductive PoolError where
  | notFound (path : Path)
  | accessDenied (path : Path)
  | openFailed (identity : Identity) (source : IoError)
  | invalidConfig (reason : String)
  | io (source : IoError)
deriving DecidableEq, Repr

namespace PoolError

def kind : PoolError → ErrorKind
  | notFound _ => .notFound
  | accessDenied _ => .permissionDenied
  | openFailed _ source => source.kind
  | invalidConfig _ => .invalidInput
  | io source => source.kind

def message : PoolError → String
  | notFound path => "file not found: " ++ path.display
  | accessDenied path => "access denied: " ++ path.display
  | openFailed identity source =>
    "failed to open " ++ identity.display ++ ": " ++ source.display
  | invalidConfig reason => "invalid pool configuration: " ++ reason
  | io source => "I/O error: " ++ source.display

/-- The error of the environment behind this one. -/
def source? : PoolError → Option IoError
  | openFailed _ source => some source
  | io source => some source
  | _ => none

def constructorName : PoolError → String
  | notFound _ => "NotFound"
  | accessDenied _ => "AccessDenied"
  | openFailed _ _ => "Open"
  | invalidConfig _ => "InvalidConfig"
  | io _ => "Io"

def debug (e : PoolError) : String :=
  match e with
  | notFound path => Text.showRecord e.constructorName [("path", path.debug)]
  | accessDenied path => Text.showRecord e.constructorName [("path", path.debug)]
  | openFailed identity source =>
    Text.showRecord e.constructorName [("identity", identity.debug), ("source", source.debug)]
  | invalidConfig reason => Text.showTagged e.constructorName (Text.quote reason)
  | io source => Text.showTagged e.constructorName source.debug

end PoolError

end ReadPool
