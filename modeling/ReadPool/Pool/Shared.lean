import ReadPool.FileSystem
import ReadPool.Pool.World

/-!
# The process-wide pool

One pool that all callers share who do not bring their own. It is made by the first call that
needs it, and a path comes to it as an identity: a path that has none leaves no trace.
-/

namespace ReadPool.World

/-- The process-wide pool, made now if it is not there yet. -/
def sharedPool (w : World σ) : Option PoolId → World σ × PoolId
  | some p => (w, p)
  | none => w.addPool

/-- What it comes to before anything is acquired that a file is opened by its path: the pool to
acquire from, and the identity to acquire. -/
def openShared (w : World σ) (shared : Option PoolId) (fs : FileSystem τ) (path : Path) :
    Except PoolError (World σ × PoolId × Identity) :=
  match fs.canonicalize path with
  | .error e => .error e
  | .ok X =>
    let (w, p) := w.sharedPool shared
    .ok (w, p, X)

end ReadPool.World
