import ReadPool.PoolError

/-!
# File systems

What the library asks of a file system, and how it comes from a path to an identity. The
questions are independent of each other: nothing here assumes that their answers agree. The file
system of a tree of files is in `ReadPool.FileTree.Open`.
-/

namespace ReadPool

structure FileSystem (σ : Type u) where
  /-- The path without links, from the root. -/
  realpath : Path → Except IoError Path
  isDirectory : Path → Except IoError Bool
  /-- A raw handle on the file, for reading. -/
  openRead : Path → Except IoError σ

/-- What a path is refused with when the file system failed on it with `e`. -/
def PoolError.ofPath (p : Path) (e : IoError) : PoolError :=
  match e.kind with
  | .notFound => .notFound p
  | .permissionDenied => .accessDenied p
  | _ => .io e

/-- The error of a path that names a directory. -/
def directoryRefused (p : Path) : IoError :=
  .custom .invalidInput (p.display ++ " is a directory")

namespace FileSystem

/-- The identity of the file that a path leads to. Errors speak of the path as it was given. -/
def canonicalize (fs : FileSystem σ) (p : Path) : Except PoolError Identity :=
  match fs.realpath p with
  | .error e => .error (.ofPath p e)
  | .ok target =>
    match fs.isDirectory target with
    | .error e => .error (.ofPath p e)
    | .ok true => .error (.io (directoryRefused p))
    | .ok false => .ok ⟨target⟩

end FileSystem

end ReadPool
