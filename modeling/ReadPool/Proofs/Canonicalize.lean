import Mathlib
import ReadPool.FileSystem

/-!
# How a path comes to its identity

A path has an identity exactly where it leads to something that is no directory. All that fails
before that is told with the path as it was given, or with the error of the file system itself, and
in either case the kind of that error is kept.
-/

namespace ReadPool

@[simp] theorem PoolError.kind_ofPath (path : Path) (e : IoError) :
    (PoolError.ofPath path e).kind = e.kind := by
  cases h : e.kind <;> simp only [PoolError.ofPath, h, PoolError.kind]

namespace FileSystem

variable {fs : FileSystem σ} {path target : Path} {X : Identity} {e : IoError}

/-- The file system fails on a path, or on what it has found the path to lead to. -/
def FailsOn (fs : FileSystem σ) (path : Path) (e : IoError) : Prop :=
  fs.realpath path = .error e ∨
    ∃ target, fs.realpath path = .ok target ∧ fs.isDirectory target = .error e

theorem canonicalize_of_failsOn (h : fs.FailsOn path e) :
    fs.canonicalize path = .error (.ofPath path e) := by
  rcases h with hreal | ⟨target, hreal, hdir⟩
  · rw [canonicalize, hreal]
  · rw [canonicalize, hreal]
    simp only [hdir]

theorem canonicalize_of_isDirectory (hreal : fs.realpath path = .ok target)
    (hdir : fs.isDirectory target = .ok true) :
    fs.canonicalize path = .error (.io (directoryRefused path)) := by
  rw [canonicalize, hreal]
  simp only [hdir]

theorem canonicalize_eq_ok_iff :
    fs.canonicalize path = .ok X ↔
      fs.realpath path = .ok X.path ∧ fs.isDirectory X.path = .ok false := by
  constructor
  · intro h
    cases hreal : fs.realpath path with
    | error e => cases (canonicalize_of_failsOn (.inl hreal)).symm.trans h
    | ok target =>
      cases hdir : fs.isDirectory target with
      | error e => cases (canonicalize_of_failsOn (.inr ⟨target, hreal, hdir⟩)).symm.trans h
      | ok isDir =>
        cases isDir with
        | true => cases (canonicalize_of_isDirectory hreal hdir).symm.trans h
        | false =>
          rw [canonicalize, hreal] at h
          simp only [hdir] at h
          cases h
          exact ⟨rfl, hdir⟩
  · rintro ⟨hreal, hdir⟩
    rw [canonicalize, hreal]
    simp only [hdir]

theorem canonicalize_of_realpath (hreal : fs.realpath X.path = .ok X.path)
    (h : fs.canonicalize path = .ok X) : fs.canonicalize X.path = .ok X :=
  canonicalize_eq_ok_iff.2 ⟨hreal, (canonicalize_eq_ok_iff.1 h).2⟩

end FileSystem

end ReadPool
