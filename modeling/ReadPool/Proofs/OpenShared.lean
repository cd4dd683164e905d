import Mathlib
import ReadPool.Proofs.Acquiring
import ReadPool.Proofs.AnyState
import ReadPool.Proofs.SharedFiles

/-!
# A file opened by its path

Four stages can fail before a path has given a handle: to resolve it, to look at what it leads to,
to rule out a directory, and to open it. The first that fails decides the answer. Up to the open
nothing is known of the pool; the open is the acquisition's, and it fails as the acquisition's last
act, whatever other threads do meanwhile.
-/

namespace ReadPool

/-- An acquisition of `X` on thread `t` has ended by this moment with the result, and `s'` is what
is left. It has failed just if the moment is that of an open that fails, and then nothing changes.
-/
structure Moment.EndsAcquiring (t : ThreadId) (X : Identity) (m : Moment σ) (s' : System σ)
    (result : Except PoolError WrapperId) : Prop where
  answer : m.answer? = some (.acquired result)
  fails : ∀ e, m.act = .opened t (.error e) → result = .error (.openFailed X e)
  error : ∀ err, result = .error err → ∃ e, m.act = .opened t (.error e) ∧
    err = .openFailed X e ∧ s'.world = m.system.world

namespace System

variable {s₀ s s' : System σ} {ms : List (Moment σ)} {t : ThreadId} {p : PoolId} {X : Identity}
  {env : Environment σ} {pool : Pool} {notes : List Note}

theorem Called.exists_endsAcquiring (hs : Sound s₀) (h : Called s₀ t (.acquire p X) ms s')
    (hover : s'.depth t = s₀.depth t) :
    ∃ m earlier result, ms = m :: earlier ∧ m.EndsAcquiring t X s' result := by
  obtain ⟨s, a, earlier, below, own, turn, rfl, -, hmoves, hframes⟩ := h.exists_moves_last hs hover
  have hthread := hmoves.thread
  have hworld := hmoves.world
  have hanswer := hmoves.answer?
  have hmove := hmoves.move
  -- All other moves leave a frame on top, so the call is not over.
  cases hmove with
  | hit => exact ⟨_, _, _, rfl, hanswer, by rintro e ⟨⟩, by rintro err ⟨⟩⟩
  | publish => exact ⟨_, _, _, rfl, hanswer, by rintro e ⟨⟩, by rintro err ⟨⟩⟩
  | openFailed e =>
    obtain rfl := Option.some.inj hthread
    refine ⟨_, _, _, rfl, hanswer, ?_, ?_⟩
    · rintro e' ⟨⟩
      rfl
    · rintro err ⟨⟩
      exact ⟨e, rfl, rfl, hworld⟩
  | drain _ _ _ _ hframes' => simp [hframes'] at hframes
  | _ => cases hframes

/-- A lone acquisition goes on from what a purge leaves. -/
theorem exists_call_acquire (env : Environment σ) (X : Identity) (ht : s.threads = [[]])
    (hpool : s.world.pools[0]? = some pool) (hq : pool.queue = some notes)
    (hlive : ∀ Y slot x, s.world.slot? 0 Y = some slot → s.world.wrappers[slot.wrapper]? = some x →
      0 < x.strong → x.entry = slot.entry ∧ x.identity.Same Y) :
    ∃ purged result s', s.call env (.purge 0) = some (.done, purged) ∧
      s.call env (.acquire 0 X) = some (.acquired result, s') ∧
      AcquiredFrom env X purged s' result := by
  have hup : s.world.isUp 0 := World.isUp_iff.2 ⟨pool, notes, hpool, hq⟩
  have hpending : s.world.pending 0 = notes := by rw [World.pending_eq hpool, hq, Option.getD_some]
  obtain ⟨w, E, hp, hwrappers, -, hset⟩ := settle_deaths env hpool hq s.held s.history
  have hempty : w.pending 0 = [] := by rw [World.pending_eq hp, Option.getD_some]
  obtain ⟨result, s', hend, hfrom⟩ := settle_lookUp (X := X) (H := s.held) (E := .drained 0 :: E)
    env hp fun slot x hslot hx hpos => by
      refine hlive X slot x ?_ (hwrappers ▸ hx) hpos
      simp only [World.slot?, hp, hpool, Option.bind_some] at hslot ⊢
      exact Slots.find?_of_bury hslot
  refine ⟨_, result, s', ?_, ?_, hfrom⟩
  · rw [call, next?_call_draining (X := X) ht hup (.inl ⟨rfl, rfl⟩), Option.bind_some, hpending,
      Nat.add_comm, hset, settle_received hempty]
    rfl
  · rw [call, next?_call_draining (X := X) ht hup (.inr ⟨rfl, rfl⟩), Option.bind_some, hpending,
      Nat.add_comm, hset, settle_received_lookUp hempty, hend]
    rfl

end System

namespace Process

variable {fs : FileSystem σ} {reading : Reader σ} {s : Process σ} {path : Path} {X : Identity}

/-! ## A process that has nothing to do -/

/-- The only thread has nothing to do, no pool is there but the shared one, and live slots have the
number and the identity of their wrappers. -/
structure Idle (s : Process σ) : Prop where
  threads : s.system.threads = [[]]
  pool : s.shared = none ∧ s.system.world.pools = [] ∨
    s.shared = some 0 ∧ s.system.world.isUp 0
  live : ∀ Y slot x, s.system.world.slot? 0 Y = some slot →
    s.system.world.wrappers[slot.wrapper]? = some x → 0 < x.strong →
      x.entry = slot.entry ∧ x.identity.Same Y

theorem Idle.withPool (h : s.Idle) : s.withPool.2 = 0 ∧ s.withPool.1.Idle ∧
    s.withPool.1.system.world.isUp 0 := by
  rcases h.pool with ⟨hshared, hpools⟩ | ⟨hshared, hup⟩
  · rw [withPool_of_none hshared]
    have hup : (s.system.world.addPool).1.isUp 0 := by simp [World.isUp, World.addPool, hpools]
    refine ⟨by rw [hpools]; rfl, ⟨h.threads, .inr ⟨by rw [hpools]; rfl, hup⟩, ?_⟩, hup⟩
    intro Y slot x hslot
    simp [World.slot?, World.addPool, hpools] at hslot
  · rw [withPool_of_shared hshared]
    exact ⟨rfl, h, hup⟩

/-- All that a slot can lead to is a wrapper with its number, so the slots of a process that has come
about by acts of its threads are as they should be. -/
theorem Idle.of_sound (hs : s.system.Sound) (ht : s.system.threads = [[]])
    (hpool : s.shared = none ∧ s.system.world.pools = [] ∨
      s.shared = some 0 ∧ s.system.world.isUp 0) : s.Idle where
  threads := ht
  pool := hpool
  live Y slot x hslot hx _ := by
    obtain ⟨⟨-, x', hx', -, hsame⟩, hentry⟩ := hs.valid.grounded.slots 0 Y slot hslot
    obtain rfl : x' = x := Option.some.inj (hx'.symm.trans hx)
    exact ⟨Option.some.inj ((congrArg (Option.map Wrapper.entry) hx).symm.trans hentry), hsame⟩

/-- To begin with, a process is idle. -/
theorem Idle.start : ({} : Process σ).Idle where
  threads := rfl
  pool := .inl ⟨rfl, rfl⟩
  live := by
    rintro Y slot x ⟨⟩

theorem Rests.idle (h : s.Rests) : s.Idle := by
  rcases h with rfl | ⟨hshared, ht, r, hr⟩
  · exact .start
  · exact .of_sound hr.sound ht (.inr ⟨hshared, hr.kempt.up⟩)

/-- A process is idle whatever has been asked of it. -/
theorem run_idle {requests : List Request} {given : List (Path × WrapperId)}
    (hrun : ({} : Process σ).run fs reading requests = some (given, s)) : s.Idle := by
  obtain ⟨given', s', hrun', h⟩ := (Shares.start fs).run reading requests
  cases hrun.symm.trans hrun'
  exact h.rests.idle

/-! ## The stages -/

/-- What the opening of `X` by a lone thread has come to, when a purge in its place would have left
`purged`: without a live stream the file is opened, and if that fails, nothing else has changed. -/
structure OpensFrom (fs : FileSystem σ) (X : Identity) (purged s' : Process σ)
    (result : Except PoolError WrapperId) : Prop where
  shared : s'.shared = some 0
  error_iff : ∀ err, result = .error err ↔ purged.system.world.hasLive 0 X = false ∧
    ∃ e, fs.openRead X.path = .error e ∧ err = .openFailed X e
  unchanged : ∀ err, result = .error err → s'.system.world = purged.system.world

/-- A lone thread comes to the end of opening a path that has an identity. -/
theorem Idle.exists_opensFrom (h : s.Idle) (reading : Reader σ)
    (hX : fs.canonicalize path = .ok X) : ∃ purged result s',
      s.withPool.1.call (fs.environment reading) (.purge 0) = some (.done, purged) ∧
      s.openShared fs reading path = some (.acquired result, s') ∧
      OpensFrom fs X purged s' result := by
  obtain ⟨hp, hidle, hup⟩ := h.withPool
  obtain ⟨pool, notes, hpool, hq⟩ := World.isUp_iff.1 hup
  obtain ⟨purged, result, s', hpurge, hacquire, hfrom⟩ :=
    System.exists_call_acquire (fs.environment reading) X hidle.threads hpool hq hidle.live
  refine ⟨⟨purged, some 0⟩, result, ⟨s', some 0⟩, ?_, ?_, rfl, hfrom.error_iff, hfrom.error⟩
  · rw [call, hpurge, ← hp]
    rfl
  · rw [openShared_of_ok hX, hp, call, hacquire, ← hp]
    rfl

/-- A path is opened in stages, and the first that fails gives the error. What the file system fails
with before the open is told of the path as it was given, a directory is refused under that path
too, and in neither case is the pool drained, asked or made. After that only the open can fail, be
the thread alone or not; it does so with the identity, and changes nothing. Every error is of the
kind of the stage that failed. What is said of an idle process is true after every run. -/
theorem openShared_fails_at_first_stage (fs : FileSystem σ) (reading : Reader σ) (s : Process σ)
    (path : Path) :
    (∀ e, fs.FailsOn path e → ∃ err, s.ask fs path = .error err ∧
      s.openShared fs reading path = some (.acquired (.error err), s) ∧ err.kind = e.kind ∧
      (e.kind = .notFound → err = .notFound path) ∧
      (e.kind = .permissionDenied → err = .accessDenied path) ∧
      (e.kind ≠ .notFound → e.kind ≠ .permissionDenied → err = .io e)) ∧
    (∀ target, fs.realpath path = .ok target → fs.isDirectory target = .ok true →
      ∃ err, s.ask fs path = .error err ∧
        s.openShared fs reading path = some (.acquired (.error err), s) ∧
        err.kind = .invalidInput ∧
        err = .io (.custom .invalidInput (path.display ++ " is a directory"))) ∧
    (∀ target, fs.realpath path = .ok target → fs.isDirectory target = .ok false →
      (s.Idle → ∃ purged result s',
        s.withPool.1.call (fs.environment reading) (.purge 0) = some (.done, purged) ∧
        s.openShared fs reading path = some (.acquired result, s') ∧
        OpensFrom fs ⟨target⟩ purged s' result) ∧
      (∃ p s₀, s.ask fs path = .ok (s₀, .acquire p ⟨target⟩) ∧ s₀.shared = some p ∧
        (s.system.Reachable → ∀ t ms s', System.Called s₀.system t (.acquire p ⟨target⟩) ms s' →
          s'.depth t = s₀.system.depth t →
          ∃ m earlier result, ms = m :: earlier ∧ m.EndsAcquiring t ⟨target⟩ s' result)) ∧
      ∀ e, (PoolError.openFailed ⟨target⟩ e).kind = e.kind) ∧
    ∀ fs' reading' requests given,
      ({} : Process σ).run fs' reading' requests = some (given, s) → s.Idle := by
  refine ⟨fun e he => ?_, fun target hreal hdir => ?_, fun target hreal hdir => ?_,
    fun _ _ _ _ => run_idle⟩
  · have hX := FileSystem.canonicalize_of_failsOn he
    refine ⟨_, ask_of_error hX, openShared_of_error hX, PoolError.kind_ofPath path e, ?_, ?_, ?_⟩
    · exact fun hk => by simp only [PoolError.ofPath, hk]
    · exact fun hk => by simp only [PoolError.ofPath, hk]
    · intro hk hk'
      unfold PoolError.ofPath
      split
      · next h => exact absurd h hk
      · next h => exact absurd h hk'
      · rfl
  · have hX := FileSystem.canonicalize_of_isDirectory hreal hdir
    exact ⟨_, ask_of_error hX, openShared_of_error hX, rfl, rfl⟩
  · have hX : fs.canonicalize path = .ok ⟨target⟩ :=
      FileSystem.canonicalize_eq_ok_iff.2 ⟨hreal, hdir⟩
    refine ⟨fun h => h.exists_opensFrom reading hX, ⟨s.withPool.2, s.withPool.1, ask_of_ok hX,
      rfl, fun hs _ _ _ hcalled hover => ?_⟩, fun _ => rfl⟩
    exact hcalled.exists_endsAcquiring (reachable_withPool hs).sound hover

/-- Most paths fail only when they are opened. What `/stale` has led to is gone when it is looked
at. -/
def faltering : FileSystem Unit where
  realpath path := if path = .ofString "/gone" then .error .tooManyLinks else .ok path
  isDirectory path :=
    if path = .ofString "/stale" then .error .noEntry else .ok (path = .ofString "/dir")
  openRead _ := .error .accessDenied

def readsNothing : Reader Unit := fun _ state => (.ok [], state)

theorem openShared_fails_at_first_stage_faltering :
    ({} : Process Unit).openShared faltering readsNothing (.ofString "/gone")
      = some (.acquired (.error (.io .tooManyLinks)), {}) ∧
    ({} : Process Unit).openShared faltering readsNothing (.ofString "/stale")
      = some (.acquired (.error (.notFound (.ofString "/stale"))), {}) ∧
    ({} : Process Unit).openShared faltering readsNothing (.ofString "/dir")
      = some (.acquired (.error (.io (.custom .invalidInput "/dir is a directory"))), {}) ∧
    ∃ s : Process Unit, ({} : Process Unit).run faltering readsNothing
        [.openShared (.ofString "/b"), .purge] = some ([], s) ∧
      ∃ purged s' : Process Unit,
        s.openShared faltering readsNothing (.ofString "/a")
          = some (.acquired (.error (.openFailed ⟨.ofString "/a"⟩ .accessDenied)), s') ∧
        s'.system.world = purged.system.world ∧ s'.shared = some 0 := by
  have hstages := openShared_fails_at_first_stage faltering readsNothing {}
  refine ⟨?_, ?_, ?_, ?_⟩
  · obtain ⟨err, -, hopen, -, -, -, hio⟩ :=
      (hstages (.ofString "/gone")).1 .tooManyLinks (.inl (by decide +kernel))
    rwa [hio (by decide +kernel) (by decide +kernel)] at hopen
  · obtain ⟨err, -, hopen, -, hmissing, -⟩ := (hstages (.ofString "/stale")).1 .noEntry
      (.inr ⟨.ofString "/stale", by decide +kernel, by decide +kernel⟩)
    rwa [hmissing (by decide +kernel)] at hopen
  · obtain ⟨err, -, hopen, -, hdir⟩ := (hstages (.ofString "/dir")).2.1 (.ofString "/dir")
      (by decide +kernel) (by decide +kernel)
    have hdisplay : (Path.ofString "/dir").display = "/dir" := by decide +kernel
    rwa [hdir, hdisplay] at hopen
  · have houtcome : (({} : Process Unit).run faltering readsNothing
        [.openShared (.ofString "/b"), .purge]).bind (fun e =>
          (e.2.openShared faltering readsNothing (.ofString "/a")).map fun e' => (e.1, e'.1))
        = some ([], .acquired (.error (.openFailed ⟨.ofString "/a"⟩ .accessDenied))) := by
      decide +kernel
    obtain ⟨⟨given, s⟩, hrun, houtcome⟩ := Option.bind_eq_some_iff.1 houtcome
    obtain ⟨-, -, hopens, hidle⟩ :=
      openShared_fails_at_first_stage faltering readsNothing s (.ofString "/a")
    obtain ⟨hlone, -⟩ := hopens (.ofString "/a") (by decide +kernel) (by decide +kernel)
    obtain ⟨purged, result, s', -, hopen, hfrom⟩ := hlone (hidle _ _ _ _ hrun)
    rw [hopen] at houtcome
    cases houtcome
    exact ⟨s, hrun, purged, s', hopen, hfrom.unchanged _ rfl, hfrom.shared⟩

end Process

end ReadPool
