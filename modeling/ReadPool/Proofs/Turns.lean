import Mathlib
import ReadPool.Pool.Step
import ReadPool.Proofs.World

/-!
# What comes of the frame on top

`World.Yields` has one case for each way that the frame on top can go, with what that presupposes
and all that comes of it. The actions of `ReadPool.Pool.Step` are opened up here in both directions,
and not again: what a turn keeps is read off the cases, and a turn is carried out by naming its case.
-/

namespace ReadPool

namespace World

variable {w : World σ} {p : PoolId} {X : Identity} {observed : Option Entry} {h : WrapperId}
  {x : Wrapper} {pool : Pool}

/-- The number of the open that a wrapper comes from; what is no wrapper has none. -/
def entry (w : World σ) (h : WrapperId) : Entry := (w.wrappers[h]?.map Wrapper.entry).getD 0

theorem entry_eq (hx : w.wrappers[h]? = some x) : w.entry h = x.entry := by
  rw [entry, hx, Option.map_some, Option.getD_some]

/-- The slots of a pool when a wrapper has been published; none if what was observed has changed. -/
def publish? (w : World σ) (p : PoolId) (X : Identity) (observed : Option Entry)
    (h : WrapperId) : Option Slots :=
  w.pools[p]?.bind fun pool => pool.slots.publish X observed ⟨w.entry h, h⟩

theorem publish?_eq (hp : w.pools[p]? = some pool) (hx : w.wrappers[h]? = some x) :
    w.publish? p X observed h = pool.slots.publish X observed ⟨x.entry, h⟩ := by
  rw [publish?, hp, Option.bind_some, entry_eq hx]

theorem publish?_eq_none_iff (hp : w.pools[p]? = some pool) :
    w.publish? p X observed h = none ↔ (w.slot? p X).map Slot.entry ≠ observed := by
  rw [publish?, hp, Option.bind_some, publish_eq_none_iff hp]

theorem slot?_eq (hp : w.pools[p]? = some pool) : w.slot? p X = pool.slots.find? X := by
  rw [slot?, hp, Option.bind_some]

/-- A raw handle is given up for the only reference to its wrapper. -/
theorem intoRaw?_eq_some_iff {w' : World σ} {raw : RawId} :
    w.intoRaw? h = some (w', raw) ↔ ∃ x, w.wrappers[h]? = some x ∧ x.strong = 1 ∧
      x.stream = some raw ∧
      w' = w.updateWrapper h fun x => { x with strong := 0, stream := none } := by
  simp only [intoRaw?, Option.bind_eq_some_iff]
  refine exists_congr fun x => and_congr_right fun _ => ?_
  by_cases hs : x.strong = 1
  · simp only [hs, if_true, Option.map_eq_some_iff, Prod.mk.injEq, true_and]
    constructor
    · rintro ⟨raw', hr, rfl, rfl⟩
      exact ⟨hr, rfl⟩
    · rintro ⟨hr, rfl⟩
      exact ⟨raw, hr, rfl, rfl⟩
  · simp [hs]

/-- The last reference goes with the death of its wrapper. -/
theorem release_eq_some_iff {w' : World σ} {home : PoolId} {note : Note} :
    w.release h = (w', some (home, note)) ↔ ∃ x raw, w.wrappers[h]? = some x ∧ x.strong = 1 ∧
      x.stream = some raw ∧
      w' = w.updateWrapper h (fun x => { x with strong := 0, stream := none }) ∧
      home = x.home ∧ note = ⟨x.identity, x.entry, raw⟩ := by
  unfold release
  cases hx : w.wrappers[h]? with
  | none => simp
  | some x =>
    by_cases hs : x.strong = 1
    · cases hr : x.stream <;> simp [hs, hr, eq_comm]
    · simp [hs]

theorem release_shared (hx : w.wrappers[h]? = some x) (hs : x.strong ≠ 1) :
    w.release h = (w.updateWrapper h fun x => { x with strong := x.strong - 1 }, none) := by
  simp only [release, hx, hs, if_false]

end World

/-- What can come of a thread with these frames when it has its turn. -/
inductive World.Yields (w : World σ) : List Frame → Turn σ → Prop where
  | drained {p : PoolId} {n : Nat} {rest : List Frame} (hq : w.pending p = []) :
      Yields w (.receive p n :: rest) (w.finish rest (.purged n))
  | received {p : PoolId} {n : Nat} {rest : List Frame} {note : Note} {notes : List Note}
      (hq : w.pending p = note :: notes) :
      Yields w (.receive p n :: rest)
        { world := w.updatePool p fun pool => { pool with queue := some notes }
          frames := .evict p note :: .receive p (n + 1) :: rest }
  | evicted {p : PoolId} {note : Note} {rest : List Frame} {removed : Bool}
      (hr : removed ↔ (w.slot? p note.identity).map Slot.entry = some note.entry) :
      Yields w (.evict p note :: rest)
        { world := w.updatePool p fun pool =>
            { pool with slots := pool.slots.evict note.identity note.entry }
          frames := .close note.raw note.identity note.entry .death :: rest
          log := [.drained note.identity note.entry removed] }
  | found {p : PoolId} {X : Identity} {rest : List Frame} {slot : Slot}
      (hX : w.slot? p X = some slot) (hl : w.isLive slot.wrapper) :
      Yields w (.lookUp p X :: rest)
        ((w.retain slot.wrapper).finish rest (.acquired (.ok slot.wrapper)))
  /-- There is no slot, or a dead one, which is what the publication will have to find. -/
  | missed {p : PoolId} {X : Identity} {rest : List Frame}
      (hdead : ∀ slot, w.slot? p X = some slot → w.isLive slot.wrapper = false) :
      Yields w (.lookUp p X :: rest)
        { world := w, frames := .opening p X ((w.slot? p X).map Slot.entry) :: rest }
  | openFailed {p : PoolId} {X : Identity} {observed : Option Entry} {rest : List Frame}
      (e : IoError) :
      Yields w (.opening p X observed :: rest)
        (w.finish rest (.acquired (.error (.openFailed X e))) [.openFailed X e])
  | opened {p : PoolId} {X : Identity} {observed : Option Entry} {rest : List Frame} (state : σ) :
      Yields w (.opening p X observed :: rest)
        { world := (w.addRaw X state).1, frames := .wrap p X observed w.raws.length :: rest }
  | wrapped {p : PoolId} {X : Identity} {observed : Option Entry} {raw : RawId}
      {rest : List Frame} :
      Yields w (.wrap p X observed raw :: rest)
        { world := ((w.updatePool p fun pool => { pool with next := pool.next + 1 }).addWrapper
            p X ((w.pools[p]?.map Pool.next).getD 0) raw).1
          frames := .publish p X observed w.wrappers.length :: rest }
  | published {p : PoolId} {X : Identity} {observed : Option Entry} {h : WrapperId}
      {rest : List Frame} {slots : Slots} (hs : w.publish? p X observed h = some slots) :
      Yields w (.publish p X observed h :: rest)
        ((w.updatePool p fun pool => { pool with slots }).finish rest (.acquired (.ok h))
          [.published X (w.entry h) observed])
  /-- The slot has changed since it was observed, so the look-up is made again. -/
  | lost {p : PoolId} {X : Identity} {observed : Option Entry} {h : WrapperId}
      {rest : List Frame} (hs : w.publish? p X observed h = none) :
      Yields w (.publish p X observed h :: rest)
        { world := w, frames := .discard h :: .lookUp p X :: rest
          log := [.lostRace X (w.entry h)] }
  | unwrapped {h : WrapperId} {rest : List Frame} {x : Wrapper} {raw : RawId}
      (hx : w.wrappers[h]? = some x) (hs : x.strong = 1) (hr : x.stream = some raw) :
      Yields w (.discard h :: rest)
        { world := w.updateWrapper h fun x => { x with strong := 0, stream := none }
          frames := .close raw x.identity x.entry .lostRace :: rest }
  /-- There is no raw handle to take out. -/
  | shared {h : WrapperId} {rest : List Frame} (hs : w.intoRaw? h = none) :
      Yields w (.discard h :: rest) { world := w, frames := .drop h :: rest }
  | died {h : WrapperId} {rest : List Frame} {x : Wrapper} {raw : RawId}
      (hx : w.wrappers[h]? = some x) (hs : x.strong = 1) (hr : x.stream = some raw) :
      Yields w (.drop h :: rest)
        { world := w.updateWrapper h fun x => { x with strong := 0, stream := none }
          frames := .post x.home ⟨x.identity, x.entry, raw⟩ :: rest }
  | dropped {h : WrapperId} {rest : List Frame} {w' : World σ} (hw : w.release h = (w', none)) :
      Yields w (.drop h :: rest) (w'.finish rest .done)
  | closing {raw : RawId} {X : Identity} {entry : Entry} {cause : CloseCause}
      {rest : List Frame} :
      Yields w (.close raw X entry cause :: rest)
        { world := w.updateRaw raw fun r => { r with phase := .closing }
          frames := .closing raw X entry cause :: rest }
  | closed {raw : RawId} {X : Identity} {entry : Entry} {cause : CloseCause} {rest : List Frame}
      (error : Option IoError) :
      Yields w (.closing raw X entry cause :: rest)
        ((w.updateRaw raw fun r => { r with phase := .closed }).finish rest .done
          (closeReport X entry cause error))
  | posted {home : PoolId} {note : Note} {rest : List Frame} {notes : List Note}
      (hq : w.pools[home]?.bind Pool.queue = some notes) :
      Yields w (.post home note :: rest)
        ((w.updatePool home fun pool => { pool with queue := some (notes ++ [note]) }).finish
          rest .done)
  /-- The pool is gone, so nobody would receive the death. -/
  | releasedInline {home : PoolId} {note : Note} {rest : List Frame}
      (hq : w.pools[home]?.bind Pool.queue = none) :
      Yields w (.post home note :: rest)
        { world := w, frames := .close note.raw note.identity note.entry .death :: rest
          log := [.releasedInline note.identity note.entry] }
  | retiring {p : PoolId} {rest : List Frame} :
      Yields w (.retire p :: rest) { world := w, frames := .retiring p :: rest }
  | retired {p : PoolId} {rest : List Frame} :
      Yields w (.retiring p :: rest) (w.finish rest .done)
  | disconnected {p : PoolId} {rest : List Frame} :
      Yields w (.disconnect p :: rest)
        { world := w.updatePool p fun pool => { pool with slots := .empty, queue := none }
          frames := .flush (w.pending p) :: rest }
  | flushed {rest : List Frame} : Yields w (.flush [] :: rest) (w.finish rest .done)
  | flushing {note : Note} {notes : List Note} {rest : List Frame} :
      Yields w (.flush (note :: notes) :: rest)
        { world := w
          frames := .close note.raw note.identity note.entry .death :: .flush notes :: rest }

namespace World

variable {w : World σ} {frames rest : List Frame} {turn : Turn σ} {p : PoolId} {X : Identity}
  {k : WrapperId}

theorem removed_iff (w : World σ) (p : PoolId) (note : Note) :
    (w.pools[p]?.map fun pool => pool.slots.isCurrent note.identity note.entry).getD false ↔
      (w.slot? p note.identity).map Slot.entry = some note.entry := by
  cases hp : w.pools[p]? <;> simp [slot?, hp, Slots.isCurrent, Option.any_eq_true]

theorem yields_lookUp (h : w.step (.lookUp p X :: rest) = some turn) :
    w.Yields (.lookUp p X :: rest) turn := by
  -- No slot and a dead slot are one case of `Yields`, but two of the action.
  have hmissed := @Yields.missed _ w p X rest
  simp only [step] at h
  split at h
  · next hX =>
    have hX : w.slot? p X = none := hX
    cases h
    simpa [hX] using hmissed
  · next slot hX =>
    have hX : w.slot? p X = some slot := hX
    cases hl : w.isLive slot.wrapper with
    | true =>
      simp only [upgrade?, hl, if_true, Option.some.injEq] at h
      subst h
      exact .found hX hl
    | false =>
      simp only [upgrade?, hl, Bool.false_eq_true, if_false, Option.some.injEq] at h
      subst h
      simpa [hX, hl] using hmissed

theorem yields_discard (h : w.step (.discard k :: rest) = some turn) :
    w.Yields (.discard k :: rest) turn := by
  simp only [step] at h
  split at h
  · next x w' raw hx hw =>
    cases h
    obtain ⟨y, hy, hs, hr, rfl⟩ := intoRaw?_eq_some_iff.1 hw
    obtain rfl : x = y := Option.some.inj (hx.symm.trans hy)
    exact .unwrapped hx hs hr
  · next hno =>
    cases h
    -- A raw handle can be taken out of a wrapper only, so it is the raw handle that is missing.
    refine .shared (Option.eq_none_iff_forall_ne_some.2 fun ⟨w', raw⟩ hw => ?_)
    obtain ⟨x, hx, -⟩ := intoRaw?_eq_some_iff.1 hw
    exact hno x w' raw hx hw

theorem yields_step (h : w.step frames = some turn) : w.Yields frames turn := by
  cases frames with
  | nil => cases h
  | cons f rest =>
    cases f with
    | receive p n =>
      simp only [step, receive?] at h
      cases hq : w.pending p <;> simp only [hq, Option.some.injEq] at h <;> subst h
      · exact .drained hq
      · exact .received hq
    | evict p note =>
      cases h
      exact .evicted (w.removed_iff p note)
    | lookUp p X => exact yields_lookUp h
    | wrap p X observed raw =>
      cases h
      exact .wrapped
    | publish p X observed k =>
      simp only [step] at h
      split at h <;> cases h
      · next hs => exact .published hs
      · next hs => exact .lost hs
    | discard k => exact yields_discard h
    | close raw X entry cause =>
      cases h
      exact .closing
    | drop k =>
      simp only [step] at h
      split at h <;> cases h
      · next hw =>
        obtain ⟨x, raw, hx, hs, hr, rfl, rfl, rfl⟩ := release_eq_some_iff.1 hw
        exact .died hx hs hr
      · next hw => exact .dropped hw
    | post home note =>
      simp only [step] at h
      split at h <;> cases h
      · next hq => exact .posted hq
      · next hq => exact .releasedInline hq
    | retire p =>
      cases h
      exact .retiring
    | disconnect p =>
      cases h
      exact .disconnected
    | flush notes =>
      cases notes <;> cases h
      · exact .flushed
      · exact .flushing
    | opening | closing | retiring => cases h

/-- A thread cannot act while the environment has its turn. -/
theorem isIdle_of_step (h : w.step frames = some turn) : isIdle frames = false := by
  cases yields_step h with
  | openFailed | opened | closed | retired => cases h
  | _ => rfl

theorem yields_opened {result : Except IoError σ} (h : w.opened frames result = some turn) :
    w.Yields frames turn := by
  unfold opened at h
  split at h
  · cases result <;> cases h
    · exact .openFailed _
    · exact .opened _
  · cases h

theorem yields_closed {error : Option IoError} (h : w.closed frames error = some turn) :
    w.Yields frames turn := by
  unfold closed at h
  split at h <;> cases h
  exact .closed error

theorem yields_retired (h : w.retired frames = some turn) : w.Yields frames turn := by
  unfold retired at h
  split at h <;> cases h
  exact .retired

/-- What does not wait for the environment can act. -/
theorem exists_step (w : World σ) {f : Frame} (rest : List Frame) (hf : f.isWaiting = false) :
    ∃ turn, w.step (f :: rest) = some turn := by
  cases f with
  | opening | closing | retiring => cases hf
  | receive | publish | discard | drop | post =>
    simp only [step]
    split <;> exact ⟨_, rfl⟩
  | lookUp p X =>
    simp only [step]
    split
    · exact ⟨_, rfl⟩
    · split <;> exact ⟨_, rfl⟩
  | flush notes => cases notes <;> exact ⟨_, rfl⟩
  | _ => exact ⟨_, rfl⟩

/-- What a thread can come to without the environment is what it does come to. -/
theorem Yields.step (h : w.Yields frames turn) (hbusy : isIdle frames = false) :
    w.step frames = some turn := by
  cases h with
  | drained hq => simp only [World.step, World.receive?, hq]
  | received hq => simp only [World.step, World.receive?, hq]
  | @evicted p note rest removed hr =>
    -- What is logged is whether the slot was the dead one.
    have hremoved := Bool.eq_iff_iff.2 ((w.removed_iff p note).trans hr.symm)
    simp only [World.step, hremoved]
  | found hX hl =>
    unfold World.slot? at hX
    simp only [World.step, hX, World.upgrade?, hl, if_true]
  | @missed p X rest hdead =>
    unfold World.slot? at hdead ⊢
    simp only [World.step]
    cases hX : w.pools[p]?.bind fun pool => pool.slots.find? X with
    | none => rfl
    | some slot => simp [World.upgrade?, hdead slot hX]
  | openFailed | opened | closed | retired => cases hbusy
  | published hs =>
    unfold World.publish? World.entry at hs
    simp only [World.step, hs]
    rfl
  | lost hs =>
    unfold World.publish? World.entry at hs
    simp only [World.step, hs]
    rfl
  | unwrapped hx hs hr =>
    have hw := World.intoRaw?_eq_some_iff.2 ⟨_, hx, hs, hr, rfl⟩
    simp only [World.step, hx, hw]
  | @shared k rest hs =>
    simp only [World.step, hs]
    cases w.wrappers[k]? <;> rfl
  | died hx hs hr =>
    have hw := World.release_eq_some_iff.2 ⟨_, _, hx, hs, hr, rfl, rfl, rfl⟩
    simp only [World.step, hw]
  | dropped hw => simp only [World.step, hw]
  | posted hq => simp only [World.step, hq]
  | releasedInline hq => simp only [World.step, hq]
  | wrapped | closing | retiring | disconnected | flushed | flushing => rfl

theorem step_eq_none_iff : w.step frames = none ↔ isIdle frames := by
  cases frames with
  | nil => simp [World.step, isIdle]
  | cons f rest =>
    cases hf : f.isWaiting with
    | true => cases f <;> cases hf <;> simp [World.step, isIdle, Frame.isWaiting]
    | false =>
      obtain ⟨turn, h⟩ := w.exists_step rest hf
      simp [h, isIdle, hf]

/-- Where whatever comes of one thread comes of another as well, the other acts just as the one
does. -/
theorem step_eq_map {w' : World σ} {frames' : List Frame} {g : Turn σ → Turn σ}
    (hidle : isIdle frames' = isIdle frames)
    (h : ∀ turn, w.step frames = some turn → w'.Yields frames' (g turn)) :
    w'.step frames' = (w.step frames).map g := by
  cases hstep : w.step frames with
  | none => rw [Option.map_none, step_eq_none_iff, hidle, ← step_eq_none_iff, hstep]
  | some turn => exact (h turn hstep).step (hidle.trans (isIdle_of_step hstep))

variable {pool : Pool} {observed : Option Entry} {raw : RawId} {x : Wrapper} {slots : Slots}

theorem step_wrap (hp : w.pools[p]? = some pool) :
    w.step (.wrap p X observed raw :: rest) = some
      { world := ((w.updatePool p fun pool => { pool with next := pool.next + 1 }).addWrapper
          p X pool.next raw).1
        frames := .publish p X observed w.wrappers.length :: rest } := by
  simpa [hp] using (@Yields.wrapped _ w p X observed raw rest).step rfl

theorem step_publish (hp : w.pools[p]? = some pool) (hx : w.wrappers[k]? = some x)
    (hs : pool.slots.publish X observed ⟨x.entry, k⟩ = some slots) :
    w.step (.publish p X observed k :: rest) = some
      ((w.updatePool p fun pool => { pool with slots }).finish rest (.acquired (.ok k))
        [.published X x.entry observed]) := by
  rw [← publish?_eq hp hx] at hs
  have hstep : w.step (.publish p X observed k :: rest) = _ := (Yields.published hs).step rfl
  rwa [entry_eq hx] at hstep

end World

end ReadPool
