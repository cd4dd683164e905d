import Mathlib
import ReadPool.Proofs.Table
import ReadPool.Proofs.Turns

/-!
# Reachable systems

All the invariants of a scene at once, and what they are for: every act of a system is a step of
its scene, so each invariant holds of whatever is reached, in any order of acts.
-/

namespace ReadPool

namespace Scene

structure Valid (sc : Scene σ) : Prop where
  referenced : sc.Referenced
  owned : sc.Owned
  phased : sc.Phased
  numbered : sc.Numbered
  mourned : sc.Mourned
  drained : sc.Drained
  grounded : sc.Grounded
  tabled : sc.Tabled

theorem Valid.start : Valid ({} : System σ).scene where
  referenced := by
    constructor <;> simp [System.scene, World.strong, System.frames]
  owned := by
    constructor <;> simp [System.scene, System.frames, raws, World.streams, World.queued]
  phased := by
    intro raw r h
    simp [System.scene] at h
  numbered := by
    constructor <;> simp [System.scene, World.homes, World.next?]
  mourned := by
    constructor <;> simp [System.scene, System.frames, World.pending]
  drained := by
    intro p _
    simp [System.scene, World.pending]
  grounded := by
    constructor <;> simp [System.scene, System.frames, Filed, World.slot?]
  tabled := by
    constructor <;> simp [System.scene, World.slot?, LiveIn]

theorem Valid.step {sc sc' : Scene σ} (hv : Valid sc) (hs : Step sc sc') : Valid sc' where
  referenced := hv.referenced.step hv.grounded.slots hs
  owned := hv.owned.step hs
  phased := hv.phased.step hv.owned hs
  numbered := hv.numbered.step hs
  mourned := hv.mourned.step hv.referenced hv.owned hs
  drained := hv.drained.step hs
  grounded := hv.grounded.step hv.referenced hs
  tabled := hv.tabled.step hv.referenced hv.mourned hv.grounded hv.numbered hv.owned hs

/-- The wrappers of a world with one pool come from that. -/
theorem Valid.home_eq_zero {sc : Scene σ} (hv : Valid sc) (hp : sc.world.pools.length = 1)
    {h : WrapperId} {x : Wrapper} (hx : sc.world.wrappers[h]? = some x) : x.home = 0 := by
  have hm : x.home ∈ sc.world.homes := List.mem_map_of_mem (List.mem_of_getElem? hx)
  exact Nat.lt_one_iff.1 (hp ▸ hv.numbered.homes_lt _ hm)

end Scene

/-! ## Turns -/

/-- Below each frame of an acquisition is a thread that waits for its answer. -/
def Delivers : List Frame → Prop
  | [] => True
  | f :: rest => (f.acquiring ≠ 0 → isIdle rest) ∧ Delivers rest

open Scene

variable {w : World σ} {frames : List Frame} {turn : Turn σ} {O : Multiset Frame}
  {H : Multiset WrapperId} {E : List Event}

@[simp] theorem coe_cons_add (f : Frame) (rest : List Frame) (O : Multiset Frame) :
    ((f :: rest : List Frame) : Multiset Frame) + O = f ::ₘ (rest + O) := by
  rw [← Multiset.cons_coe, Multiset.cons_add]

@[simp] theorem world_finish (w : World σ) (frames answer log) :
    (w.finish frames answer log).world = w := rfl

@[simp] theorem frames_finish (w : World σ) (frames answer log) :
    (w.finish frames answer log).frames = frames := rfl

@[simp] theorem gained_purged (w : World σ) (frames n log) :
    (w.finish frames (.purged n) log).gained = [] := by
  simp only [World.finish, Turn.gained]
  split <;> simp_all

@[simp] theorem gained_done (w : World σ) (frames log) :
    (w.finish frames .done log).gained = [] := by
  simp only [World.finish, Turn.gained]
  split <;> simp_all

@[simp] theorem gained_error (w : World σ) (frames e log) :
    (w.finish frames (.acquired (.error e)) log).gained = [] := by
  simp only [World.finish, Turn.gained]
  split <;> simp_all

/-- A frame that is not an acquisition's may stand anywhere. -/
theorem Delivers.cons {f : Frame} (hf : f.acquiring = 0) (hd : Delivers frames) :
    Delivers (f :: frames) := ⟨fun h => absurd hf h, hd⟩

theorem Delivers.yields (hd : Delivers frames) (h : w.Yields frames turn) :
    Delivers turn.frames := by
  cases h with
  | drained | found | openFailed | published | dropped | closed | posted | retired | flushed =>
    exact hd.2
  | received | flushing => exact .cons rfl (.cons rfl hd.2)
  | missed | opened | wrapped => exact ⟨fun _ => hd.1 (by simp [Frame.acquiring]), hd.2⟩
  | lost => exact .cons rfl ⟨fun _ => hd.1 (by simp [Frame.acquiring]), hd.2⟩
  | _ => exact .cons rfl hd.2

variable {F : Multiset Frame} {p : PoolId} {k : WrapperId}

/-- The pool of an acquisition is there, for it is up. -/
theorem exists_pool (hv : Valid ⟨w, F, H, E⟩) (hp : p ∈ collect Frame.acquiring F) :
    ∃ pool, w.pools[p]? = some pool := by
  obtain ⟨pool, -, hpool, -⟩ := World.isUp_iff.1 (hv.grounded.up p hp).1
  exact ⟨pool, hpool⟩

/-- A wrapper that has just lost its race has its raw handle, and nobody else refers to it. -/
theorem intoRaw?_ne_none (hv : Valid ⟨w, F, H, E⟩) (hk : k ∈ collect Frame.trial F) :
    w.intoRaw? k ≠ none := by
  obtain ⟨x, raw, hx, hs, hr⟩ := hv.referenced.exists_of_trial hk
  simp [World.intoRaw?_eq_some_iff.2 ⟨x, hx, hs, hr, rfl⟩]

/-- A reference that goes without a death is not the last. -/
theorem exists_of_release_eq_none (hv : Valid ⟨w, F, H, E⟩) (hk : k ∈ collect Frame.dropped F)
    {w' : World σ} (hw : w.release k = (w', none)) :
    ∃ x, w.wrappers[k]? = some x ∧ x.strong ≠ 1 ∧
      w' = w.updateWrapper k fun x => { x with strong := x.strong - 1 } := by
  obtain ⟨x, raw, hx, hr⟩ := hv.referenced.exists_of_dropped hk
  have hs : x.strong ≠ 1 := by
    intro hone
    rw [World.release_eq_some_iff.2 ⟨x, raw, hx, hone, hr, rfl, rfl, rfl⟩] at hw
    cases hw
  rw [World.release_shared hx hs] at hw
  exact ⟨x, hx, hs, (Prod.mk.inj hw).1.symm⟩

/-- A turn of a thread is a step of the scene. -/
theorem scene_turn (hv : Valid ⟨w, frames + O, H, E⟩) (hd : Delivers frames)
    (h : w.Yields frames turn) :
    Step ⟨w, frames + O, H, E⟩
      ⟨turn.world, turn.frames + O, turn.gained + H, turn.events w frames ++ E⟩ := by
  cases h with
  | drained hq => simpa [Turn.events, hq] using Step.receiveNone hq
  | received hq => simpa [Turn.events, hq, Turn.gained] using Step.receive hq
  | evicted => simpa [Turn.events, Turn.gained] using Step.evict
  | @found p X rest slot hX hl =>
    obtain ⟨pool, hp⟩ := exists_pool hv (p := p) (by simp [Frame.acquiring])
    have hidle : isIdle rest := hd.1 (by simp [Frame.acquiring])
    simpa [Turn.events, Turn.gained, World.finish, hidle] using
      Step.hit hp (World.slot?_eq hp ▸ hX) hl
  | @missed p X rest hdead =>
    obtain ⟨pool, hp⟩ := exists_pool hv (p := p) (by simp [Frame.acquiring])
    rw [World.slot?_eq hp] at hdead ⊢
    cases hX : pool.slots.find? X with
    | none => simpa [Turn.events, Turn.gained] using Step.vacant hp hX
    | some slot => simpa [Turn.events, Turn.gained] using Step.stale hp hX (hdead slot hX)
  | openFailed e => simpa [Turn.events] using Step.openFailed
  | opened state => simpa [Turn.events, Turn.gained] using Step.opened state
  | @wrapped p X observed raw rest =>
    obtain ⟨pool, hp⟩ := exists_pool hv (p := p) (by simp [Frame.acquiring])
    simpa [Turn.events, Turn.gained, hp] using Step.wrap hp
  | @published p X observed k rest slots hs =>
    obtain ⟨pool, hp⟩ := exists_pool hv (p := p) (by simp [Frame.acquiring])
    obtain ⟨-, x, hx, -, -⟩ := hv.grounded.frames (.publish p X observed k) (by simp)
    have hidle : isIdle rest := hd.1 (by simp [Frame.acquiring])
    simpa [Turn.events, Turn.gained, World.finish, hidle] using
      Step.publish hx hp (World.publish?_eq hp hx ▸ hs)
  | @lost p X observed k rest hs =>
    obtain ⟨pool, hp⟩ := exists_pool hv (p := p) (by simp [Frame.acquiring])
    simpa [Turn.events, Turn.gained] using Step.lose ((World.publish?_eq_none_iff hp).1 hs)
  | unwrapped hx hs hr => simpa [Turn.events, Turn.gained] using Step.discard hx hs hr
  | @shared k rest hs =>
    exact absurd hs (intoRaw?_ne_none hv (by simp [Frame.trial]))
  | died hx hs hr => simpa [Turn.events, Turn.gained] using Step.dropLast hx hs hr
  | @dropped k rest w' hw =>
    obtain ⟨x, hx, hs, rfl⟩ := exists_of_release_eq_none hv (by simp [Frame.dropped]) hw
    simpa [Turn.events] using Step.dropShared hx hs
  | closing => simpa [Turn.events, Turn.gained] using Step.close
  | closed error => simpa [Turn.events] using Step.closed
  | posted hq => simpa [Turn.events, hq] using Step.post hq
  | releasedInline hq => simpa [Turn.events, hq, Turn.gained] using Step.postInline hq
  | retiring => simpa [Turn.events, Turn.gained] using Step.retire
  | retired => simpa [Turn.events] using Step.retired
  | disconnected => simpa [Turn.events, Turn.gained] using Step.disconnect
  | flushed => simpa [Turn.events] using Step.flushNone
  | flushing => simpa [Turn.events, Turn.gained] using Step.flush

/-! ## Acts -/

namespace System

variable {s s' : System σ}

/-- The frames of one thread, and those of the others. -/
theorem exists_others {threads : List (List Frame)} {t : ThreadId}
    (ht : threads[t]? = some frames) : ∃ O : Multiset Frame,
      (threads.flatten : Multiset Frame) = frames + O ∧
      ∀ frames', ((threads.set t frames').flatten : Multiset Frame) = (frames' : Multiset Frame) + O := by
  induction threads generalizing t with
  | nil => simp at ht
  | cons first threads ih =>
    cases t with
    | zero =>
      obtain rfl : first = frames := by simpa using ht
      exact ⟨threads.flatten, by simp, fun frames' => by simp⟩
    | succ t =>
      obtain ⟨O, hO, hset⟩ := ih (t := t) (by simpa using ht)
      refine ⟨first + O, ?_, ?_⟩
      · rw [List.flatten_cons, ← Multiset.coe_add, hO]
        abel
      · intro frames'
        rw [List.set_cons_succ, List.flatten_cons, ← Multiset.coe_add, hset]
        abel

theorem isOpen_iff {p : PoolId} :
    s.isOpen p ↔ s.world.isUp p ∧ .disconnect p ∉ (s.frames : Multiset Frame) := by
  simp [isOpen, World.isUp]

/-- A call puts its frames on a thread that waits. -/
theorem scene_call {c : Call} (hs : s.admits c) {O : Multiset Frame}
    (hO : (s.frames : Multiset Frame) = frames + O) :
    Step ⟨s.world, frames + O, s.held, s.history⟩
      ⟨s.world, (c.frames ++ frames : List Frame) + O, afterCall s.held c, s.history⟩ := by
  cases c with
  | acquire p X =>
    obtain ⟨hp, hd⟩ := isOpen_iff.1 hs
    simpa [Call.frames, afterCall] using Step.acquire hp (hO ▸ hd)
  | purge p =>
    obtain ⟨hp, hd⟩ := isOpen_iff.1 hs
    simpa [Call.frames, afterCall] using Step.purge hp (hO ▸ hd)
  | drop h =>
    have hh : h ∈ (s.held : Multiset WrapperId) := by simpa [admits] using hs
    have he : (s.held : Multiset WrapperId) = h ::ₘ (s.held.erase h : List WrapperId) := by
      rw [← Multiset.coe_erase, Multiset.cons_erase hh]
    rw [he]
    simp only [Call.frames, List.singleton_append, coe_cons_add, afterCall]
    exact .letGo
  | dropPool p =>
    simp only [admits, Bool.and_eq_true, List.all_eq_true, decide_eq_true_eq] at hs
    obtain ⟨hp, -⟩ := isOpen_iff.1 hs.1
    have hF : ∀ f ∈ (frames : Multiset Frame) + O, f.pool? ≠ some p := by
      rw [← hO]
      exact hs.2
    simpa [Call.frames, afterCall] using Step.dropPool hp hF
  | _ => cases hs

theorem delivers_call {c : Call} (hidle : isIdle frames) (hs : s.admits c)
    (hd : Delivers frames) : Delivers (c.frames ++ frames) := by
  cases c with
  | acquire p X => exact .cons rfl ⟨fun _ => hidle, hd⟩
  | purge p => exact .cons rfl hd
  | drop h => exact .cons rfl hd
  | dropPool p => exact .cons rfl (.cons rfl (.cons rfl hd))
  | _ => cases hs

/-- What is kept by every act: the invariants, and that acquisitions are answered. -/
structure Sound (s : System σ) : Prop where
  valid : s.scene.Valid
  delivers : ∀ frames ∈ s.threads, Delivers frames

theorem Sound.delivers_set (hs : Sound s) (hd : Delivers frames) (t : ThreadId) :
    ∀ frames' ∈ s.threads.set t frames, Delivers frames' := by
  intro frames' hf
  rcases List.mem_or_eq_of_mem_set hf with hold | rfl
  · exact hs.delivers frames' hold
  · exact hd

/-- What one thread does, whatever the others are at, is a step of the whole scene. -/
theorem Sound.scene_take (hs : Sound s) {t : ThreadId} (ht : s.threads[t]? = some frames)
    (h : s.world.Yields frames turn) :
    Step s.scene (s.take t frames turn).scene ∧
      ∀ frames' ∈ (s.take t frames turn).threads, Delivers frames' := by
  obtain ⟨O, hO, hO'⟩ := exists_others ht
  have hd := hs.delivers frames (List.mem_of_getElem? ht)
  have hv : Valid ⟨s.world, frames + O, s.held, s.history⟩ := hO ▸ hs.valid
  have hst := scene_turn hv hd h
  refine ⟨?_, hs.delivers_set (hd.yields h) t⟩
  simpa only [scene, System.frames, take, hO, hO', Multiset.coe_add] using hst

/-- Every act of a system is a step of its scene. -/
theorem Sound.scene_next (hs : Sound s) {a : Act σ} (h : s.next? a = some s') :
    Step s.scene s'.scene ∧ ∀ frames ∈ s'.threads, Delivers frames := by
  cases a with
  | spawn =>
    cases h
    have hf : (s.threads ++ [[]]).flatten = s.threads.flatten := by simp
    refine ⟨?_, ?_⟩
    · simp only [scene, System.frames, hf]
      exact .still
    · intro frames hf
      rcases List.mem_append.1 hf with hold | hnew
      · exact hs.delivers frames hold
      · exact List.mem_singleton.1 hnew ▸ trivial
  | newPool config =>
    simp only [next?, World.newPool] at h
    split at h
    · cases h
    · cases h
      exact ⟨.newPool, hs.delivers⟩
  | call t c =>
    obtain ⟨frames, ht, h⟩ := Option.bind_eq_some_iff.1 h
    split at h
    · next hc =>
      cases h
      obtain ⟨hidle, hadm⟩ := Bool.and_eq_true_iff.1 hc
      obtain ⟨O, hO, hO'⟩ := exists_others ht
      have hd := hs.delivers frames (List.mem_of_getElem? ht)
      refine ⟨?_, hs.delivers_set (delivers_call hidle hadm hd) t⟩
      simpa only [scene, System.frames, hO, hO'] using scene_call hadm hO
    · cases h
  | turn t =>
    obtain ⟨frames, ht, h⟩ := Option.bind_eq_some_iff.1 h
    obtain ⟨turn, hw, rfl⟩ := Option.map_eq_some_iff.1 h
    exact hs.scene_take ht (World.yields_step hw)
  | opened t result =>
    obtain ⟨frames, ht, h⟩ := Option.bind_eq_some_iff.1 h
    obtain ⟨turn, hw, rfl⟩ := Option.map_eq_some_iff.1 h
    exact hs.scene_take ht (World.yields_opened hw)
  | closed t error =>
    obtain ⟨frames, ht, h⟩ := Option.bind_eq_some_iff.1 h
    obtain ⟨turn, hw, rfl⟩ := Option.map_eq_some_iff.1 h
    exact hs.scene_take ht (World.yields_closed hw)
  | retired t =>
    obtain ⟨frames, ht, h⟩ := Option.bind_eq_some_iff.1 h
    obtain ⟨turn, hw, rfl⟩ := Option.map_eq_some_iff.1 h
    exact hs.scene_take ht (World.yields_retired hw)
  | clone k =>
    simp only [next?] at h
    split at h
    · next hk =>
      cases h
      exact ⟨.clone (by simpa [scene] using hk), hs.delivers⟩
    · cases h
  | closeReference k =>
    simp only [next?] at h
    split at h
    · cases h
      exact ⟨.still, hs.delivers⟩
    · cases h
  | read k f =>
    simp only [next?] at h
    split at h
    · next hk =>
      obtain ⟨⟨_, world⟩, hw, rfl⟩ := Option.map_eq_some_iff.1 h
      obtain ⟨r, hr, hw⟩ := Option.bind_eq_some_iff.1 hw
      obtain ⟨x, hx, hstream⟩ := Option.bind_eq_some_iff.1 hr
      obtain ⟨raw, -, hw⟩ := Option.map_eq_some_iff.1 hw
      cases hw
      exact ⟨.read f (by simpa [scene] using hk) hx hstream, hs.delivers⟩
    · cases h

theorem Sound.next (hs : Sound s) {a : Act σ} (h : s.next? a = some s') : Sound s' :=
  ⟨hs.valid.step (hs.scene_next h).1, (hs.scene_next h).2⟩

theorem Reachable.sound (h : Reachable s) : Sound s :=
  h.keeps ⟨Valid.start, by simp⟩ fun _ _ _ hs ha => hs.next ha

theorem Reachable.valid (h : Reachable s) : s.scene.Valid := h.sound.valid

/-- An act of a reachable system, seen on its scene. -/
theorem Reachable.scene_next (h : Reachable s) {a : Act σ} (ha : s.next? a = some s') :
    Step s.scene s'.scene := (h.sound.scene_next ha).1

end System

end ReadPool
