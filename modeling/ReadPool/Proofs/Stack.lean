import Mathlib
import ReadPool.Proofs.Moments

/-!
# The stack of a lone thread

What a lone thread has left to do, if its openers and closes may call as they like. Only the frame
on top is about to do something: whatever is below waits, and is such that other frames may come to
stand above it.

A pool that is dropped is drained, then its opener goes, then its queue ends. The frames for that
stand on each other until each has had its turn, and nothing that comes above an opener on its way
out works on its pool, for nobody can borrow the pool any more (`Ordered`).
-/

namespace ReadPool

namespace Frame

/-- Other frames may come to stand above. -/
def isBase : Frame → Bool
  | receive _ _ => true
  | lookUp _ _ => true
  | opening _ _ _ => true
  | closing _ _ _ _ => true
  | retire _ => true
  | retiring _ => true
  | disconnect _ => true
  | flush _ => true
  | _ => false

/-- Anything may come to stand right above. -/
def isHost : Frame → Bool
  | retire _ => false
  | disconnect _ => false
  | f => f.isBase

/-- The pool that is drained. -/
def drains? : Frame → Option PoolId
  | receive p _ => some p
  | _ => none

/-- The pool whose opener goes. -/
def retires? : Frame → Option PoolId
  | retire p => some p
  | retiring p => some p
  | _ => none

/-- The frame may stand on the others. A pool's opener waits for the last drain, and the end of its
queue for the opener. -/
structure Over (f : Frame) (below : List Frame) : Prop where
  base : ∀ g ∈ below.head?, g.isBase
  drains : ∀ p, below.head? = some (.retire p) → f.drains? = some p
  retires : ∀ p, f.retires? = some p ↔ below.head? = some (.disconnect p)
  apart : ∀ p, .retiring p ∈ below → f.pool? ≠ some p

theorem isBase_of_isHost {f : Frame} (hf : f.isHost) : f.isBase := by
  cases f with
  | retire | disconnect => cases hf
  | _ => exact hf

theorem isHost_of_isWaiting {f : Frame} (hf : f.isWaiting) : f.isHost := by
  cases f with
  | opening | closing | retiring => rfl
  | _ => cases hf

end Frame

/-- Each frame may stand on those below it. -/
def Ordered : List Frame → Prop
  | [] => True
  | f :: below => f.Over below ∧ Ordered below

/-- What the frame on top goes by: the wrapper that is to be published was made last, the pool whose
death was received is up, and a pool whose opener is let go of has nothing left to receive. -/
def World.Ready (w : World σ) : List Frame → Prop
  | .publish _ _ _ h :: _ => h + 1 = w.wrappers.length
  | .evict p _ :: _ => w.isUp p
  | .retire p :: _ => w.pending p = []
  | _ => True

variable {w : World σ} {frames rest : List Frame} {f g : Frame} {turn : Turn σ} {p : PoolId}

theorem isHost_of_isIdle (hidle : isIdle frames) : ∀ g ∈ frames.head?, g.isHost := by
  intro g hg
  obtain ⟨rest, rfl⟩ := List.head?_eq_some_iff.1 hg
  exact Frame.isHost_of_isWaiting hidle

namespace Ordered

/-! ## What is below -/

theorem isBase (hF : Ordered (f :: rest)) : ∀ g ∈ rest, g.isBase := by
  induction rest generalizing f with
  | nil => simp
  | cons g rest ih => exact List.forall_mem_cons.2 ⟨hF.1.base g rfl, ih hF.2⟩

theorem isBase_of_isIdle (hF : Ordered frames) (hidle : isIdle frames) :
    ∀ g ∈ frames, g.isBase := by
  cases frames with
  | nil => simp
  | cons g rest =>
    exact List.forall_mem_cons.2
      ⟨Frame.isBase_of_isHost (isHost_of_isIdle hidle g rfl), hF.isBase⟩

/-- What others cannot come to stand on is on top. -/
theorem eq_top (hF : Ordered frames) (hf : f ∈ frames) (hbase : f.isBase = false) :
    ∃ rest, frames = f :: rest := by
  cases frames with
  | nil => cases hf
  | cons g rest =>
    rcases List.mem_cons.1 hf with rfl | hrest
    · exact ⟨rest, rfl⟩
    · cases hbase.symm.trans (hF.isBase f hrest)

/-- Where an opener is on its way out, the end of its pool's queue is still to come. -/
theorem disconnect_mem (hF : Ordered frames) (hret : .retiring p ∈ frames) :
    .disconnect p ∈ frames := by
  induction frames with
  | nil => cases hret
  | cons f rest ih =>
    refine List.mem_cons_of_mem f ?_
    rcases List.mem_cons.1 hret with rfl | hrest
    · exact List.mem_of_mem_head? ((hF.1.retires p).1 rfl)
    · exact ih hF.2 hrest

/-- Nobody is about to do anything for a pool whose opener is on its way out. -/
theorem notMem_of_retiring (hF : Ordered frames) (hret : .retiring p ∈ frames)
    (hbase : f.isBase = false) (hp : f.pool? = some p) : f ∉ frames := by
  intro hf
  obtain ⟨rest, rfl⟩ := hF.eq_top hf hbase
  rcases List.mem_cons.1 hret with rfl | hrest
  · cases hbase
  · exact hF.1.apart p hrest hp

/-! ## What comes above -/

/-- One frame may take the place of another if it keeps to the pool, and a drain is followed by a
drain. -/
theorem replace (hF : Ordered (f :: rest)) (hd : ∀ p, f.drains? = some p → g.drains? = some p)
    (hr : g.retires? = f.retires?) (hp : ∀ p, g.pool? = some p → f.pool? = some p) :
    Ordered (g :: rest) :=
  ⟨⟨hF.1.base, fun p h => hd p (hF.1.drains p h), fun p => hr ▸ hF.1.retires p,
    fun p hret h => hF.1.apart p hret (hp p h)⟩, hF.2⟩

theorem push (hF : Ordered frames) (hhost : ∀ g ∈ frames.head?, g.isHost) (hr : f.retires? = none)
    (hp : ∀ p, .retiring p ∈ frames → f.pool? ≠ some p) : Ordered (f :: frames) := by
  refine ⟨⟨fun g hg => Frame.isBase_of_isHost (hhost g hg), fun p h => ?_, fun p => ?_, hp⟩, hF⟩
  · cases hhost _ h
  · rw [hr]
    refine iff_of_false (by simp) fun h => ?_
    cases hhost _ h

/-- What comes in the place of a frame keeps the stack in order. -/
theorem yields (hF : Ordered frames) (h : w.Yields frames turn) : Ordered turn.frames := by
  cases h with
  | @received p n rest note =>
    have hloop : Ordered (.receive p (n + 1) :: rest) := hF.replace (fun _ h => h) rfl fun _ h => h
    refine hloop.push (by simp [Frame.isHost, Frame.isBase]) rfl fun q hret => ?_
    exact hF.1.apart q (by simpa using hret)
  | @lost p X observed k rest =>
    have hagain : Ordered (.lookUp p X :: rest) :=
      hF.replace (fun _ h => by cases h) rfl fun _ h => h
    exact hagain.push (by simp [Frame.isHost, Frame.isBase]) rfl (by simp [Frame.pool?])
  | @flushing note notes rest =>
    have hrest : Ordered (.flush notes :: rest) := hF.replace (fun _ h => h) rfl fun _ h => h
    exact hrest.push (by simp [Frame.isHost, Frame.isBase]) rfl (by simp [Frame.pool?])
  | drained | found | openFailed | published | dropped | closed | posted | retired | flushed =>
    exact hF.2
  | _ => exact hF.replace (fun _ h => by cases h) rfl (by simp [Frame.pool?])

end Ordered

/-- What a caller may call can be put above what waits for the environment. -/
theorem System.ordered_call {s : System σ} {c : Call} (hF : Ordered s.frames)
    (hidle : isIdle s.frames) (hc : s.admits c) : Ordered (c.frames ++ s.frames) := by
  have hhost := isHost_of_isIdle hidle
  -- The opener of a pool that can be borrowed is not on its way out.
  have hapart {p : PoolId} (hopen : s.isOpen p) (q : PoolId) (hret : .retiring q ∈ s.frames) :
      some p ≠ some q := by
    rintro ⟨⟩
    exact (isOpen_iff.1 hopen).2 (hF.disconnect_mem hret)
  cases c with
  | acquire p X =>
    have hlook : Ordered (.lookUp p X :: s.frames) := hF.push hhost rfl (hapart hc)
    refine hlook.push (by simp [Frame.isHost, Frame.isBase]) rfl fun q hret => ?_
    exact hapart hc q (by simpa using hret)
  | purge p => exact hF.push hhost rfl (hapart hc)
  | drop h => exact hF.push hhost rfl (by simp [Frame.pool?])
  | dropPool p =>
    have hopen : s.isOpen p := (Bool.and_eq_true_iff.1 hc).1
    have hend : Ordered (.disconnect p :: s.frames) := hF.push hhost rfl (hapart hopen)
    have hretire : Ordered (.retire p :: .disconnect p :: s.frames) :=
      ⟨⟨by simp [Frame.isBase], by simp, by simp [Frame.retires?],
        fun q hret => hapart hopen q (by simpa using hret)⟩, hend⟩
    exact ⟨⟨by simp [Frame.isBase], by simp [Frame.drains?], by simp [Frame.retires?],
      fun q hret => hapart hopen q (by simpa using hret)⟩, hretire⟩
  | _ => cases hc

/-! ## What the frame on top goes by -/

namespace World

/-- What waits is ready when the frame above it is done, and a drain is done when the queue is
empty. -/
theorem ready_below (hF : Ordered (f :: rest)) (hd : ∀ p, f.drains? = some p → w.pending p = []) :
    w.Ready rest := by
  cases rest with
  | nil => trivial
  | cons g rest =>
    have hbase := hF.1.base g rfl
    cases g with
    | retire p => exact hd p (hF.1.drains p rfl)
    | publish => cases hbase
    | evict => cases hbase
    | _ => trivial

/-- What is on top after a turn is ready. -/
theorem ready_turn (hF : Ordered frames) (h : w.Yields frames turn) :
    turn.world.Ready turn.frames := by
  have hyields := h
  cases h with
  | @drained p n rest hq =>
    refine ready_below hF fun q hq' => ?_
    cases hq'
    exact hq
  | received hq =>
    exact (hyields.isUp_iff (by simp)).2 (isUp_of_mem_pending (hq ▸ List.mem_cons_self))
  | wrapped => simp [Ready]
  | found | openFailed | published | dropped | closed | posted | retired | flushed =>
    exact ready_below hF fun _ h => by cases h
  | _ => trivial

theorem ready_call {s : System σ} {c : Call} (hc : s.admits c) (frames : List Frame) :
    w.Ready (c.frames ++ frames) := by
  cases c with
  | acquire | purge | drop | dropPool => trivial
  | _ => cases hc

end World

end ReadPool
