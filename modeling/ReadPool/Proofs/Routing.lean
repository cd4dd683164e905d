import Mathlib
import ReadPool.Proofs.Moments

/-!
# The way of a death

A lone thread drops pools and handles in any order. The death of a wrapper goes to the pool that has
made it: into the queue if the pool is still there, and else it is released inline, by whoever let
the last reference go (`Run.routes`). What tells is whether the pool has been dropped in the run,
for the end of its queue is part of that call, and no other call begins before it is over
(`Standing`).
-/

namespace ReadPool

/-- The pool has been dropped in one of the moments. -/
def isDropped (p : PoolId) (ms : List (Moment σ)) : Bool :=
  ms.any fun m => match m.act with
    | .call _ (.dropPool q) => q = p
    | _ => false

/-- The frame has nothing of its call below it. -/
def Frame.isLast : Frame → Bool
  | drop _ => true
  | post _ _ => true
  | disconnect _ => true
  | _ => false

/-- A last frame comes last. -/
def EndsLast (F : List Frame) : Prop := ∀ f ∈ F.dropLast, f.isLast = false

/-- These frames can take the place of the frame: none of them is last, or the frame was last
itself, and a death is posted instead. -/
def Frame.MakesWay (f : Frame) (new : List Frame) : Prop :=
  ∀ g ∈ new, g.isLast → f.isLast ∧ ∃ home note, new = [.post home note]

/-- The act does something to a reference that is held. -/
def Act.isStill : Act σ → Bool
  | .clone _ => true
  | .closeReference _ => true
  | .read _ _ => true
  | _ => false

namespace Moment

/-- There is one thread, and a call begins where no other is going on. -/
def isSerial (m : Moment σ) : Bool :=
  match m.act with
  | .spawn => false
  | .call _ _ => m.system.frames.isEmpty
  | _ => true

/-- The death of a wrapper is posted to the pool that has made it, and is released inline just if
that pool has been dropped. -/
structure Routes (earlier : List (Moment σ)) (m : Moment σ) : Prop where
  dies : ∀ t h rest x, m.act = .turn t → m.frames = .drop h :: rest →
    m.system.world.wrappers[h]? = some x → x.strong = 1 →
    ∃ raw, .wrapped x.home h raw ∈ m.system.history ∧ m.turn? = some
      { world := m.system.world.updateWrapper h fun x => { x with strong := 0, stream := none }
        frames := [.post x.home ⟨x.identity, x.entry, raw⟩] }
  posted : ∀ t home note rest, m.act = .turn t → m.frames = .post home note :: rest →
    isDropped home earlier = false →
    ∃ notes, m.system.world.pools[home]?.bind Pool.queue = some notes ∧ m.turn? = some
      ((m.system.world.updatePool home fun pool =>
        { pool with queue := some (notes ++ [note]) }).finish [] .done)
  inline : ∀ t home note rest, m.act = .turn t → m.frames = .post home note :: rest →
    isDropped home earlier = true → m.turn? = some
      { world := m.system.world
        frames := [.close note.raw note.identity note.entry .death]
        log := [.releasedInline note.identity note.entry] }

end Moment

variable {w : World σ} {F rest : List Frame} {f : Frame} {turn : Turn σ} {p : PoolId}

/-! ## Frames that come last -/

theorem EndsLast.rest_eq_nil (h : EndsLast (f :: rest)) (hf : f.isLast) : rest = [] := by
  by_contra hne
  have hnot := h f (by rw [List.dropLast_cons_of_ne_nil hne]; exact List.mem_cons_self)
  simp [hf] at hnot

theorem Frame.MakesWay.of_not {new : List Frame} (h : ∀ g ∈ new, g.isLast = false) :
    f.MakesWay new := by
  intro g hg hlast
  cases (h g hg).symm.trans hlast

theorem EndsLast.append {new : List Frame} (h : EndsLast (f :: rest)) (hnew : f.MakesWay new) :
    EndsLast (new ++ rest) := by
  intro g hg
  rw [Bool.eq_false_iff]
  intro hlast
  cases rest with
  | nil =>
    rw [List.append_nil] at hg
    obtain ⟨-, home, note, rfl⟩ := hnew g (List.mem_of_mem_dropLast hg) hlast
    cases hg
  | cons g' rest =>
    rw [List.dropLast_append_of_ne_nil (by simp)] at hg
    rcases List.mem_append.1 hg with hg | hg
    · cases h.rest_eq_nil (hnew g hg hlast).1
    · have hnot := h g (by simp [List.dropLast, hg])
      simp [hlast] at hnot

namespace World.Yields

/-- Only a last frame makes way for another. -/
theorem exists_makesWay (h : w.Yields (f :: rest) turn)
    (hdiscard : ∀ k, f = .discard k → w.intoRaw? k ≠ none) :
    ∃ new, turn.frames = new ++ rest ∧ f.MakesWay new := by
  cases h with
  | shared hs => exact absurd hs (hdiscard _ rfl)
  | died =>
    refine ⟨[_], rfl, fun g hg _ => ?_⟩
    obtain rfl := List.mem_singleton.1 hg
    exact ⟨rfl, _, _, rfl⟩
  | received | lost | flushing =>
    exact ⟨[_, _], rfl, .of_not (List.forall_mem_cons.2 ⟨rfl, List.forall_mem_singleton.2 rfl⟩)⟩
  | drained | found | openFailed | published | dropped | closed | posted | retired | flushed =>
    exact ⟨[], rfl, .of_not (List.forall_mem_nil _)⟩
  | _ => exact ⟨[_], rfl, .of_not (List.forall_mem_singleton.2 rfl)⟩

/-- The end of a queue takes the pool down. -/
theorem not_isUp (h : w.Yields (.disconnect p :: rest) turn) : ¬ turn.world.isUp p := by
  cases h with
  | disconnected => exact fun hup => ((World.isUp_disconnect_iff _ _).1 hup).1 rfl

end World.Yields

namespace System

variable {s s' : System σ} {a : Act σ} {ms : List (Moment σ)}

/-- A thread, and no pool yet. -/
def lone : System σ := { threads := [[]] }

theorem reachable_lone : (lone : System σ).Reachable := ⟨[.spawn], rfl⟩

theorem Run.history_subset {s₀ : System σ} (h : Run s₀ ms s) : s₀.history ⊆ s.history :=
  h.history ▸ List.subset_append_right _ _

/-! ## Pools that stand -/

/-- A last frame comes last, and a pool that has been dropped stands no longer than to the end of
the call that drops it. -/
structure Standing (ms : List (Moment σ)) (s : System σ) : Prop where
  sound : Sound s
  frames : ∃ F, s.threads = [F] ∧ EndsLast F
  dropped_lt : ∀ p, isDropped p ms → p < s.world.pools.length
  ending : ∀ p, .disconnect p ∈ s.frames → isDropped p ms
  up_iff : ∀ p, p < s.world.pools.length →
    (s.world.isUp p ↔ isDropped p ms = false ∨ .disconnect p ∈ s.frames)

/-- What is done to a reference leaves threads and pools alone. -/
theorem pools_eq_of_isStill (h : a.isStill) (ha : s.next? a = some s') :
    s'.threads = s.threads ∧ s'.history = s.history ∧ s'.world.pools = s.world.pools ∧
      s'.world.wrappers.length = s.world.wrappers.length := by
  cases a with
  | clone k =>
    simp only [next?] at ha
    split at ha <;> cases ha
    exact ⟨rfl, rfl, rfl, World.length_wrappers_retain _⟩
  | closeReference k =>
    simp only [next?] at ha
    split at ha <;> cases ha
    exact ⟨rfl, rfl, rfl, rfl⟩
  | read k f =>
    simp only [next?] at ha
    split at ha
    · obtain ⟨⟨_, world⟩, hread, rfl⟩ := Option.map_eq_some_iff.1 ha
      obtain ⟨raw, -, hread⟩ := Option.bind_eq_some_iff.1 hread
      obtain ⟨r, -, hread⟩ := Option.map_eq_some_iff.1 hread
      cases hread
      exact ⟨rfl, rfl, rfl, rfl⟩
    · cases ha
  | _ => cases h

/-- What is no turn and no call leaves the thread alone, and adds a pool at the most. -/
theorem next_eq_of_still (hthread : a.thread? = none) (hcall : ∀ t c, a ≠ .call t c)
    (hm : (⟨s, a⟩ : Moment σ).isSerial) (ha : s.next? a = some s') :
    s'.threads = s.threads ∧ ∃ added,
      s'.world.pools = s.world.pools ++ added ∧ ∀ pool ∈ added, pool.queue = some [] := by
  have still (h : a.isStill) : s'.threads = s.threads ∧ ∃ added,
      s'.world.pools = s.world.pools ++ added ∧ ∀ pool ∈ added, pool.queue = some [] := by
    obtain ⟨hthreads, -, hpools, -⟩ := pools_eq_of_isStill h ha
    exact ⟨hthreads, [], hpools.trans (List.append_nil _).symm, List.forall_mem_nil _⟩
  cases a with
  | newPool config =>
    simp only [next?, World.newPool] at ha
    split at ha <;> cases ha
    exact ⟨rfl, [{ config }], rfl, List.forall_mem_singleton.2 rfl⟩
  | clone k => exact still rfl
  | closeReference k => exact still rfl
  | read k f => exact still rfl
  | call t c => exact absurd rfl (hcall t c)
  | spawn => cases hm
  | _ => cases hthread

namespace Standing

/-- A pool that is added stands. -/
theorem next_still (hs : Standing ms s) (hthread : a.thread? = none)
    (hcall : ∀ t c, a ≠ .call t c) (hm : (⟨s, a⟩ : Moment σ).isSerial)
    (ha : s.next? a = some s') : Standing (⟨s, a⟩ :: ms) s' := by
  obtain ⟨hthreads, added, hpools, hadded⟩ := next_eq_of_still hthread hcall hm ha
  have hdropped (p : PoolId) : isDropped p (⟨s, a⟩ :: ms) = isDropped p ms := by
    cases a with
    | call t c => exact absurd rfl (hcall t c)
    | _ => rfl
  have hframes : s'.frames = s.frames := by rw [System.frames, hthreads, System.frames]
  refine ⟨hs.sound.next ha, hthreads ▸ hs.frames, fun p hp => ?_, fun p hp => ?_, fun p hp => ?_⟩
  · rw [hpools, List.length_append]
    exact Nat.lt_add_right _ (hs.dropped_lt p (hdropped p ▸ hp))
  · rw [hdropped]
    exact hs.ending p (hframes ▸ hp)
  · rw [hdropped, hframes]
    by_cases hlt : p < s.world.pools.length
    · have hup : s'.world.isUp p ↔ s.world.isUp p := by
        unfold World.isUp
        rw [hpools, List.getElem?_append_left hlt]
      exact hup.trans (hs.up_iff p hlt)
    · -- The pool is new, so nobody can have dropped it.
      have hnot : isDropped p ms = false := by
        by_contra hd
        exact hlt (hs.dropped_lt p (by simpa using hd))
      rw [hpools] at hp
      have hget := List.getElem?_eq_getElem hp
      have hmem : (s.world.pools ++ added)[p] ∈ added := by
        rw [List.getElem_append_right (Nat.le_of_not_lt hlt)]
        exact List.getElem_mem _
      refine iff_of_true ?_ (.inl hnot)
      unfold World.isUp
      rw [hpools, hget, Option.bind_some, hadded _ hmem]
      rfl

/-- A call that drops a pool finds it standing, and the end of its queue is the last it does. -/
theorem next_call (hs : Standing ms s) {t : ThreadId} {c : Call}
    (hm : (⟨s, .call t c⟩ : Moment σ).isSerial) (ha : s.next? (.call t c) = some s') :
    Standing (⟨s, .call t c⟩ :: ms) s' := by
  have hsound := hs.sound.next ha
  obtain ⟨F, hF, -⟩ := hs.frames
  obtain rfl : F = [] := by simpa [Moment.isSerial, frames_eq hF] using hm
  obtain ⟨frames, ht, ha⟩ := Option.bind_eq_some_iff.1 ha
  obtain ⟨rfl, rfl⟩ := eq_of_getElem? hF ht
  split at ha
  · next hc =>
    have hadm : s.admits c := (Bool.and_eq_true_iff.1 hc).2
    cases ha
    -- Nothing is going on, so no pool is about to go down.
    have hbefore : ∀ p, .disconnect p ∉ s.frames := by simp [frames_eq hF]
    have hdropped (p : PoolId) : isDropped p (⟨s, .call 0 c⟩ :: ms)
        = (decide (c = .dropPool p) || isDropped p ms) := by
      unfold isDropped
      rw [List.any_cons]
      cases c <;> simp
    have hend (p : PoolId) : .disconnect p ∈ c.frames ↔ c = .dropPool p := by
      cases c with
      | disconnect q => cases hadm
      | dropPool q => simp [Call.frames, eq_comm]
      | _ => simp [Call.frames]
    have hup (p : PoolId) (hp : c = .dropPool p) : s.world.isUp p := by
      subst hp
      simp only [admits, Bool.and_eq_true] at hadm
      exact (isOpen_iff.1 hadm.1).1
    have hthreads : s.threads.set 0 (c.frames ++ []) = [c.frames] := by simp [hF]
    have hframes : System.frames { s with
        threads := s.threads.set 0 (c.frames ++ []), held := afterCall s.held c } = c.frames :=
      frames_eq hthreads
    refine ⟨hsound, ⟨c.frames, hthreads, ?_⟩, fun p hp => ?_, fun p hp => ?_, fun p hp => ?_⟩
    · cases c with
      | acquire p X => exact List.forall_mem_singleton.2 rfl
      | dropPool p => exact List.forall_mem_cons.2 ⟨rfl, List.forall_mem_singleton.2 rfl⟩
      | _ => exact fun _ h => (List.not_mem_nil h).elim
    · rw [hdropped, Bool.or_eq_true, decide_eq_true_eq] at hp
      rcases hp with hp | hp
      · exact World.lt_length_of_isUp (hup p hp)
      · exact hs.dropped_lt p hp
    · rw [hframes] at hp
      rw [hdropped, Bool.or_eq_true, decide_eq_true_eq]
      exact .inl ((hend p).1 hp)
    · rw [hframes, hdropped, hend, hs.up_iff p hp]
      by_cases hc : c = .dropPool p
      · exact iff_of_true ((hs.up_iff p hp).1 (hup p hc)) (.inr hc)
      · simp [hc, hbefore p]
  · cases ha

/-- A thread goes on. Only the end of a queue takes a pool down, and with it a call is over but for
what the queue has left. -/
theorem next_turn (hs : Standing ms s) {t : ThreadId} (hthread : a.thread? = some t)
    (ha : s.next? a = some s') : Standing (⟨s, a⟩ :: ms) s' := by
  have hsound := hs.sound.next ha
  have hdropped (p : PoolId) : isDropped p (⟨s, a⟩ :: ms) = isDropped p ms := by
    cases a <;> cases hthread <;> rfl
  obtain ⟨F, hF, hlast⟩ := hs.frames
  obtain ⟨frames, turn, ht, hturn, rfl, -, -⟩ := exists_turn hthread ha
  obtain ⟨rfl, rfl⟩ := eq_of_getElem? hF ht
  have hyields := Act.yields_turn hturn
  obtain ⟨f, rest, rfl⟩ : ∃ f rest, frames = f :: rest := by
    refine List.exists_cons_of_ne_nil fun hnil => ?_
    subst hnil
    cases hyields
  have hframes : s.frames = f :: rest := frames_eq hF
  have hthreads : (s.take 0 (f :: rest) turn).threads = [turn.frames] := by simp [take, hF]
  have hframes' : (s.take 0 (f :: rest) turn).frames = turn.frames := frames_eq hthreads
  obtain ⟨new, hnew, hlastNew⟩ := hyields.exists_makesWay fun k hk =>
    intoRaw?_ne_none hs.sound.valid (by simp [hframes, hk, Frame.trial])
  -- What ends a queue was there before.
  have hend (p : PoolId) : .disconnect p ∈ turn.frames ↔ .disconnect p ∈ rest := by
    rw [hnew, List.mem_append]
    refine or_iff_right fun hmem => ?_
    obtain ⟨-, home, note, rfl⟩ := hlastNew _ hmem rfl
    cases List.mem_singleton.1 hmem
  refine ⟨hsound, ⟨turn.frames, hthreads, hnew ▸ hlast.append hlastNew⟩, fun p hp => ?_,
    fun p hp => ?_, fun p hp => ?_⟩
  · rw [hdropped] at hp
    exact Nat.lt_of_lt_of_eq (hs.dropped_lt p hp) hyields.length_pools.symm
  · rw [hdropped]
    rw [hframes', hend] at hp
    exact hs.ending p (hframes ▸ List.mem_cons_of_mem _ hp)
  · have hlt : p < s.world.pools.length := Nat.lt_of_lt_of_eq hp hyields.length_pools
    rw [hdropped, hframes', hend]
    by_cases hf : f = .disconnect p
    · subst hf
      have hp : isDropped p ms = true := hs.ending p (hframes ▸ List.mem_cons_self)
      have hdown : ¬ (s.take 0 (.disconnect p :: rest) turn).world.isUp p :=
        hyields.not_isUp
      simpa [hp, hlast.rest_eq_nil rfl] using hdown
    · have hup : (s.take 0 (f :: rest) turn).world.isUp p ↔ s.world.isUp p :=
        hyields.isUp_iff hf
      rw [hup, hs.up_iff p hlt, hframes]
      simp [Ne.symm hf]

theorem next (hs : Standing ms s) (hm : (⟨s, a⟩ : Moment σ).isSerial) (ha : s.next? a = some s') :
    Standing (⟨s, a⟩ :: ms) s' := by
  cases hthread : a.thread? with
  | some t => exact hs.next_turn hthread ha
  | none =>
    cases a with
    | call t c => exact hs.next_call hm ha
    | _ => exact hs.next_still hthread (fun _ _ h => nomatch h) hm ha

theorem start : Standing [] (lone : System σ) where
  sound := reachable_lone.sound
  frames := ⟨[], rfl, fun _ h => (List.not_mem_nil h).elim⟩
  dropped_lt _ h := nomatch h
  ending _ h := (List.not_mem_nil h).elim
  up_iff _ h := (Nat.not_lt_zero _ h).elim

end Standing

theorem Run.standing (h : Run lone ms s) (hm : ∀ m ∈ ms, m.isSerial) : Standing ms s := by
  induction h with
  | refl => exact .start
  | next h ha ih =>
    have hbefore := ih fun m hmem => hm m (List.mem_cons_of_mem _ hmem)
    exact hbefore.next (hm _ List.mem_cons_self) ha

/-! ## Where deaths go -/

/-- The call that lets a reference go does nothing else. -/
theorem Standing.routes (hs : Standing ms s) : (⟨s, a⟩ : Moment σ).Routes ms := by
  obtain ⟨F, hF, hlast⟩ := hs.frames
  have hv := hs.sound.valid
  -- A last frame is all that the thread has left to do.
  have alone {t : ThreadId} {f : Frame} {rest : List Frame}
      (hm : (⟨s, .turn t⟩ : Moment σ).frames = f :: rest) (hf : f.isLast) :
      s.frames = [f] ∧ (⟨s, .turn t⟩ : Moment σ).turn? = s.world.step [f] := by
    have hget : s.threads[t]? = some (f :: rest) := by
      cases hget : s.threads[t]? with
      | none => simp [Moment.frames, Act.thread?, hget] at hm
      | some frames => simpa [Moment.frames, Act.thread?, hget] using hm
    obtain ⟨-, rfl⟩ := eq_of_getElem? hF hget
    obtain rfl := hlast.rest_eq_nil hf
    exact ⟨frames_eq hF, congrArg s.world.step hm⟩
  -- Whoever posts has a death of the pool's, so the pool is one of those that were made.
  have standing {home : PoolId} {note : Note} (hframes : s.frames = [.post home note]) :
      s.world.isUp home ↔ isDropped home ms = false := by
    obtain ⟨h, ⟨-, hw⟩, -⟩ := hv.mourned.frames (.post home note) (by simp [scene, hframes])
    obtain ⟨x, hx, hhome⟩ := hv.owned.home_of_wrapped _ _ _ hw
    have hlt : home < s.world.pools.length := by
      refine hv.numbered.homes_lt home ?_
      exact List.mem_map.2 ⟨x, List.mem_of_getElem? hx, hhome⟩
    simpa [hframes] using hs.up_iff home hlt
  constructor
  · intro t h rest x hact hm hx hone
    subst hact
    obtain ⟨hframes, hturn⟩ := alone hm rfl
    obtain ⟨y, raw, hy, hraw⟩ := hv.referenced.exists_of_dropped (h := h)
      (by simp [scene, hframes, Frame.dropped])
    obtain rfl : x = y := Option.some.inj (hx.symm.trans hy)
    refine ⟨raw, hv.owned.wrapped_of_stream h x raw hx hraw, ?_⟩
    rw [hturn]
    simp [(World.Yields.died hx hone hraw).step rfl]
  · intro t home note rest hact hm hstands
    subst hact
    obtain ⟨hframes, hturn⟩ := alone hm rfl
    have hposting := World.queue_of_isUp ((standing hframes).2 hstands)
    refine ⟨_, hposting, ?_⟩
    rw [hturn]
    simp [(World.Yields.posted hposting).step rfl]
  · intro t home note rest hact hm hgone
    subst hact
    obtain ⟨hframes, hturn⟩ := alone hm rfl
    have hdown : s.world.pools[home]?.bind Pool.queue = none := by
      rw [← Option.not_isSome_iff_eq_none]
      intro hup
      simp [(standing hframes).1 hup] at hgone
    rw [hturn]
    simp [(World.Yields.releasedInline hdown).step rfl]

end System

end ReadPool
