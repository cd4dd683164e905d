import Mathlib
import ReadPool.Proofs.System
import ReadPool.Proofs.Turns

/-!
# A purge on its own

A purge that one thread runs while the others wait comes to its end only when there is nothing more
to receive.
-/

namespace ReadPool

/-- What a purge of `p` has left to do, from its call to its end. -/
inductive Purging (p : PoolId) : List Frame → Prop where
  | receive (n : Nat) : Purging p [.receive p n]
  | evict (note : Note) (n : Nat) : Purging p [.evict p note, .receive p n]
  | close (raw : RawId) (X : Identity) (entry : Entry) (n : Nat) :
      Purging p [.close raw X entry .death, .receive p n]
  | closing (raw : RawId) (X : Identity) (entry : Entry) (n : Nat) :
      Purging p [.closing raw X entry .death, .receive p n]
  | done : Purging p []

/-- The purge of a pool that is up, and that has nothing to receive where the purge is over. -/
def PurgeState (w : World σ) (p : PoolId) (frames : List Frame) : Prop :=
  Purging p frames ∧ w.isUp p ∧ (frames = [] → w.pending p = [])

variable {w : World σ} {p : PoolId} {frames : List Frame} {turn : Turn σ}

/-- A purge goes on as a purge, whether it acts or a close of its own has ended. -/
theorem PurgeState.yields (hp : PurgeState w p frames) (h : w.Yields frames turn) :
    PurgeState turn.world p turn.frames := by
  obtain ⟨hp, hup, -⟩ := hp
  cases hp with
  | receive n =>
    cases h with
    | drained hq => exact ⟨.done, hup, fun _ => hq⟩
    | received => exact ⟨.evict _ (n + 1), World.isUp_updatePool hup fun _ _ => rfl, by simp⟩
  | evict note n =>
    cases h with
    | evicted => exact ⟨.close _ _ _ n, World.isUp_updatePool hup fun _ h => h, by simp⟩
  | close raw X entry n =>
    cases h with
    | closing => exact ⟨.closing _ _ _ n, hup, by simp⟩
  | closing raw X entry n =>
    cases h with
    | closed => exact ⟨.receive n, hup, by simp [World.finish]⟩
  | done => cases h

/-- An act by which a thread goes on with what it was called for, or a close at work on it ends. -/
def Act.isBy (t : ThreadId) : Act σ → Prop
  | .turn t' => t' = t
  | .closed t' _ => t' = t
  | _ => False

namespace System

variable {s s' : System σ} {t : ThreadId}

theorem next_purge (hs : ∃ frames, s.threads[t]? = some frames ∧ PurgeState s.world p frames)
    {a : Act σ} (ha : a.isBy t) (h : s.next? a = some s') :
    ∃ frames, s'.threads[t]? = some frames ∧ PurgeState s'.world p frames := by
  obtain ⟨frames, ht, hp⟩ := hs
  have hset (turn : Turn σ) : (s.take t frames turn).threads[t]? = some turn.frames := by
    simp [take, List.getElem?_set_self (List.getElem?_eq_some_iff.1 ht).1]
  cases a with
  | turn t' =>
    obtain rfl : t' = t := ha
    simp only [next?, ht, Option.bind_some] at h
    obtain ⟨turn, hw, rfl⟩ := Option.map_eq_some_iff.1 h
    exact ⟨turn.frames, hset turn, hp.yields (World.yields_step hw)⟩
  | closed t' error =>
    obtain rfl : t' = t := ha
    simp only [next?, ht, Option.bind_some] at h
    obtain ⟨turn, hw, rfl⟩ := Option.map_eq_some_iff.1 h
    exact ⟨turn.frames, hset turn, hp.yields (World.yields_closed hw)⟩
  | _ => cases ha

theorem run_purge {acts : List (Act σ)} (h : s.run? acts = some s') (hacts : ∀ a ∈ acts, a.isBy t)
    (hs : ∃ frames, s.threads[t]? = some frames ∧ PurgeState s.world p frames) :
    ∃ frames, s'.threads[t]? = some frames ∧ PurgeState s'.world p frames := by
  induction acts generalizing s with
  | nil =>
    cases h
    exact hs
  | cons a acts ih =>
    obtain ⟨s₁, h₁, h⟩ := Option.bind_eq_some_iff.1 h
    obtain ⟨ha, hacts⟩ := List.forall_mem_cons.1 hacts
    exact ih h hacts (next_purge hs ha h₁)

/-- `s'` is what comes of a purge of `p` in `s` with nothing else going on. -/
def PurgedAlone (s s' : System σ) (p : PoolId) : Prop :=
  s.frames = [] ∧ s'.frames = [] ∧ ∃ t s₁ acts, s.next? (.call t (.purge p)) = some s₁ ∧
    (∀ a ∈ acts, a.isBy t) ∧ s₁.run? acts = some s'

theorem PurgedAlone.pending_eq (h : PurgedAlone s s' p) :
    s'.world.isUp p ∧ s'.world.pending p = [] := by
  obtain ⟨hs, hs', t, s₁, acts, hcall, hacts, hrun⟩ := h
  obtain ⟨frames, ht, hcall⟩ := Option.bind_eq_some_iff.1 hcall
  split at hcall
  · next hc =>
    cases hcall
    obtain ⟨-, hadm⟩ := Bool.and_eq_true_iff.1 hc
    have hup : s.world.isUp p := (Bool.and_eq_true_iff.1 hadm).1
    have hnil : frames = [] := by
      have hfl := List.flatten_eq_nil_iff.1 hs
      exact hfl frames (List.mem_of_getElem? ht)
    subst hnil
    obtain ⟨frames, ht', hp, hup', hend⟩ := run_purge (p := p) hrun hacts
      ⟨_, List.getElem?_set_self (List.getElem?_eq_some_iff.1 ht).1, .receive 0, hup, by simp [Call.frames]⟩
    have hfl := List.flatten_eq_nil_iff.1 hs'
    exact ⟨hup', hend (hfl frames (List.mem_of_getElem? ht'))⟩
  · cases hcall

end System

end ReadPool
