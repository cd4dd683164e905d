import Mathlib
import ReadPool.Proofs.Reachable

/-!
# What a raw handle was opened for

A raw handle keeps the identity that it was opened for, and the wrapper that it is put into has the
same one. Whatever still has a raw handle, a stream or a death, therefore speaks of its identity.
-/

namespace ReadPool

namespace Scene

variable {sc sc' : Scene σ} {p : PoolId} {X Y : Identity} {raw : RawId} {h : WrapperId}

def OpenedFor (sc : Scene σ) (raw : RawId) (X : Identity) : Prop :=
  ∃ r, sc.world.raws[raw]? = some r ∧ r.identity = X

/-- The raw handle was opened for an identity that is the same as `X`, and is not closed yet. -/
def Unclosed (sc : Scene σ) (raw : RawId) (X : Identity) : Prop :=
  (∃ Y, sc.OpenedFor raw Y ∧ Y.Same X) ∧ raw ∉ collect Event.closes sc.history

structure Labelled (sc : Scene σ) : Prop where
  unwrapped : ∀ p X observed raw, .wrap p X observed raw ∈ sc.frames → sc.OpenedFor raw X
  wrapped : ∀ p h raw x, .wrapped p h raw ∈ sc.history → sc.world.wrappers[h]? = some x →
    sc.OpenedFor raw x.identity

theorem OpenedFor.inj (h : sc.OpenedFor raw X) (h' : sc.OpenedFor raw Y) : X = Y := by
  obtain ⟨r, hr, rfl⟩ := h
  obtain ⟨r', hr', rfl⟩ := h'
  rw [Option.some.inj (hr.symm.trans hr')]

theorem mem_closes {E : List Event} : raw ∈ collect Event.closes E ↔ .closed raw ∈ E := by
  rw [mem_collect]
  constructor
  · rintro ⟨ev, hev, hm⟩
    cases ev with
    | closed raw' =>
      obtain rfl : raw = raw' := by simpa [Event.closes] using hm
      exact hev
    | _ => simp [Event.closes] at hm
  · exact fun h => ⟨_, h, by simp [Event.closes]⟩

/-- A raw handle is closed when its close has come to an end. -/
theorem Valid.closed_iff (hv : Valid sc) {r : RawHandle σ} (hr : sc.world.raws[raw]? = some r) :
    r.phase = .closed ↔ .closed raw ∈ sc.history := by
  rw [hv.phased raw r hr, phase, ← mem_closes]
  split
  · simpa
  · split <;> simpa

namespace Step

theorem openedFor (hs : Step sc sc') (hr : sc.OpenedFor raw X) : sc'.OpenedFor raw X := by
  obtain ⟨r, hr, hX⟩ := hr
  have hmodify (k : RawId) (f : RawHandle σ → RawHandle σ) (hf : ∀ r, (f r).identity = r.identity) :
      ∃ r', (sc.world.updateRaw k f).raws[raw]? = some r' ∧ r'.identity = X := by
    rw [World.updateRaw, List.getElem?_modify, hr]
    by_cases hk : k = raw <;> simp [hk, hf, hX]
  cases hs with
  | read f hh hx hstream => exact hmodify _ _ fun _ => rfl
  | close => exact hmodify _ _ fun _ => rfl
  | closed => exact hmodify _ _ fun _ => rfl
  | @opened w F H E p Y observed state =>
    refine ⟨r, ?_, hX⟩
    rw [World.addRaw, List.getElem?_append_left (List.getElem?_eq_some_iff.1 hr).1]
    exact hr
  | _ => exact ⟨r, hr, hX⟩

/-- A raw handle was there before, or an open has just made it. -/
theorem openedFor_before (hs : Step sc sc') (hr : sc'.OpenedFor raw X) : sc.OpenedFor raw X ∨
    raw = sc.world.raws.length ∧ ∃ p observed, .opening p X observed ∈ sc.frames ∧
      .wrap p X observed raw ∈ sc'.frames ∧ sc'.history = .opened p raw :: sc.history := by
  obtain ⟨r', hr', hX⟩ := hr
  by_cases hl : raw < sc.world.raws.length
  · obtain ⟨r'', hr'', hX'⟩ := hs.openedFor ⟨_, List.getElem?_eq_getElem hl, rfl⟩
    obtain rfl : r'' = r' := Option.some.inj (hr''.symm.trans hr')
    exact .inl ⟨_, List.getElem?_eq_getElem hl, hX'.symm.trans hX⟩
  · -- The list of raw handles has grown, and only an open makes it grow.
    have hlen := (List.getElem?_eq_some_iff.1 hr').1
    cases hs with
    | @opened w F H E p Y observed state =>
      right
      rw [World.length_raws_addRaw] at hlen
      obtain rfl : raw = w.raws.length :=
        Nat.le_antisymm (Nat.le_of_lt_succ hlen) (Nat.le_of_not_lt hl)
      have hnew : (w.addRaw Y state).1.raws[w.raws.length]? = some { identity := Y, state } := by
        simp [World.addRaw]
      rw [Option.some.inj (hr'.symm.trans hnew)] at hX
      subst hX
      exact ⟨rfl, p, observed, by simp, by simp, rfl⟩
    | _ => exact absurd (by simpa using hlen) hl

end Step

namespace Labelled

theorem unwrapped_step (hi : Labelled sc) (hs : Step sc sc') : ∀ p X observed raw,
    .wrap p X observed raw ∈ sc'.frames → sc'.OpenedFor raw X := by
  intro p X observed raw hf
  have hst := hs
  have hkeep (hold : .wrap p X observed raw ∈ sc.frames) : sc'.OpenedFor raw X :=
    hst.openedFor (hi.unwrapped p X observed raw hold)
  cases hs with
  | @opened w F H E q Y observed' state =>
    rcases Multiset.mem_cons.1 hf with heq | hold
    · cases heq
      exact ⟨{ identity := X, state }, by simp [World.addRaw], rfl⟩
    · exact hkeep (Multiset.mem_cons_of_mem hold)
  | _ => exact hkeep (by simp_all)

theorem wrapped_step (hi : Labelled sc) (ho : Owned sc) (hs : Step sc sc') : ∀ p h raw x,
    .wrapped p h raw ∈ sc'.history → sc'.world.wrappers[h]? = some x →
      sc'.OpenedFor raw x.identity := by
  intro p h raw x' hw hx'
  have hst := hs
  have hkeep (hold : .wrapped p h raw ∈ sc.history) : sc'.OpenedFor raw x'.identity := by
    obtain ⟨x, hx, -⟩ := ho.home_of_wrapped p h raw hold
    obtain ⟨x'', hx'', hlater⟩ := hst.later hx
    obtain rfl : x'' = x' := Option.some.inj (hx''.symm.trans hx')
    exact hlater.identity ▸ hst.openedFor (hi.wrapped p h raw x hold hx)
  cases hs with
  | @wrap w F H E q X observed raw' pool hp =>
    rcases List.mem_cons.1 hw with heq | hold
    · cases heq
      rw [World.getElem?_addWrapper, World.wrappers_updatePool, if_pos rfl] at hx'
      cases hx'
      exact hst.openedFor (hi.unwrapped p X observed raw (Multiset.mem_cons_self _ _))
    · exact hkeep hold
  | _ => exact hkeep (by simpa using hw)

theorem step (hi : Labelled sc) (ho : Owned sc) (hs : Step sc sc') : Labelled sc' where
  unwrapped := hi.unwrapped_step hs
  wrapped := hi.wrapped_step ho hs

/-- The raw handle of a death was opened for the identity that the death names. -/
theorem of_left (hi : Labelled sc) {note : Note} (hd : sc.Left p h note) :
    sc.OpenedFor note.raw note.identity := by
  obtain ⟨⟨x, hx, -, hX, -⟩, hw⟩ := hd
  exact hX ▸ hi.wrapped p h note.raw x hw hx

/-- The stream of a wrapper was opened for the wrapper's identity. -/
theorem of_stream (hi : Labelled sc) (ho : Owned sc) {x : Wrapper}
    (hx : sc.world.wrappers[h]? = some x) (hr : x.stream = some raw) :
    sc.OpenedFor raw x.identity :=
  hi.wrapped x.home h raw x (ho.wrapped_of_stream h x raw hx hr) hx

end Labelled

end Scene

namespace System

variable {s : System σ}

theorem Reachable.labelled (hs : s.Reachable) : s.scene.Labelled := by
  refine (hs.keeps (P := fun s => Sound s ∧ s.scene.Labelled) ?_ ?_).2
  · refine ⟨⟨Scene.Valid.start, by simp⟩, ?_, ?_⟩ <;> simp [scene, System.frames]
  · rintro s a s' ⟨hs, hl⟩ ha
    exact ⟨hs.next ha, hl.step hs.valid.owned (hs.scene_next ha).1⟩

end System

end ReadPool
