import Mathlib
import ReadPool.Proofs.Labels
import ReadPool.Proofs.Moments

/-!
# What a lost race leaves to do

The acquisition that loses a race takes its wrapper apart, closes what was in it, and looks its
identity up again. As long as the first two go on, the look-up stands below them, so a raw handle
that has lost is closed by the time that nobody acquires its identity any more.
-/

namespace ReadPool

/-- A lost race is being undone. -/
def Frame.isUndoing : Frame → Bool
  | discard _ => true
  | close _ _ _ .lostRace => true
  | closing _ _ _ .lostRace => true
  | _ => false

namespace Scene

variable {sc sc' : Scene σ} {p : PoolId} {X : Identity} {raw : RawId} {h k : WrapperId}
  {f : Frame} {rest : List Frame} {entry : Entry} {cause : CloseCause}

/-- What a frame does is to take the wrapper apart, or to close what was in it. -/
inductive Undoes (sc : Scene σ) (h : WrapperId) : Frame → Prop where
  | discard : Undoes sc h (.discard h)
  | close {p : PoolId} {raw : RawId} {X : Identity} {entry : Entry}
      (hw : .wrapped p h raw ∈ sc.history) : Undoes sc h (.close raw X entry .lostRace)
  | closing {p : PoolId} {raw : RawId} {X : Identity} {entry : Entry}
      (hw : .wrapped p h raw ∈ sc.history) : Undoes sc h (.closing raw X entry .lostRace)

/-- The raw handle has lost its race: its wrapper is being undone, or it is closed. -/
def Discarded (sc : Scene σ) (p : PoolId) (raw : RawId) : Prop :=
  .closed raw ∈ sc.history ∨
    ∃ h f, .wrapped p h raw ∈ sc.history ∧ f ∈ sc.frames ∧ sc.Undoes h f

/-- Below each frame that undoes a wrapper, its acquisition goes on. -/
def Resumes (sc : Scene σ) : List Frame → Prop
  | [] => True
  | f :: rest => (f.isUndoing → ∃ h x, sc.Undoes h f ∧ sc.world.wrappers[h]? = some x ∧
      rest.head? = some (.lookUp x.home x.identity)) ∧ Resumes sc rest

theorem Undoes.isUndoing (hu : sc.Undoes h f) : f.isUndoing := by
  cases hu <;> rfl

theorem Undoes.inj (hu : sc.Undoes h f) (hk : sc.Undoes k f) (ho : Owned sc) : h = k := by
  cases hu with
  | discard =>
    cases hk
    rfl
  | close hw =>
    cases hk with
    | close hw' => exact (ho.wrapped_inj hw hw').2
  | closing hw =>
    cases hk with
    | closing hw' => exact (ho.wrapped_inj hw hw').2

namespace Step

theorem discard_next (hs : Step sc sc') (hf : .discard h ∈ sc.frames) : .discard h ∈ sc'.frames ∨
    ∃ x raw, sc.world.wrappers[h]? = some x ∧ x.stream = some raw ∧
      .close raw x.identity x.entry .lostRace ∈ sc'.frames := by
  cases hs with
  | discard hx hs hr =>
    simp only [Multiset.mem_cons, Frame.discard.injEq] at hf
    rcases hf with rfl | hf
    · exact .inr ⟨_, _, hx, hr, Multiset.mem_cons_self _ _⟩
    · exact .inl (Multiset.mem_cons_of_mem hf)
  | _ => exact .inl (by simp_all)

theorem close_next (hs : Step sc sc') (hf : .close raw X entry cause ∈ sc.frames) :
    .close raw X entry cause ∈ sc'.frames ∨ .closing raw X entry cause ∈ sc'.frames := by
  cases hs with
  | close =>
    simp only [Multiset.mem_cons, Frame.close.injEq] at hf
    rcases hf with ⟨rfl, rfl, rfl, rfl⟩ | hf
    · exact .inr (Multiset.mem_cons_self _ _)
    · exact .inl (Multiset.mem_cons_of_mem hf)
  | _ => exact .inl (by simp_all)

theorem closing_next (hs : Step sc sc') (hf : .closing raw X entry cause ∈ sc.frames) :
    .closing raw X entry cause ∈ sc'.frames ∨ .closed raw ∈ sc'.history := by
  cases hs with
  | closed =>
    simp only [Multiset.mem_cons, Frame.closing.injEq] at hf
    rcases hf with ⟨rfl, rfl, rfl, rfl⟩ | hf
    · exact .inr List.mem_cons_self
    · exact .inl hf
  | _ => exact .inl (by simp_all)

end Step

theorem Undoes.step (hu : sc.Undoes h f) (hs : Step sc sc') : sc'.Undoes h f := by
  cases hu with
  | discard => exact .discard
  | close hw => exact .close (hs.mem_history hw)
  | closing hw => exact .closing (hs.mem_history hw)

/-- What has begun to be undone is undone until it is closed. -/
theorem Discarded.step (hd : sc.Discarded p raw) (ho : Owned sc) (hs : Step sc sc') :
    sc'.Discarded p raw := by
  obtain hc | ⟨h, f, hw, hf, hu⟩ := hd
  · exact .inl (hs.mem_history hc)
  · have hw' := hs.mem_history hw
    cases hu with
    | discard =>
      rcases hs.discard_next hf with hf' | ⟨x, raw', hx, hr, hf'⟩
      · exact .inr ⟨h, _, hw', hf', .discard⟩
      · have hx' := hs.mem_history (ho.wrapped_of_stream h x raw' hx hr)
        exact .inr ⟨h, _, hw', hf', .close hx'⟩
    | close hq =>
      have hq' := hs.mem_history hq
      rcases hs.close_next hf with hf' | hf'
      · exact .inr ⟨h, _, hw', hf', .close hq'⟩
      · exact .inr ⟨h, _, hw', hf', .closing hq'⟩
    | closing hq =>
      rcases hs.closing_next hf with hf' | hc
      · exact .inr ⟨h, _, hw', hf', .closing (hs.mem_history hq)⟩
      · exact .inl (ho.wrapped_raw_inj hq hw ▸ hc)

/-! ## The acquisition below -/

/-- A frame that undoes nothing may stand anywhere. -/
theorem Resumes.cons (hf : f.isUndoing = false) (hr : sc.Resumes rest) : sc.Resumes (f :: rest) :=
  ⟨fun h => by simp [hf] at h, hr⟩

theorem Resumes.later (hr : sc.Resumes rest) (hs : Step sc sc') : sc'.Resumes rest := by
  induction rest with
  | nil => trivial
  | cons f rest ih =>
    refine ⟨fun hf => ?_, ih hr.2⟩
    obtain ⟨h, x, hu, hx, hhead⟩ := hr.1 hf
    obtain ⟨x', hx', hlater⟩ := hs.later hx
    exact ⟨h, x', hu.step hs, hx', by rw [hlater.home, hlater.identity, hhead]⟩

theorem Resumes.mem_lookUp (hr : sc.Resumes rest) (ho : Owned sc) (hf : f ∈ rest)
    (hu : sc.Undoes h f) {x : Wrapper} (hx : sc.world.wrappers[h]? = some x) :
    .lookUp x.home x.identity ∈ rest := by
  induction rest with
  | nil => cases hf
  | cons g rest ih =>
    rcases List.mem_cons.1 hf with rfl | hf
    · obtain ⟨k, y, hk, hy, hhead⟩ := hr.1 hu.isUndoing
      obtain rfl := hu.inj hk ho
      obtain rfl : x = y := Option.some.inj (hx.symm.trans hy)
      exact List.mem_cons_of_mem _ (List.mem_of_mem_head? hhead)
    · exact List.mem_cons_of_mem _ (ih hr.2 hf)

/-- A turn of a thread leaves an acquisition below whatever is being undone. -/
theorem Resumes.turn {w : World σ} {frames : List Frame} {O : Multiset Frame}
    {H H' : Multiset WrapperId} {E E' : List Event} {turn : Turn σ}
    (hr : Resumes ⟨w, frames + O, H, E⟩ frames) (hv : Valid ⟨w, frames + O, H, E⟩)
    (hs : Step ⟨w, frames + O, H, E⟩ ⟨turn.world, turn.frames + O, H', E'⟩)
    (h : w.Yields frames turn) :
    Resumes ⟨turn.world, turn.frames + O, H', E'⟩ turn.frames := by
  cases h with
  | drained | found | openFailed | published | dropped | closed | posted | retired | flushed =>
    exact hr.2.later hs
  | received | flushing => exact .cons rfl (.cons rfl (hr.2.later hs))
  | @lost p X observed k =>
    -- The look-up is put below.
    obtain ⟨-, x, hx, rfl, rfl⟩ := hv.grounded.frames (.publish p X observed k) (by simp)
    exact ⟨fun _ => ⟨k, x, .discard, hx, rfl⟩, .cons rfl (hr.2.later hs)⟩
  | @unwrapped k rest x raw hx hone hraw =>
    -- The close comes in the place of the frame that took the wrapper apart.
    obtain ⟨h', y, hu, hy, hhead⟩ := hr.1 rfl
    cases hu with
    | discard =>
      obtain rfl : x = y := Option.some.inj (hx.symm.trans hy)
      obtain ⟨x', hx', hlater⟩ := hs.later hx
      have hw := hs.mem_history (hv.owned.wrapped_of_stream k x raw hx hraw)
      refine ⟨fun _ => ⟨k, x', .close hw, hx', ?_⟩, hr.2.later hs⟩
      rw [hlater.home, hlater.identity, hhead]
  | @closing raw X entry cause =>
    refine ⟨fun hf => ?_, hr.2.later hs⟩
    cases cause with
    | death => cases hf
    | lostRace =>
      obtain ⟨k, x, hu, hx, hhead⟩ := hr.1 rfl
      cases hu with
      | close hw => exact ⟨k, x, .closing (hs.mem_history hw), hx, hhead⟩
  | _ => exact .cons rfl (hr.2.later hs)

theorem Resumes.call (hr : sc.Resumes rest) (c : Call) : sc.Resumes (c.frames ++ rest) := by
  cases c with
  | acquire p X => exact .cons rfl (.cons rfl hr)
  | dropPool p => exact .cons rfl (.cons rfl (.cons rfl hr))
  | _ => exact .cons rfl hr

end Scene

namespace System

variable {s s' : System σ} {a : Act σ}

theorem Sound.resumes_next (hs : Sound s) (hr : ∀ frames ∈ s.threads, s.scene.Resumes frames)
    (ha : s.next? a = some s') : ∀ frames ∈ s'.threads, s'.scene.Resumes frames := by
  have hstep := (hs.scene_next ha).1
  have hold : ∀ frames ∈ s.threads, s'.scene.Resumes frames :=
    fun frames hf => (hr frames hf).later hstep
  cases hthread : a.thread? with
  | some t =>
    obtain ⟨frames, turn, hframes, hturn, rfl, -⟩ := exists_turn hthread ha
    intro frames' hf
    rcases List.mem_or_eq_of_mem_set hf with hf | rfl
    · exact hold frames' hf
    · obtain ⟨O, hO, hO'⟩ := exists_others hframes
      have hscene : s.scene = ⟨s.world, frames + O, s.held, s.history⟩ := by
        simp only [scene, System.frames, hO]
      have hscene' : (s.take t frames turn).scene = ⟨turn.world, turn.frames + O,
          (turn.gained ++ s.held : List WrapperId),
          (turn.events s.world frames ++ s.history : List Event)⟩ := by
        simp only [scene, System.frames, take, hO']
      rw [hscene'] at hstep ⊢
      rw [hscene] at hstep
      exact (hscene ▸ hr frames (List.mem_of_getElem? hframes)).turn (hscene ▸ hs.valid) hstep
        (Act.yields_turn hturn)
  | none =>
    obtain ⟨-, -, hsame | hspawn | ⟨t, c, frames, -, hframes, -, hcall⟩⟩ := exists_call hthread ha
    · exact hsame ▸ hold
    · rw [hspawn]
      intro frames hf
      rcases List.mem_append.1 hf with hf | hnew
      · exact hold frames hf
      · exact List.mem_singleton.1 hnew ▸ trivial
    · rw [hcall]
      intro frames' hf
      rcases List.mem_or_eq_of_mem_set hf with hf | rfl
      · exact hold frames' hf
      · exact (hold frames (List.mem_of_getElem? hframes)).call c

theorem Reachable.resumes (hs : s.Reachable) : ∀ frames ∈ s.threads, s.scene.Resumes frames :=
  (hs.keeps (P := fun s => Sound s ∧ ∀ frames ∈ s.threads, s.scene.Resumes frames)
    ⟨Reachable.start.sound, by simp⟩
    fun _ _ _ h ha => ⟨h.1.next ha, h.1.resumes_next h.2 ha⟩).2

/-- Whoever undoes a lost race has an acquisition to go on with. -/
theorem Reachable.mem_lookUp (hs : s.Reachable) {f : Frame} {h : WrapperId} {x : Wrapper}
    (hf : f ∈ s.frames) (hu : s.scene.Undoes h f) (hx : s.world.wrappers[h]? = some x) :
    .lookUp x.home x.identity ∈ s.frames := by
  obtain ⟨frames, ht, hf⟩ := List.mem_flatten.1 hf
  exact List.mem_flatten.2
    ⟨frames, ht, (hs.resumes frames ht).mem_lookUp hs.valid.owned hf hu hx⟩

end System

end ReadPool
