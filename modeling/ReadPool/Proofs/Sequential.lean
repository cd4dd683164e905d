import Mathlib
import ReadPool.Proofs.Acquiring
import ReadPool.Proofs.Labels
import ReadPool.Proofs.Rest
import ReadPool.Proofs.Solo

/-!
# One raw handle for an identity

A lone caller, whose openers and closes do not call the pool, never has two raw handles of one
identity open. An open begins only where the identity has no slot of a live wrapper and nothing waits
to be received, so what was opened for the identity before is closed by then. As long as identities
are told apart like this, a late death cannot take the slot of a live wrapper, and entries are not
needed for that.
-/

namespace ReadPool

namespace Scene

variable {sc sc' : Scene σ} {p : PoolId} {X Y : Identity} {raw raw' : RawId} {h : WrapperId}
  {x : Wrapper}

/-- Every raw handle that was opened for the identity is closed. -/
def Vacated (sc : Scene σ) (X : Identity) : Prop := ∀ raw, ¬ sc.Unclosed raw X

/-- An identity has one raw handle at the most that is not closed. -/
def Exclusive (sc : Scene σ) : Prop :=
  ∀ raw raw' X, sc.Unclosed raw X → sc.Unclosed raw' X → raw = raw'

/-- A live wrapper of the pool has its slot. -/
def Shelved (sc : Scene σ) (p : PoolId) : Prop :=
  ∀ h x, sc.LiveIn p h x → sc.world.slot? p x.identity = some ⟨x.entry, h⟩

theorem Unclosed.congr (hu : sc.Unclosed raw X) (hXY : X.Same Y) : sc.Unclosed raw Y := by
  obtain ⟨⟨Z, hr, hZ⟩, hc⟩ := hu
  exact ⟨⟨Z, hr, hZ.trans hXY⟩, hc⟩

/-- Only an open makes a raw handle that is to be closed. -/
theorem Step.unclosed (hs : Step sc sc') (hu : sc'.Unclosed raw X) : sc.Unclosed raw X ∨
    raw = sc.world.raws.length ∧ ∃ p Y observed, .opening p Y observed ∈ sc.frames ∧ Y.Same X ∧
      .wrap p Y observed raw ∈ sc'.frames := by
  obtain ⟨⟨Y, hr, hY⟩, hc⟩ := hu
  obtain ⟨events, he⟩ := hs.history
  rcases hs.openedFor_before hr with hold | ⟨hraw, p, observed, hopening, hwrap, -⟩
  · refine .inl ⟨⟨Y, hold, hY⟩, fun hm => hc ?_⟩
    rw [he, collect_coe_append]
    exact Multiset.mem_add.2 (.inr hm)
  · exact .inr ⟨hraw, p, Y, observed, hopening, hY, hwrap⟩

theorem Vacated.step (hv : sc.Vacated X) (hs : Step sc sc')
    (hw : ∀ p Y observed raw, .wrap p Y observed raw ∉ sc'.frames) : sc'.Vacated X := by
  intro raw hu
  rcases hs.unclosed hu with hold | ⟨-, p, Y, observed, -, -, hwrap⟩
  · exact hv raw hold
  · exact hw p Y observed raw hwrap

theorem Exclusive.step (hi : Exclusive sc) (hs : Step sc sc')
    (hv : ∀ p X observed, .opening p X observed ∈ sc.frames → sc.Vacated X) : Exclusive sc' := by
  intro raw raw' X hu hu'
  rcases hs.unclosed hu, hs.unclosed hu' with
    ⟨hold | ⟨hraw, p, Y, observed, hf, hY, -⟩, hold' | ⟨hraw', q, Z, observed', hf', hZ, -⟩⟩
  · exact hi raw raw' X hold hold'
  · exact absurd (hold.congr hZ.symm) (hv q Z observed' hf' raw)
  · exact absurd (hold'.congr hY.symm) (hv p Y observed hf raw')
  · rw [hraw, hraw']

/-! ## Who has an unclosed raw handle -/

/-- A referenced wrapper has a stream that is not closed. -/
theorem Valid.unclosed_of_strong_pos (hv : Valid sc) (hl : Labelled sc)
    (hx : sc.world.wrappers[h]? = some x) (hpos : 0 < x.strong) :
    ∃ raw, x.stream = some raw ∧ raw ∈ sc.world.streams ∧ sc.Unclosed raw x.identity := by
  obtain ⟨raw, hr⟩ := Option.isSome_iff_exists.1 ((hv.referenced.stream_isSome h x hx).2 hpos)
  have hm : raw ∈ sc.world.streams := World.mem_streams.2 ⟨h, x, hx, hr⟩
  exact ⟨raw, hr, hm, ⟨x.identity, hl.of_stream hv.owned hx hr, .refl _⟩,
    hv.owned.not_closed_of_mem_streams hm⟩

/-- A death that was received has a raw handle that is not closed. -/
theorem Valid.unclosed_of_evict (hv : Valid sc) (hl : Labelled sc) {note : Note}
    (hf : .evict p note ∈ sc.frames) :
    note.raw ∈ collect Frame.raws sc.frames ∧ sc.Unclosed note.raw note.identity := by
  have hm : note.raw ∈ collect Frame.raws sc.frames := mem_collect.2 ⟨_, hf, by simp [Frame.raws]⟩
  obtain ⟨h, hd⟩ := hv.mourned.frames _ hf
  exact ⟨hm, ⟨note.identity, hl.of_left hd.1, .refl _⟩, hv.owned.not_closed_of_mem_frames hm⟩

/-- Where identities are told apart, no step takes or replaces the slot of a live wrapper. -/
theorem Exclusive.slot?_step (he : Exclusive sc) (hl : Labelled sc) (hv : Valid sc)
    (hs : Step sc sc') (hd : .disconnect p ∉ sc.frames) (hlive : sc.LiveIn p h x)
    (hslot : sc.world.slot? p x.identity = some ⟨x.entry, h⟩) :
    sc'.world.slot? p x.identity = some ⟨x.entry, h⟩ := by
  obtain ⟨hx, hhome, hpub, hpos⟩ := hlive
  obtain ⟨raw, hr, hm, hu⟩ := hv.unclosed_of_strong_pos hl hx hpos
  rcases hs.slot?_next hslot with hkept | ⟨note, hf, hX, -⟩ | ⟨Y, k, hf, hY⟩ | ⟨hdown, -⟩
  · exact hkept
  · obtain ⟨hm', hu'⟩ := hv.unclosed_of_evict hl hf
    -- The raw handle would be in the wrapper's stream and with the death.
    obtain rfl := he _ _ _ hu (hu'.congr hX)
    have hn := hv.owned.nodup_raws
    rw [raws, add_assoc, add_assoc, Multiset.nodup_add] at hn
    exact absurd (Multiset.mem_add.2 (.inl hm)) (Multiset.disjoint_left.1 hn.2.2 hm')
  · obtain ⟨-, z, hz, -, rfl⟩ := hv.grounded.frames _ hf
    have htrial : k ∈ collect Frame.trial sc.frames := mem_collect.2 ⟨_, hf, by simp [Frame.trial]⟩
    obtain ⟨z', -, hz', hone, -⟩ := hv.referenced.exists_of_trial htrial
    obtain rfl : z' = z := Option.some.inj (hz'.symm.trans hz)
    obtain ⟨raw', hr', -, hu'⟩ := hv.unclosed_of_strong_pos hl hz (by omega)
    -- The two wrappers would have one raw handle, but the one is published and the other is not.
    obtain rfl := he _ _ _ hu (hu'.congr hY)
    obtain ⟨-, rfl⟩ := hv.owned.wrapped_inj (hv.owned.wrapped_of_stream h x raw hx hr)
      (hv.owned.wrapped_of_stream k z' raw hz hr')
    exact absurd htrial (hv.referenced.shown h hpub)
  · exact absurd hdown hd

theorem Shelved.step (hi : Shelved sc p) (he : Exclusive sc) (hl : Labelled sc) (hv : Valid sc)
    (hs : Step sc sc') (hd : .disconnect p ∉ sc.frames) : Shelved sc' p := by
  intro h x' hlive
  obtain ⟨x, hx, hlater, hpos⟩ := hlive.before hs hv.referenced
  obtain ⟨-, hhome, hpub', -⟩ := hlive
  have hxp : x.home = p := hlater.home.symm.trans hhome
  rw [hlater.identity, hlater.entry]
  by_cases hpub : .published h ∈ sc.history
  · have hold : sc.LiveIn p h x := ⟨hx, hxp, hpub, hpos⟩
    exact he.slot?_step hl hv hs hd hold (hi h x hold)
  · exact hxp ▸ (hs.slot?_of_new hv.grounded hx hpub' hpub).1

/-- Where nothing is received or under way and the look-up finds nothing live, all that was opened
for the identity is closed. -/
theorem Valid.vacated_of_lookUp (hv : Valid sc) (hl : Labelled sc) (hsh : Shelved sc 0)
    (hp : sc.world.pools.length = 1) (hF : sc.frames = {.lookUp 0 X})
    (hq : sc.world.pending 0 = [])
    (hdead : ∀ slot, sc.world.slot? 0 X = some slot → sc.world.isLive slot.wrapper = false) :
    sc.Vacated X := by
  rintro raw ⟨⟨Y, hr, hY⟩, hc⟩
  have hlt : raw < sc.world.raws.length := by
    obtain ⟨r, hr, -⟩ := hr
    exact (List.getElem?_eq_some_iff.1 hr).1
  -- The only frame has no raw handle, so it is in a stream, in the queue, or closed.
  have hplace : raw ∈ sc.raws := hv.owned.raws_eq ▸ Multiset.mem_range.2 hlt
  simp only [raws, hF, collect_singleton, Frame.raws, zero_add, Multiset.mem_add] at hplace
  rcases hplace with (hstream | hqueued) | hclosed
  · obtain ⟨h, x, hx, hstream⟩ := World.mem_streams.1 hstream
    have hpos := (hv.referenced.stream_isSome h x hx).1 (by simp [hstream])
    have hpub : .published h ∈ sc.history := by
      -- Nobody is at work on a wrapper, so a caller holds this one.
      by_contra hpub
      have hheld := (hv.referenced.hidden h hpub).1
      have hcount := hv.referenced.strong_eq h
      simp only [hF, collect_singleton, Frame.trial, Frame.dropped, Multiset.count_zero, add_zero,
        World.strong_eq hx, Multiset.count_eq_zero_of_notMem hheld] at hcount
      omega
    obtain rfl := hr.inj (hl.of_stream hv.owned hx hstream)
    have hslot := hsh h x ⟨hx, hv.home_eq_zero hp hx, hpub, hpos⟩
    rw [World.slot?_congr hY] at hslot
    have := hdead _ hslot
    rw [World.isLive_iff.2 (World.strong_eq hx ▸ hpos)] at this
    cases this
  · obtain ⟨q, note, hn, -⟩ := World.mem_queued.1 hqueued
    obtain rfl : q = 0 :=
      Nat.lt_one_iff.1 (hp ▸ World.lt_length_of_isUp (World.isUp_of_mem_pending hn))
    rw [hq] at hn
    cases hn
  · exact hc hclosed

end Scene

/-! ## What a lone caller is at -/

/-- The call goes on without others, and its openers and closes do not call the pool. -/
def Moment.isSequential (m : Moment σ) : Bool :=
  match m.act with
  | .spawn => false
  | .newPool _ => false
  | .call _ (.dropPool _) => false
  | .call _ _ => m.system.frames.isEmpty
  | _ => true

/-- What a lone caller has left to do. An acquisition that is past its drain finds nothing more to
receive. -/
inductive Errand (w : World σ) : List Frame → Prop where
  | purge {F : List Frame} (hF : Purging 0 F) : Errand w F
  | acquire {X : Identity} {own : List Frame} (h : Acquiring 0 X own)
      (hq : own.head?.any Frame.isDrain = false → w.pending 0 = []) : Errand w own
  | drop (h : WrapperId) : Errand w [.drop h]
  | post (note : Note) : Errand w [.post 0 note]

namespace Errand

variable {w w' : World σ} {frames : List Frame} {a : Act σ} {turn : Turn σ}

theorem congr (he : Errand w frames) (hq : w'.pending 0 = w.pending 0) : Errand w' frames := by
  cases he with
  | purge hF => exact .purge hF
  | acquire h hpend => exact .acquire h fun hd => hq.trans (hpend hd)
  | drop h => exact .drop h
  | post note => exact .post note

theorem disconnect_notMem (he : Errand w frames) (p : PoolId) : .disconnect p ∉ frames := by
  cases he with
  | purge hF => cases hF <;> simp
  | acquire h =>
    cases h with
    | drain hF => cases hF <;> simp
    | _ => simp
  | _ => simp

theorem opening_of_wrap (he : Errand w frames) {p q : PoolId} {X Y : Identity}
    {observed observed' : Option Entry} {raw : RawId} (h : .wrap p X observed raw ∈ frames) :
    .opening q Y observed' ∉ frames := by
  cases he with
  | purge hF => cases hF <;> simp at h
  | acquire hown =>
    cases hown with
    | drain hF => cases hF <;> simp at h
    | _ => simp_all
  | _ => simp at h

/-- What a lone caller does next. An opener is called where nothing is left of what was opened for
the identity before. -/
theorem next (he : Errand w frames) {H : Multiset WrapperId} {E : List Event}
    (hv : Scene.Valid ⟨w, frames, H, E⟩) (hp : w.pools.length = 1) (hup : w.isUp 0)
    (h : a.turn? w frames = some turn) :
    Errand turn.world turn.frames ∧ ∀ p X observed, .opening p X observed ∈ turn.frames →
      frames = [.lookUp 0 X] ∧ turn.world = w ∧ w.pending 0 = [] ∧
      ∀ slot, w.slot? 0 X = some slot → w.isLive slot.wrapper = false := by
  have hyields := Act.yields_turn h
  cases he with
  | purge hF =>
    have hne : frames ≠ [] := by
      rintro rfl
      cases hyields
    have hstate : PurgeState w 0 frames := ⟨hF, hup, fun hnil => absurd hnil hne⟩
    have hF' : Purging 0 turn.frames := (hstate.yields hyields).1
    refine ⟨.purge hF', fun p X observed hm => ?_⟩
    -- A purge has no frame at which an opener is at work.
    generalize turn.frames = frames' at hF' hm
    cases hF' <;> simp at hm
  | @acquire X own hown hq =>
    have hmove := hown.move (O := 0) (by simpa using hv) h
    refine ⟨?_, fun p Y observed hm => ?_⟩
    · rcases hmove.acquiring with hgoing | ⟨hover, -⟩
      · exact .acquire hgoing (hmove.pending_eq_nil hq)
      · exact .purge (hover ▸ .done)
    · cases hmove with
      | drain hF hne hF' hdone hframes =>
        rw [hframes] at hm
        cases hF' <;> simp at hm
      | miss hdead =>
        -- Only a look-up that misses leads to an opener, and by then the drain is over.
        obtain ⟨-, rfl, -⟩ : p = 0 ∧ Y = X ∧ _ := by simpa using hm
        exact ⟨rfl, rfl, hq rfl, hdead⟩
      | _ => simp at hm
  | drop k =>
    cases hyields with
    | died hx =>
      refine ⟨?_, by simp⟩
      rw [hv.home_eq_zero hp hx]
      exact .post _
    | dropped => exact ⟨.purge .done, by simp⟩
  | post note =>
    cases hyields with
    | posted => exact ⟨.purge .done, by simp⟩
    | releasedInline hq => simp [World.isUp, hq] at hup

end Errand

namespace System

variable {s s' : System σ} {a : Act σ}

/-- What a lone caller keeps to. -/
structure Orderly (s : System σ) : Prop where
  sound : Sound s
  labelled : s.scene.Labelled
  exclusive : s.scene.Exclusive
  shelved : s.scene.Shelved 0
  pools : s.world.pools.length = 1
  up : s.world.isUp 0
  errand : ∃ frames, s.threads = [frames] ∧ Errand s.world frames
  vacated : ∀ p X observed, .opening p X observed ∈ s.frames → s.scene.Vacated X

namespace Orderly

theorem alone (config : Config) : Orderly (alone config : System σ) where
  sound := sound_alone config
  labelled := by constructor <;> simp [scene, System.frames, System.alone]
  exclusive raw raw' X hu _ := by
    obtain ⟨⟨Y, ⟨r, hr, -⟩, -⟩, -⟩ := hu
    simp [scene, System.alone, World.addPool] at hr
  shelved h x hl := by simpa [scene, System.alone, World.addPool] using hl.1
  pools := rfl
  up := rfl
  errand := ⟨[], rfl, .purge .done⟩
  vacated := by simp [System.frames, System.alone]

/-- A call begins where nothing is going on. -/
theorem errand_call (ho : Orderly s) {t : ThreadId} {c : Call} {frames : List Frame}
    (hadm : s.admits c) (ht : s.threads = [frames])
    (hm : (⟨s, .call t c⟩ : Moment σ).isSequential) : frames = [] ∧ Errand s.world c.frames := by
  have hpool {p : PoolId} (hp : s.isOpen p) : p = 0 :=
    Nat.lt_one_iff.1 (ho.pools ▸ World.lt_length_of_isUp (isOpen_iff.1 hp).1)
  have hnil (hempty : s.frames.isEmpty) : frames = [] := by
    simpa [frames_eq ht] using hempty
  cases c with
  | acquire p X =>
    obtain rfl := hpool hadm
    exact ⟨hnil hm, .acquire (.call 0 X) (by simp [Call.frames, Frame.isDrain])⟩
  | purge p =>
    obtain rfl := hpool hadm
    exact ⟨hnil hm, .purge (.receive 0)⟩
  | drop h => exact ⟨hnil hm, .drop h⟩
  | dropPool p => cases hm
  | _ => cases hadm

/-- What all acts keep. -/
theorem keep (ho : Orderly s) (ha : s.next? a = some s') (hp : s'.world.pools.length = 1)
    (he : ∃ frames, s'.threads = [frames] ∧ Errand s'.world frames)
    (hv : ∀ p X observed, .opening p X observed ∈ s'.frames → s.scene.Vacated X) : Orderly s' := by
  have hs := (ho.sound.scene_next ha).1
  have hd (p : PoolId) : .disconnect p ∉ s.scene.frames := by
    obtain ⟨frames, ht, he⟩ := ho.errand
    simpa [scene, frames_eq ht] using he.disconnect_notMem p
  refine ⟨ho.sound.next ha, ho.labelled.step ho.sound.valid.owned hs,
    ho.exclusive.step hs fun p X observed hf => ho.vacated p X observed (by simpa [scene] using hf),
    ho.shelved.step ho.exclusive ho.labelled ho.sound.valid hs (hd 0), hp,
    (hs.isUp ho.up).resolve_right fun h => hd 0 h.1, he, fun p X observed hf => ?_⟩
  refine (hv p X observed hf).step hs fun q Y observed' raw hw => ?_
  obtain ⟨frames, ht, he⟩ := he
  rw [frames_eq ht] at hf
  exact he.opening_of_wrap (by simpa [scene, frames_eq ht] using hw) hf

theorem next (ho : Orderly s) (hm : (⟨s, a⟩ : Moment σ).isSequential) (ha : s.next? a = some s') :
    Orderly s' := by
  obtain ⟨frames, ht, he⟩ := ho.errand
  cases hthread : a.thread? with
  | some t =>
    obtain ⟨frames', turn, hframes, hturn, rfl, -⟩ := exists_turn hthread ha
    obtain ⟨rfl, rfl⟩ := eq_of_getElem? ht hframes
    have hv := ho.sound.valid
    have hscene : s.scene = ⟨s.world, frames', s.held, s.history⟩ := by
      simp only [scene, frames_eq ht]
    obtain ⟨he', hopening⟩ := he.next (hscene ▸ hv) ho.pools ho.up hturn
    have ht' : (s.take 0 frames' turn).threads = [turn.frames] := by simp [take, ht]
    refine ho.keep ha ((Act.yields_turn hturn).length_pools.trans ho.pools) ⟨_, ht', he'⟩
      fun p X observed hf => ?_
    rw [frames_eq ht'] at hf
    obtain ⟨rfl, -, hq, hdead⟩ := hopening p X observed hf
    exact hv.vacated_of_lookUp ho.labelled ho.shelved ho.pools (by simp [hscene]) hq hdead
  | none =>
    cases a with
    | call t c =>
      obtain ⟨frames', hframes, hcall⟩ := Option.bind_eq_some_iff.1 ha
      split at hcall
      · next hc =>
        cases hcall
        obtain ⟨rfl, rfl⟩ := eq_of_getElem? ht hframes
        have hadm := (Bool.and_eq_true_iff.1 hc).2
        obtain ⟨hnil, hnew⟩ := ho.errand_call hadm ht hm
        subst hnil
        refine ho.keep ha ho.pools ⟨c.frames ++ [], by simp [ht], by simpa using hnew⟩
          fun p X observed hf => ?_
        rw [frames_eq (show _ = [c.frames ++ []] by simp [ht])] at hf
        cases c <;> simp [Call.frames] at hf
      · cases hcall
    | clone k =>
      have hk : s' = { s with world := s.world.retain k, held := k :: s.held } := by
        simp only [next?] at ha
        split at ha <;> cases ha
        rfl
      subst hk
      exact ho.keep ha ho.pools ⟨frames, ht, he.congr rfl⟩ ho.vacated
    | closeReference k =>
      have hk : s' = s := by
        simp only [next?] at ha
        split at ha <;> cases ha
        rfl
      exact hk ▸ ho
    | read k f =>
      obtain ⟨raw, hk⟩ : ∃ raw, s' = { s with world := s.world.updateRaw raw fun r =>
          { r with state := f r.state } } := by
        simp only [next?] at ha
        split at ha
        · obtain ⟨⟨_, world⟩, hw, rfl⟩ := Option.map_eq_some_iff.1 ha
          obtain ⟨raw, -, hw⟩ := Option.bind_eq_some_iff.1 hw
          obtain ⟨r, -, hw⟩ := Option.map_eq_some_iff.1 hw
          cases hw
          exact ⟨raw, rfl⟩
        · cases ha
      subst hk
      exact ho.keep ha ho.pools ⟨frames, ht, he.congr rfl⟩ ho.vacated
    | newPool => cases hm
    | spawn => cases hm
    | _ => cases hthread

theorem run {config : Config} {ms : List (Moment σ)} (h : Run (System.alone config) ms s)
    (hm : ∀ m ∈ ms, m.isSequential) : Orderly s := by
  induction h with
  | refl => exact .alone config
  | next _ ha ih =>
    rw [List.forall_mem_cons] at hm
    exact (ih hm.2).next hm.1 ha

end Orderly

/-- A lone caller, whose openers and closes do not call the pool, has one raw handle open for an
identity at the most, at any moment. While an opener is at work, all that was opened for the identity
before is closed, and was closed once. -/
theorem one_open_raw_per_identity (config : Config) {ms : List (Moment σ)}
    (h : Run (alone config) ms s) (hm : ∀ m ∈ ms, m.isSequential) :
    (∀ (raw raw' : RawId) (r r' : RawHandle σ), s.world.raws[raw]? = some r →
      s.world.raws[raw']? = some r' → r.identity.Same r'.identity → r.phase ≠ .closed →
      r'.phase ≠ .closed → raw = raw') ∧
    ∀ (p : PoolId) (X : Identity) (observed : Option Entry), .opening p X observed ∈ s.frames →
      ∀ (raw : RawId) (r : RawHandle σ), s.world.raws[raw]? = some r → r.identity.Same X →
        r.phase = .closed ∧ s.history.count (.closed raw) = 1 := by
  have ho := Orderly.run h hm
  have hclosed {raw : RawId} {r : RawHandle σ} (hr : s.world.raws[raw]? = some r) :
      r.phase = .closed ↔ raw ∈ collect Event.closes s.scene.history :=
    (ho.sound.valid.closed_iff hr).trans Scene.mem_closes.symm
  constructor
  · intro raw raw' r r' hr hr' hsame hopen hopen'
    refine ho.exclusive raw raw' r.identity ⟨⟨_, ⟨r, hr, rfl⟩, .refl _⟩, ?_⟩
      ⟨⟨_, ⟨r', hr', rfl⟩, hsame.symm⟩, ?_⟩
    · exact fun hc => hopen ((hclosed hr).2 hc)
    · exact fun hc => hopen' ((hclosed hr').2 hc)
  · intro p X observed hf raw r hr hsame
    have hc : raw ∈ collect Event.closes s.scene.history := by
      by_contra hc
      exact ho.vacated p X observed hf raw ⟨⟨_, ⟨r, hr, rfl⟩, hsame⟩, hc⟩
    refine ⟨(hclosed hr).2 hc, ?_⟩
    rw [count_closed]
    exact Multiset.count_eq_one_of_mem ho.sound.valid.owned.nodup_closes hc

/-- A caller acquires a file, lets go of it, and acquires it again. -/
def reopening : List (Act Unit) :=
  [.call 0 (.acquire 0 ⟨.ofString "/a"⟩), .turn 0, .turn 0, .opened 0 (.ok ()), .turn 0, .turn 0,
    .call 0 (.drop 0), .turn 0, .turn 0, .call 0 (.acquire 0 ⟨.ofString "//a/."⟩), .turn 0, .turn 0,
    .turn 0, .closed 0 (some .busy), .turn 0, .turn 0]

theorem isSome_run_reopening : ((alone {} : System Unit).run? reopening).isSome := by decide +kernel

def reopened : System Unit := ((alone {} : System Unit).run? reopening).get isSome_run_reopening

theorem one_open_raw_per_identity_reopened :
    Run (alone {}) ((alone {} : System Unit).moments reopening) reopened ∧
    (∀ m ∈ (alone {} : System Unit).moments reopening, m.isSequential) ∧
    .opening 0 ⟨.ofString "//a/."⟩ none ∈ reopened.frames ∧
    reopened.world.raws.map RawHandle.identity = [⟨.ofString "/a"⟩] ∧
    ∀ r, reopened.world.raws[0]? = some r →
      r.phase = .closed ∧ reopened.history.count (.closed 0) = 1 := by
  have hrun : Run (alone {}) ((alone {} : System Unit).moments reopening) reopened :=
    run_moments (Option.some_get _).symm
  have hm : ∀ m ∈ (alone {} : System Unit).moments reopening, m.isSequential := by decide +kernel
  have hf : .opening 0 ⟨.ofString "//a/."⟩ none ∈ reopened.frames := by decide +kernel
  refine ⟨hrun, hm, hf, by decide +kernel, fun r hr => ?_⟩
  refine (one_open_raw_per_identity {} hrun hm).2 0 _ none hf 0 r hr ?_
  have hX : ∀ r ∈ reopened.world.raws, r.identity.Same ⟨.ofString "//a/."⟩ := by decide +kernel
  exact hX r (List.mem_of_getElem? hr)

end System

end ReadPool
