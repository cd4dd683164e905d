import Mathlib
import ReadPool.Proofs.Solitary

/-!
# A faithful account

The log of a lone thread that works on one pool, with calls from inside its openers and closes. The
entries that it gives out are the numbers from zero on, one for each successful open, and it says of
each entry how it went out of the table and when what was opened for it was closed.
-/

namespace ReadPool

/-- An open that was successful is not told of yet. -/
def Frame.isUntold : Frame → Bool
  | wrap .. => true
  | publish .. => true
  | _ => false

/-- What a run has logged, first things first. -/
def account (ms : List (Moment σ)) : List LogEvent := ms.reverse.flatMap Moment.log

theorem account_cons (m : Moment σ) (ms : List (Moment σ)) :
    account (m :: ms) = account ms ++ m.log := by
  simp [account]

theorem card_untold (F : List Frame) : (collect Frame.attempt (F : Multiset Frame)).card
    + (collect Frame.unwrapped (F : Multiset Frame)).card = F.countP Frame.isUntold := by
  induction F with
  | nil => rfl
  | cons f F ih =>
    rw [collect_coe_cons, collect_coe_cons, Multiset.card_add, Multiset.card_add,
      List.countP_cons, ← ih]
    cases f <;> simp [Frame.attempt, Frame.unwrapped, Frame.isUntold] <;> omega

namespace Scene

variable {sc sc' : Scene σ} {log evs : List LogEvent} {h : WrapperId} {x : Wrapper}

/-! ## Numbers in turn -/

/-- In a world with one pool, wrappers are numbered by their places. -/
theorem Valid.entry_eq_ofNat (hv : Valid sc) (h1 : sc.world.pools.length = 1)
    (hx : sc.world.wrappers[h]? = some x) : x.entry = .ofNat h := by
  have hlt : h < sc.world.homes.length := by
    rw [World.homes, List.length_map]
    exact (List.getElem?_eq_some_iff.1 hx).1
  have hall : ∀ p ∈ sc.world.homes.take h, 0 = p := fun p hp =>
    (Nat.lt_one_iff.1 (h1 ▸ hv.numbered.homes_lt p (List.mem_of_mem_take hp))).symm
  rw [hv.numbered.entry_eq h x hx, hv.home_eq_zero h1 hx, List.count_eq_length.2 hall,
    List.length_take_of_le hlt.le]

/-- Each open is on its way to a wrapper, or has one. -/
theorem Valid.opensOf_eq (hv : Valid sc) (h1 : sc.world.pools.length = 1) : opensOf 0 sc.history
    = sc.world.wrappers.length + (collect Frame.unwrapped sc.frames).card := by
  have hhomes : ∀ p ∈ sc.world.homes, 0 = p := fun p hp =>
    (Nat.lt_one_iff.1 (h1 ▸ hv.numbered.homes_lt p hp)).symm
  have hframes : ∀ p ∈ (collect Frame.unwrapped sc.frames).map Prod.fst, 0 = p := by
    intro p hp
    obtain ⟨⟨q, raw⟩, hm, rfl⟩ := Multiset.mem_map.1 hp
    obtain ⟨f, hf, hm⟩ := mem_collect.1 hm
    cases f with
    | wrap q' X observed raw' =>
      obtain ⟨rfl, -⟩ : q = q' ∧ raw = raw' := by simpa [Frame.unwrapped] using hm
      have hup := (hv.grounded.up q (mem_collect.2 ⟨_, hf, by simp [Frame.acquiring]⟩)).1
      exact (Nat.lt_one_iff.1 (h1 ▸ World.lt_length_of_isUp hup)).symm
    | _ => simp [Frame.unwrapped] at hm
  rw [← count_opens, ← hv.owned.wraps_eq, Multiset.map_add, hv.numbered.homes_eq,
    Multiset.count_add, Multiset.coe_count, List.count_eq_length.2 hhomes,
    Multiset.count_eq_card.2 hframes, Multiset.card_map, World.homes, List.length_map]

/-- The log has told the numbers of all wrappers but those that are to be published, in turn. -/
structure Counted (sc : Scene σ) (log : List LogEvent) : Prop where
  length_eq : sc.world.wrappers.length
    = (numbers log).length + (collect Frame.attempt sc.frames).card
  numbers_eq : numbers log = (List.range (numbers log).length).map .ofNat

namespace Counted

theorem keep (hc : Counted sc log) (hn : numbers evs = [])
    (hl : sc'.world.wrappers.length + (collect Frame.attempt sc.frames).card
      = sc.world.wrappers.length + (collect Frame.attempt sc'.frames).card) :
    Counted sc' (log ++ evs) := by
  have hlog : numbers (log ++ evs) = numbers log := by rw [numbers_append, hn, List.append_nil]
  have := hc.length_eq
  exact ⟨by rw [hlog]; omega, by rw [hlog]; exact hc.numbers_eq⟩

/-- The wrapper that was made last is told of. -/
theorem add (hc : Counted sc log) (hv : Valid sc) (h1 : sc.world.pools.length = 1)
    (hx : sc.world.wrappers[h]? = some x) (hlast : h + 1 = sc.world.wrappers.length)
    (ha : (collect Frame.attempt sc.frames).card = 1) (hn : numbers evs = [x.entry])
    (hl : sc'.world.wrappers.length = sc.world.wrappers.length)
    (ha' : (collect Frame.attempt sc'.frames).card = 0) : Counted sc' (log ++ evs) := by
  have hh : (numbers log).length = h := by
    have hlen := hc.length_eq
    rw [ha, ← hlast] at hlen
    exact (Nat.succ.inj hlen).symm
  refine ⟨?_, ?_⟩
  · rw [numbers_append, hn, List.length_append, List.length_singleton, hh, ha', hl, ← hlast]
  · rw [numbers_append, hn, List.length_append, List.length_singleton, hh, List.range_succ,
      List.map_append, List.map_singleton, ← hv.entry_eq_ofNat h1 hx, ← hh, ← hc.numbers_eq]

theorem step (hc : Counted sc log) (hl : Logs sc sc' evs) (hv : Valid sc)
    (h1 : sc.world.pools.length = 1) : Counted sc' (log ++ evs) := by
  cases hl with
  | silent hs hlog => exact hc.keep (numbers_eq_nil hlog) hs.made
  | publish hF hlast hx hp hs =>
    exact hc.add hv h1 hx hlast (by simp [Frame.attempt, hF]) rfl rfl (by simp [hF])
  | lose hF hlast hx hX =>
    exact hc.add hv h1 hx hlast (by simp [Frame.attempt, hF]) rfl rfl (by simp [Frame.attempt, hF])
  | evict hup hr => exact hc.keep rfl (by simp [Frame.attempt])
  | postInline hq => exact hc.keep rfl (by simp [Frame.attempt])
  | disconnect => exact hc.keep rfl (by simp [Frame.attempt])
  | @closed w F H E raw X entry cause error =>
    refine hc.keep ?_ (by simp [Frame.attempt])
    cases cause <;> cases error <;> rfl

/-- While there are as many numbers as opens, none is given twice. -/
theorem nodup (hc : Counted sc log) (hv : Valid sc) (h1 : sc.world.pools.length = 1)
    (hp : opensOf 0 sc.history < 2 ^ 64) : (numbers log).Nodup := by
  have hle : (numbers log).length ≤ opensOf 0 sc.history := by
    have := hv.opensOf_eq h1
    have := hc.length_eq
    omega
  rw [hc.numbers_eq]
  refine List.Nodup.map_on (fun i hi j hj hij => ?_) List.nodup_range
  have lt {k : Nat} (hk : k ∈ List.range (numbers log).length) : k < UInt64.size :=
    ((List.mem_range.1 hk).trans_le hle).trans hp
  have := congrArg UInt64.toNat hij
  rwa [UInt64.toNat_ofNat_of_lt' (lt hi), UInt64.toNat_ofNat_of_lt' (lt hj)] at this

end Counted

end Scene

/-! ## Logs that can be relied on -/

namespace System

variable {s₀ s s' : System σ} {ms : List (Moment σ)} {log : List LogEvent}

/-- What a log says of each entry, first things first, and how that agrees with what has become of
the wrappers. -/
structure FaithfulLog (s : System σ) (log : List LogEvent) : Prop where
  numbers_nodup : (numbers log).Nodup
  drained_once : ∀ e, tally LogEvent.isDrain e log ≤ 1
  /-- What is drained was published, and its slot is still there just if no other has replaced
  it. -/
  drained : ∀ earlier X e removed later, log = earlier ++ .drained X e removed :: later →
    (∃ Y replaced, .published Y e replaced ∈ earlier) ∧
      (removed = false ↔ ∃ Y e', .published Y e' (some e) ∈ earlier)
  /-- An entry is replaced, or its death takes the slot out; not both, and neither twice. -/
  unlisted_once : ∀ e, log.countP (LogEvent.unlists e) ≤ 1
  /-- A published wrapper that is closed has one event that says so. One death before that was
  drained, or found no pool, unless the queue had it when it ended: then there is none. It was not
  to take a slot out just if another had. -/
  released : ∀ (h : WrapperId) (x : Wrapper) (raw : RawId), s.world.wrappers[h]? = some x →
    .wrapped 0 h raw ∈ s.history → .published h ∈ s.history → .closed raw ∈ s.history →
    (∃ earlier ev later, log = earlier ++ ev :: later ∧ ev.isRelease ∧ ev.entry? = some x.entry ∧
      tally LogEvent.isRelease x.entry (earlier ++ later) = 0 ∧
      tally LogEvent.isDeparture x.entry earlier = (if isLeft raw s.history then 0 else 1) ∧
      tally LogEvent.isDeparture x.entry later = 0) ∧
    ((∃ X, .drained X x.entry false ∈ log) ↔ ∃ Y e', .published Y e' (some x.entry) ∈ log)
  /-- What has lost its race neither dies nor is released like a published wrapper. -/
  lost : ∀ X e, .lostRace X e ∈ log →
    tally LogEvent.isRelease e log = 0 ∧ tally LogEvent.isDeparture e log = 0

/-- The tale of a log that is read from its beginning, up to one of its events. -/
theorem exists_tale_of_append (hc : s.scene.Chronicle log.reverse) {earlier later : List LogEvent}
    {ev : LogEvent} (hl : log = earlier ++ ev :: later) {e : Entry} (he : ev.names e) :
    ∃ before after, Tale e before (told e earlier.reverse) ∧ Tells e before ev after := by
  obtain ⟨stage, htale⟩ := hc.exists_tale e
  have hsplit : told e log.reverse = told e later.reverse ++ ev :: told e earlier.reverse := by
    rw [hl, List.reverse_append, List.reverse_cons, told_append, told_append, told_singleton,
      if_pos he, List.append_assoc, List.singleton_append]
  exact (hsplit ▸ htale).of_append

theorem FaithfulLog.of_chronicle (hc : s.scene.Chronicle log.reverse)
    (hn : s.scene.Counted log) (hv : s.scene.Valid) (h1 : s.world.pools.length = 1)
    (hp : opensOf 0 s.history < 2 ^ 64) : FaithfulLog s log where
  numbers_nodup := hn.nodup hv h1 hp
  drained_once e := by
    obtain ⟨stage, htale⟩ := hc.exists_tale e
    refine tally_isDrain_le.trans ?_
    rw [← tally_told_reverse, htale.tally_isDeparture]
    split <;> omega
  drained earlier X e removed later hl := by
    obtain ⟨before, after, htale, htells⟩ :=
      exists_tale_of_append hc hl (e := e) (by simp [LogEvent.entry?])
    obtain ⟨⟨Y, replaced, hpub⟩, hiff⟩ := htale.of_drained htells
    refine ⟨⟨Y, replaced, List.mem_reverse.1 (mem_told.1 hpub).1⟩, ?_⟩
    simpa [mem_told] using hiff
  unlisted_once e := by
    obtain ⟨stage, htale⟩ := hc.exists_tale e
    rw [← List.countP_reverse, ← countP_unlists_told]
    exact htale.countP_unlists.2
  released h x raw hx hw hpub hclosed := by
    have hb : s.scene.Bears h ⟨x.identity, x.entry, raw⟩ := ⟨x, hx, rfl, rfl, hw⟩
    have htale : Tale x.entry (.gone (isLeft raw s.history)) (told x.entry log.reverse) :=
      hv.stage_of_closed hb hpub hclosed ▸ hc.tale h _ hb
    have hiff := htale.replaced_iff (.inr rfl)
    simp only [mem_told, List.mem_reverse] at hiff
    exact ⟨htale.exists_release, by simpa [LogEvent.entry?] using hiff.symm⟩
  lost X e hm := by
    obtain ⟨stage, htale⟩ := hc.exists_tale e
    obtain rfl := htale.eq_lost (X := X)
      (mem_told.2 ⟨List.mem_reverse.2 hm, by simp [LogEvent.entry?]⟩)
    have hreleases := htale.tally_isRelease
    have hdepartures := htale.tally_isDeparture
    rw [tally_told_reverse] at hreleases hdepartures
    exact ⟨hreleases, hdepartures⟩

/-! ## Every run -/

/-- The order of events in one act does not matter, for there is one at the most to tell of. -/
theorem logs_reverse {sc sc' : Scene σ} (h : sc.Logs sc' log) : sc.Logs sc' log.reverse := by
  cases h with
  | silent hs hl =>
    refine .silent hs fun e => ?_
    rw [told_reverse, hl, List.reverse_nil]
  | publish hF hlast hx hp hs => exact .publish hF hlast hx hp hs
  | lose hF hlast hx hX => exact .lose hF hlast hx hX
  | evict hup hr => exact .evict hup hr
  | postInline hq => exact .postInline hq
  | disconnect hF hq => exact .disconnect hF hq
  | @closed w F H E raw X entry cause error =>
    have hone : (World.closeReport X entry cause error).reverse
        = World.closeReport X entry cause error := by
      cases cause <;> cases error <;> rfl
    rw [hone]
    exact .closed error

theorem Run.dismissed {config : Config} (h : Run (alone config) ms s) : s.scene.Dismissed :=
  h.keeps (P := Scene.Dismissed) (sound_alone config) (fun _ hl => nomatch hl)
    fun _ _ hst hd => hd.step hst

/-- A run of a lone thread has counted and told all that has happened. -/
theorem Run.chronicle {config : Config} (h : Run (alone config) ms s)
    (hms : ∀ m ∈ ms, m.isSolitary) : Solitary s ∧ s.scene.Counted (account ms) ∧
      (opensOf 0 s.history < 2 ^ 64 → s.scene.Chronicle (account ms).reverse) := by
  induction h with
  | refl =>
    refine ⟨.alone config, ⟨?_, rfl⟩, fun _ => ⟨fun _ _ => rfl, ?_⟩⟩
    · simp [scene, System.frames, alone, numbers, account, World.addPool]
    · rintro h n ⟨x, hx, -⟩
      simp [scene, alone, World.addPool] at hx
  | @next ms s s' a h ha ih =>
    obtain ⟨hm, hms⟩ := List.forall_mem_cons.1 hms
    obtain ⟨hs, hcount, hchron⟩ := ih hms
    obtain ⟨hs', hlogs⟩ := hs.next hm ha
    rw [account_cons]
    refine ⟨hs', hcount.step hlogs hs.sound.valid hs.pools, fun hp => ?_⟩
    rw [List.reverse_append]
    exact (hchron (hlogs.step.opensOf_le.trans_lt hp)).step (logs_reverse hlogs) hs.sound.valid
      h.dismissed hs.pools hp

/-- Whatever a queue has left when it ended, its pool's opener had let go of on its way out. -/
theorem Run.postsLate {config : Config} (h : Run (alone config) ms s)
    (hms : ∀ m ∈ ms, m.isSolitary) :
    (∀ frames, Lone s frames → LastDrained frames → ∀ note ∈ s.world.pending 0,
      ∃ m ∈ ms, m.postsLate note.raw) ∧
    ∀ raw, isLeft raw s.history → ∃ m ∈ ms, m.postsLate raw := by
  induction h with
  | refl => exact ⟨fun _ _ _ note hn => by simp [alone, World.addPool, World.pending] at hn,
      fun raw hraw => by simp [alone, isLeft] at hraw⟩
  | @next ms s s' a h ha ih =>
    obtain ⟨hm, hms⟩ := List.forall_mem_cons.1 hms
    have hs := (h.chronicle hms).1
    obtain ⟨F, hl⟩ := hs.thread
    obtain ⟨hqueued, hleft⟩ := ih hms
    have later {raw : RawId} (hold : ∃ m ∈ ms, m.postsLate raw) :
        ∃ m ∈ (⟨s, a⟩ : Moment σ) :: ms, m.postsLate raw :=
      hold.imp fun m hm => ⟨List.mem_cons_of_mem _ hm.1, hm.2⟩
    refine ⟨fun F' hl' hlast note hn => ?_, fun raw hraw => ?_⟩
    · rcases hs.pending_next hm ha hl hl' hlast hn with ⟨hlast, hn⟩ | hlate
      · exact later (hqueued F hl hlast note hn)
      · exact ⟨_, List.mem_cons_self, hlate⟩
    · rcases hs.isLeft_next ha hl hraw with hold | ⟨hlast, note, hn, rfl⟩
      · exact later (hleft raw hold)
      · exact later (hqueued F hl hlast note hn)

/-- The log of a lone thread that works on one pool, whatever its openers and closes call, is a
faithful account. The numbers that it gives out count the successful opens from zero on, each as its
race is over; while there are as many numbers as opens, the log says of each entry what has become
of it. The one thing that it does not tell is a death that a queue has left when it ends, which is
that of a wrapper whose last reference the opener let go of on its way out. -/
theorem log_faithful {config : Config} (h : Run (alone config) ms s)
    (hms : ∀ m ∈ ms, m.isSolitary) :
    numbers (account ms) = (List.range (numbers (account ms)).length).map .ofNat ∧
    opensOf 0 s.history = (numbers (account ms)).length + s.frames.countP Frame.isUntold ∧
    (∀ F ∈ s.threads, isIdle F → opensOf 0 s.history = (numbers (account ms)).length) ∧
    (opensOf 0 s.history < 2 ^ 64 → FaithfulLog s (account ms)) ∧
    ∀ raw, isLeft raw s.history → ∃ m ∈ ms, m.postsLate raw := by
  obtain ⟨hs, hcount, hchron⟩ := h.chronicle hms
  have hv := hs.sound.valid
  have hopens : opensOf 0 s.history
      = (numbers (account ms)).length + s.frames.countP Frame.isUntold := by
    rw [← card_untold, ← Nat.add_assoc]
    exact (hv.opensOf_eq hs.pools).trans (congrArg (· + _) hcount.length_eq)
  refine ⟨hcount.numbers_eq, hopens, fun F hF hidle => ?_, fun hp => ?_, (h.postsLate hms).2⟩
  · obtain ⟨F', hl⟩ := hs.thread
    obtain rfl : F = F' := by simpa [hl.threads] using hF
    rw [hopens, frames_eq hl.threads, List.countP_eq_zero.2 fun f hf => ?_, Nat.add_zero]
    have hbase := hl.ordered.isBase_of_isIdle hidle f hf
    cases f <;> simp_all [Frame.isBase, Frame.isUntold]
  · exact .of_chronicle (hchron hp) hcount hv hs.pools hp

/-- An acquisition wins inside the opener of another. What it has acquired is let go of inside the
close of the other's raw handle, so that what the other opens next replaces it. The death is purged,
and its close fails. The opener holds `/b` until the pool is dropped, and then the last reference to
`/a` is let go of. -/
def succeeding : List (Act Unit) :=
  [.call 0 (.acquire 0 ⟨.ofString "/a"⟩), .turn 0, .turn 0, .call 0 (.acquire 0 ⟨.ofString "/a"⟩),
    .turn 0, .turn 0, .opened 0 (.ok ()), .turn 0, .turn 0, .opened 0 (.ok ()), .turn 0, .turn 0,
    .turn 0, .turn 0, .call 0 (.drop 0), .turn 0, .turn 0, .closed 0 none, .turn 0,
    .opened 0 (.ok ()), .turn 0, .turn 0, .call 0 (.purge 0), .turn 0, .turn 0, .turn 0,
    .closed 0 (some .busy), .turn 0, .call 0 (.acquire 0 ⟨.ofString "/b"⟩), .turn 0, .turn 0,
    .opened 0 (.ok ()), .turn 0, .turn 0, .call 0 (.dropPool 0), .turn 0, .turn 0, .call 0 (.drop 3),
    .turn 0, .turn 0, .retired 0, .turn 0, .turn 0, .turn 0, .closed 0 none, .turn 0,
    .call 0 (.drop 2), .turn 0, .turn 0, .turn 0, .closed 0 none]

theorem isSome_run_succeeding : ((alone {} : System Unit).run? succeeding).isSome := by
  decide +kernel

/-- Everything is over. -/
def succeeded : System Unit := ((alone {} : System Unit).run? succeeding).get isSome_run_succeeding

theorem log_faithful_succeeded :
    Run (alone {}) ((alone {} : System Unit).moments succeeding) succeeded ∧
    account ((alone {} : System Unit).moments succeeding) =
      [.published ⟨.ofString "/a"⟩ 0 none, .lostRace ⟨.ofString "/a"⟩ 1,
        .published ⟨.ofString "/a"⟩ 2 (some 0), .drained ⟨.ofString "/a"⟩ 0 false,
        .closeFailed ⟨.ofString "/a"⟩ 0 .busy, .published ⟨.ofString "/b"⟩ 3 none,
        .released ⟨.ofString "/b"⟩ 3, .releasedInline ⟨.ofString "/a"⟩ 2,
        .released ⟨.ofString "/a"⟩ 2] ∧
    opensOf 0 succeeded.history = 4 ∧
    FaithfulLog succeeded (account ((alone {} : System Unit).moments succeeding)) ∧
    isLeft 3 succeeded.history ∧
    ∃ m ∈ (alone {} : System Unit).moments succeeding, m.postsLate 3 := by
  have hrun : Run (alone {}) ((alone {} : System Unit).moments succeeding) succeeded :=
    run_moments (Option.some_get _).symm
  have hleft : isLeft 3 succeeded.history := by decide +kernel
  obtain ⟨-, -, -, hlog, hlate⟩ := log_faithful hrun (by decide +kernel)
  exact ⟨hrun, by decide +kernel, by decide +kernel, hlog (by decide +kernel), hleft, hlate 3 hleft⟩

/-- The opener of a pool holds what it has opened. It lets go of it on its way out, when the pool
has drained for the last time and its queue is still there. -/
def withholding : List (Act Unit) :=
  [.call 0 (.acquire 0 ⟨.ofString "/a"⟩), .turn 0, .turn 0, .opened 0 (.ok ()), .turn 0, .turn 0,
    .call 0 (.dropPool 0), .turn 0, .turn 0, .call 0 (.drop 0), .turn 0, .turn 0, .retired 0,
    .turn 0, .turn 0, .turn 0, .closed 0 none, .turn 0]

theorem isSome_run_withholding : ((alone {} : System Unit).run? withholding).isSome := by
  decide +kernel

def withheld : System Unit := ((alone {} : System Unit).run? withholding).get isSome_run_withholding

/-- What was published is closed, and no death was drained or released inline before. -/
theorem withheld_without_departure :
    Run (alone {}) ((alone {} : System Unit).moments withholding) withheld ∧
    (∀ m ∈ (alone {} : System Unit).moments withholding, m.isSolitary) ∧
    opensOf 0 withheld.history = 1 ∧ (withheld.world.wrappers[0]?.map Wrapper.entry) = some 0 ∧
    .wrapped 0 0 0 ∈ withheld.history ∧ .published 0 ∈ withheld.history ∧
    .closed 0 ∈ withheld.history ∧
    account ((alone {} : System Unit).moments withholding) =
      [.published ⟨.ofString "/a"⟩ 0 none, .released ⟨.ofString "/a"⟩ 0] ∧
    ¬ ∃ earlier ev later,
      account ((alone {} : System Unit).moments withholding) = earlier ++ ev :: later ∧
      ev.isRelease ∧ ev.entry? = some 0 ∧ tally LogEvent.isDeparture 0 earlier = 1 := by
  have hnone : tally LogEvent.isDeparture 0
      (account ((alone {} : System Unit).moments withholding)) = 0 := by decide +kernel
  refine ⟨run_moments (Option.some_get _).symm, by decide +kernel, by decide +kernel,
    by decide +kernel, by decide +kernel, by decide +kernel, by decide +kernel,
    by decide +kernel, ?_⟩
  rintro ⟨earlier, ev, later, hlog, -, -, hone⟩
  rw [hlog, tally_append, hone] at hnone
  omega

end System

end ReadPool
