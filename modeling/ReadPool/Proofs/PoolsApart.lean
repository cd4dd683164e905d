import Mathlib
import ReadPool.Proofs.Routing
import ReadPool.Proofs.Sides

/-!
# Pools apart

A lone thread uses any number of pools, one call after the other. Identities and entries are the
same in all of them, and handles outlive their pools. Still no pool notices another: what belongs to
one pool, taken out of the run and numbered anew, is a run of that pool alone, with the same answers,
the same log and the same history (`pools_apart`).

`Serial.projects` says it of one act, and `Part.run` of a whole run.
-/

namespace ReadPool

variable {part : Part} {w : World σ} {b : Bool} {p : PoolId} {F : List Frame} {turn : Turn σ}

/-! ## What belongs to a pool in a run -/

namespace Moment

/-- The answer to an open of the pool depends on nothing but what the pool has asked for so far. -/
def Heeds (opener : List Identity → Except IoError σ) (p : PoolId) (m : Moment σ) : Prop :=
  ∀ t result X observed rest, m.act = .opened t result →
    m.frames = .opening p X observed :: rest → result = opener (asks p m.system.history)

end Moment

namespace Part

def hasCall (part : Part) : Call → Bool
  | .acquire p _ => part.hasPool p
  | .purge p => part.hasPool p
  | .drop h => part.wrappers h
  | .dropPool p => part.hasPool p
  | .post home _ => part.hasPool home
  | .release note => part.raws note.raw
  | .disconnect p => part.hasPool p

/-- After an act, the thread is busy for the part or for something else. -/
def busyAfter (part : Part) (busy : Bool) : Act σ → Bool
  | .call _ c => part.hasCall c
  | _ => busy

def busy (part : Part) : List (Moment σ) → Bool
  | [] => false
  | m :: ms => part.busyAfter (part.busy ms) m.act

/-- The act is one of the pool's: a call of the pool or of a handle that the pool has made, with all
that the thread does for it. -/
def hasAct (part : Part) (busy : Bool) (m : Moment σ) : Bool :=
  match m.act with
  | .spawn => false
  | .newPool _ => m.system.world.pools.length = part.pool
  | .call _ c => part.hasCall c
  | .clone h => part.wrappers h
  | .closeReference h => part.wrappers h
  | .read h _ => part.wrappers h
  | _ => busy

/-- What the part shows of a moment. -/
def moment (part : Part) (busy : Bool) (m : Moment σ) : Moment σ :=
  ⟨part.system busy m.system, part.act m.act⟩

/-- The moments that are the part's, last first, as it shows them. -/
def moments (part : Part) : List (Moment σ) → List (Moment σ)
  | [] => []
  | m :: ms =>
    if part.hasAct (part.busy ms) m then part.moment (part.busy ms) m :: part.moments ms
    else part.moments ms

/-! ## References -/

variable {k : WrapperId} {held : List WrapperId}

theorem mem_held (hk : part.wrappers k) : part.wrapper k ∈ part.held held ↔ k ∈ held := by
  unfold Part.held
  simp only [List.mem_map, List.mem_filter]
  constructor
  · rintro ⟨j, ⟨hj, hmine⟩, heq⟩
    exact rank_inj hmine hk heq ▸ hj
  · exact fun h => ⟨k, ⟨h, hk⟩, rfl⟩

theorem held_cons (hk : part.wrappers k) :
    part.held (k :: held) = part.wrapper k :: part.held held := by
  simp [Part.held, hk]

theorem held_cons_of_not (hk : part.wrappers k = false) :
    part.held (k :: held) = part.held held := by
  simp [Part.held, hk]

theorem held_erase (hk : part.wrappers k) :
    part.held (held.erase k) = (part.held held).erase (part.wrapper k) := by
  induction held with
  | nil => rfl
  | cons j held ih =>
    by_cases hj : part.wrappers j = true
    · rw [held_cons hj]
      by_cases hjk : j = k
      · rw [hjk, List.erase_cons_head, List.erase_cons_head]
      · -- Another wrapper of the part has another place, so the same reference is erased.
        have hne : part.wrapper j ≠ part.wrapper k := fun h => hjk (rank_inj hj hk h)
        rw [List.erase_cons_tail (by simpa using hjk), List.erase_cons_tail (by simpa using hne),
          held_cons hj, ih]
    · have hjk : j ≠ k := fun h => hj (h ▸ hk)
      rw [List.erase_cons_tail (by simpa using hjk), held_cons_of_not (by simpa using hj), ih,
        held_cons_of_not (by simpa using hj)]

theorem held_erase_of_not (hk : part.wrappers k = false) :
    part.held (held.erase k) = part.held held := by
  unfold Part.held
  rw [← List.erase_filter, List.erase_of_not_mem fun h => ?_]
  have := (List.mem_filter.1 h).2
  simp [hk] at this

theorem held_append {gained : List WrapperId} (hg : ∀ h ∈ gained, part.wrappers h = true) :
    part.held (gained ++ held) = gained.map part.wrapper ++ part.held held := by
  unfold Part.held
  rw [List.filter_append, List.filter_eq_self.2 hg, List.map_append]

theorem held_append_of_not {gained : List WrapperId}
    (hg : ∀ h ∈ gained, part.wrappers h = false) : part.held (gained ++ held) = part.held held := by
  unfold Part.held
  rw [List.filter_append, List.filter_eq_nil_iff.2 fun h hh => by simp [hg h hh], List.nil_append]

/-! ## What the part shows of an act -/

variable {s s' : System σ} {a : Act σ} {t : ThreadId} {c : Call} {frames : List Frame}

theorem system_take_own (ht : s.threads = [F]) {shown : Option (Turn σ)}
    (hshows : part.Shows s.world F turn shown)
    (hg : ∀ h ∈ turn.gained, part.wrappers h = true) : part.system true (s.take 0 F turn)
      = (part.system true s).take 0 (F.map part.frame) (part.turn turn) := by
  simp only [system, System.take, ht, held_append hg, gained_turn, List.filterMap_append,
    hshows.events_eq, List.set_cons_zero, List.map_cons, List.map_nil, if_true]
  rfl

theorem system_take_foreign (ht : s.threads = [F]) (hhides : part.Hides s.world F turn)
    (hg : ∀ h ∈ turn.gained, part.wrappers h = false) :
    part.system false (s.take 0 F turn) = part.system false s := by
  simp [system, System.take, ht, held_append_of_not hg, hhides.events_eq, hhides.world_eq]

theorem isOpen_system (hF : s.threads = [[]]) (hp : part.hasPool p) :
    (part.system b s).isOpen 0 = s.isOpen p := by
  obtain rfl := hasPool_iff.1 hp
  have hqueue : ((part.system b s).world.pools[0]?.bind Pool.queue).isSome
      = (s.world.pools[part.pool]?.bind Pool.queue).isSome :=
    (congrArg Option.isSome queue_world).trans Option.isSome_map
  unfold System.isOpen
  rw [hqueue]
  simp [System.frames, system, hF]

theorem admits_system (hF : s.threads = [[]]) (hc : part.hasCall c) :
    (part.system b s).admits (part.call c) = s.admits c := by
  cases c with
  | acquire p X => exact isOpen_system hF hc
  | purge p => exact isOpen_system hF hc
  | drop k =>
    have hmem : part.wrapper k ∈ part.held s.held ↔ k ∈ s.held := mem_held hc
    simp [System.admits, call, system, hmem]
  | dropPool p =>
    have hframes : (part.system b s).frames = [] := by simp [System.frames, system, hF]
    have hframes' : s.frames = [] := by simp [System.frames, hF]
    simp [System.admits, call, isOpen_system hF hc, hframes, hframes']
  | _ => rfl

theorem frames_call (hc : part.hasCall c) : (part.call c).frames = c.frames.map part.frame := by
  cases c <;> rfl

theorem held_call (hc : part.hasCall c) : part.held (System.afterCall s.held c)
    = System.afterCall (part.held s.held) (part.call c) := by
  cases c with
  | drop k => exact held_erase hc
  | _ => rfl

theorem held_call_of_not (hc : part.hasCall c = false) :
    part.held (System.afterCall s.held c) = part.held s.held := by
  cases c with
  | drop k => exact held_erase_of_not hc
  | _ => rfl

end Part

/-! ## Runs -/

namespace Part

variable {s s' : System σ} {a : Act σ} {t : ThreadId} {c : Call} {k : WrapperId}

/-- A lone thread, with all it has left to do on one side. -/
structure Serial (part : Part) (b : Bool) (s : System σ) : Prop where
  sound : System.Sound s
  frames : ∃ F, s.threads = [F] ∧ ∀ f ∈ F, part.Side b f

/-- An act keeps the thread on one side. What the part shows of it is an act, if it is the part's, and
nothing otherwise. -/
structure Projects (part : Part) (b : Bool) (s : System σ) (a : Act σ) (s' : System σ) : Prop where
  frames : ∃ F, s'.threads = [F] ∧ ∀ f ∈ F, part.Side (part.busyAfter b a) f
  own : part.hasAct b ⟨s, a⟩ = true →
    (part.system b s).next? (part.act a) = some (part.system (part.busyAfter b a) s') ∧
    (part.moment b ⟨s, a⟩).turn? = (⟨s, a⟩ : Moment σ).turn?.map part.turn
  foreign : part.hasAct b ⟨s, a⟩ = false → part.system (part.busyAfter b a) s' = part.system b s

theorem side_call (hadm : s.admits c) : ∀ f ∈ c.frames, part.Side (part.hasCall c) f := by
  cases c with
  | acquire p X => exact List.forall_mem_cons.2 ⟨rfl, List.forall_mem_singleton.2 rfl⟩
  | purge p => exact List.forall_mem_singleton.2 rfl
  | drop k => exact List.forall_mem_singleton.2 rfl
  | dropPool p =>
    exact List.forall_mem_cons.2 ⟨rfl, List.forall_mem_cons.2 ⟨rfl, List.forall_mem_singleton.2 rfl⟩⟩
  | _ => cases hadm

theorem thread?_act (part : Part) (a : Act σ) : (part.act a).thread? = a.thread? := by
  cases a <;> rfl

theorem frames_moment (part : Part) (m : Moment σ) :
    (part.moment true m).frames = m.frames.map part.frame := by
  unfold Moment.frames moment
  rw [thread?_act]
  cases m.act.thread? with
  | none => rfl
  | some t =>
    simp only [system, Option.bind_some, List.getElem?_map]
    cases m.system.threads[t]? <;> rfl

/-- What the thread does next shows just if it is busy for the part. -/
theorem Serial.projects_turn (hi : part.Serial b s) (hthread : a.thread? = some t)
    (ha : s.next? a = some s') (hfit : part.Fits s'.history) : part.Projects b s a s' := by
  obtain ⟨F, hF, hside⟩ := hi.frames
  obtain ⟨frames, turn, ht, hturn, rfl, hm, hmt⟩ := System.exists_turn hthread ha
  obtain ⟨rfl, rfl⟩ := System.eq_of_getElem? hF ht
  have hold : part.Fits s.scene.history := hfit.mono (List.subset_append_right _ _)
  have hevents : part.Fits (turn.events s.world frames) :=
    hfit.mono (List.subset_append_left _ _)
  have hsplit : part.Splits s.world := hold.splits hi.sound.valid
  have hyields := Act.yields_turn hturn
  have hsided : part.Sided b turn := .of_yields hsplit hside hyields hevents
  have hbusy : part.busyAfter b a = b := by cases a <;> cases hthread <;> rfl
  have hhas : part.hasAct b ⟨s, a⟩ = b := by cases a <;> cases hthread <;> rfl
  have hact : part.act a = a := by cases a <;> cases hthread <;> rfl
  -- An act of a busy thread is the part's just if the thread is busy for the part.
  refine ⟨⟨turn.frames, by simp [System.take, hF], by rw [hbusy]; exact hsided.frames⟩,
    fun hown => ?_, fun hforeign => ?_⟩
  · obtain rfl : b = true := hhas.symm.trans hown
    have hshows := act_own hsplit hside hturn hevents
    have hthreads : (part.system true s).threads = [frames.map part.frame] := by
      simp [system, hF]
    have hframes : (part.moment true ⟨s, a⟩).frames = frames.map part.frame :=
      (part.frames_moment _).trans (congrArg _ hm)
    refine ⟨?_, ?_⟩
    · rw [hact, hbusy, System.next?_of_thread hthread, hthreads, system_take_own hF hshows
        hsided.gained]
      exact congrArg (Option.map _) hshows.shown_eq
    · rw [Moment.turn?, hframes, hmt]
      have hshown : (part.act a).turn? (part.world s.world) (frames.map part.frame)
          = some (part.turn turn) := hact.symm ▸ hshows.shown_eq
      exact hshown
  · obtain rfl : b = false := hhas.symm.trans hforeign
    rw [hbusy]
    exact system_take_foreign hF (act_foreign hsplit hside hyields hevents) hsided.gained

/-- Where a call begins, the thread has nothing to do for either side. -/
theorem Serial.projects_call (hi : part.Serial b s) (hm : (⟨s, .call t c⟩ : Moment σ).isSerial)
    (ha : s.next? (.call t c) = some s') : part.Projects b s (.call t c) s' := by
  obtain ⟨F, hF, -⟩ := hi.frames
  obtain rfl : F = [] := by simpa [Moment.isSerial, System.frames_eq hF] using hm
  obtain ⟨frames, ht, ha⟩ := Option.bind_eq_some_iff.1 ha
  obtain ⟨rfl, rfl⟩ := System.eq_of_getElem? hF ht
  have hthreads (b : Bool) : (part.system b s).threads = [[]] := by cases b <;> simp [system, hF]
  split at ha
  · next hc =>
    have hadm : s.admits c := (Bool.and_eq_true_iff.1 hc).2
    cases ha
    refine ⟨⟨c.frames, by simp [hF], side_call hadm⟩, fun hown => ⟨?_, rfl⟩, fun hforeign => ?_⟩
    · have hown : part.hasCall c = true := hown
      have hidle : isIdle [] = true := rfl
      simp only [act, System.next?, hthreads, List.getElem?_cons_zero, Option.bind_some, hidle,
        admits_system hF hown, hadm, Bool.and_self, if_true, busyAfter, hown, frames_call hown]
      simp [system, hF, held_call hown]
    · have hforeign : part.hasCall c = false := hforeign
      simp only [busyAfter, hforeign]
      cases b <;> simp [system, hF, held_call_of_not hforeign]
  · cases ha

theorem Serial.projects_newPool (hi : part.Serial b s) {config : Config}
    (ha : s.next? (.newPool config) = some s') : part.Projects b s (.newPool config) s' := by
  simp only [System.next?, World.newPool] at ha
  split at ha
  · cases ha
  · next hconfig =>
    cases ha
    refine ⟨hi.frames, fun hown => ⟨?_, rfl⟩, fun hforeign => ?_⟩
    · have hlen : s.world.pools.length = part.pool := by simpa [hasAct] using hown
      simp only [act, System.next?, World.newPool, hconfig]
      exact congrArg (fun w => some { part.system b s with world := w })
        (world_addPool hlen config).symm
    · have hlen : s.world.pools.length ≠ part.pool := by simpa [hasAct] using hforeign
      exact congrArg (fun w => { part.system b s with world := w })
        (world_addPool_of_ne hlen config)

theorem contains_held (hk : part.wrappers k) :
    (part.system b s).held.contains (part.wrapper k) = s.held.contains k := by
  rw [Bool.eq_iff_iff, List.contains_iff_mem, List.contains_iff_mem]
  exact mem_held hk

theorem Serial.projects_clone (hi : part.Serial b s) (ha : s.next? (.clone k) = some s') :
    part.Projects b s (.clone k) s' := by
  simp only [System.next?] at ha
  split at ha
  · next hheld =>
    cases ha
    refine ⟨hi.frames, fun hown => ⟨?_, rfl⟩, fun hforeign => ?_⟩
    · have hown : part.wrappers k = true := hown
      simp only [act, System.next?, contains_held hown, hheld, if_true, busyAfter]
      simp [system, held_cons hown, world_retain hown]
    · have hforeign : part.wrappers k = false := hforeign
      simp only [busyAfter, system, held_cons_of_not hforeign]
      exact congrArg (fun w => { part.system b s with world := w })
        (world_updateWrapper_of_not hforeign _)
  · cases ha

theorem Serial.projects_closeReference (hi : part.Serial b s)
    (ha : s.next? (.closeReference k) = some s') : part.Projects b s (.closeReference k) s' := by
  simp only [System.next?] at ha
  split at ha
  · next hheld =>
    cases ha
    refine ⟨hi.frames, fun hown => ⟨?_, rfl⟩, fun hforeign => rfl⟩
    have hown : part.wrappers k = true := hown
    simp only [act, System.next?, contains_held hown, hheld, if_true]
    rfl
  · cases ha

/-- The stream of a wrapper is the part's if the wrapper is. -/
theorem Serial.projects_read (hi : part.Serial b s) {f : σ → σ}
    (ha : s.next? (.read k f) = some s') (hsplit : part.Splits s.world) :
    part.Projects b s (.read k f) s' := by
  simp only [System.next?] at ha
  split at ha
  · next hheld =>
    obtain ⟨⟨_, world⟩, hread, rfl⟩ := Option.map_eq_some_iff.1 ha
    obtain ⟨raw, hstream, hread⟩ := Option.bind_eq_some_iff.1 hread
    obtain ⟨x, hx, hraw⟩ := Option.bind_eq_some_iff.1 hstream
    obtain ⟨r, hr, hread⟩ := Option.map_eq_some_iff.1 hread
    cases hread
    have hside : part.raws raw = part.wrappers k :=
      (hsplit.streams k x raw hx hraw).trans (hsplit.wrappers k x hx).symm
    refine ⟨hi.frames, fun hown => ⟨?_, rfl⟩, fun hforeign => ?_⟩
    · have hown : part.wrappers k = true := hown
      have hmine : part.raws raw = true := hside.trans hown
      have hworld : (part.world s.world).readThrough (part.wrapper k) (fun state => ((), f state))
          = some ((), part.world
              (s.world.updateRaw raw fun raw => { raw with state := f raw.state })) := by
        unfold World.readThrough
        rw [getElem?_wrappers hown, hx, world_updateRaw hmine]
        simp [wrapperOf, hraw, getElem?_raws hmine, hr]
      simp only [act, System.next?, contains_held hown, hheld, if_true]
      exact congrArg (Option.map _) hworld
    · have hmine : part.raws raw = false := hside.trans hforeign
      exact congrArg (fun w => { part.system b s with world := w })
        (world_updateRaw_of_not hmine _)
  · cases ha

theorem Serial.projects (hi : part.Serial b s) (hm : (⟨s, a⟩ : Moment σ).isSerial)
    (ha : s.next? a = some s') (hfit : part.Fits s'.history) : part.Projects b s a s' := by
  cases hthread : a.thread? with
  | some t => exact hi.projects_turn hthread ha hfit
  | none =>
    cases a with
    | spawn => cases hm
    | newPool config => exact hi.projects_newPool ha
    | call t c => exact hi.projects_call hm ha
    | clone k => exact hi.projects_clone ha
    | closeReference k => exact hi.projects_closeReference ha
    | read k f =>
      have hhistory : s'.history = s.history := (System.exists_call hthread ha).1
      have hold : part.Fits s.scene.history := by
        rw [hhistory] at hfit
        exact hfit
      exact hi.projects_read ha (hold.splits hi.sound.valid)
    | _ => cases hthread

end Part

namespace Part

variable {ms : List (Moment σ)} {s : System σ}

theorem serial_lone (part : Part) : part.Serial false (System.lone : System σ) :=
  ⟨System.reachable_lone.sound, [], rfl, fun _ h => (List.not_mem_nil h).elim⟩

/-- What the part shows of a run is a run. -/
theorem run (h : System.Run System.lone ms s) (hm : ∀ m ∈ ms, m.isSerial)
    (hfit : part.Fits s.history) : part.Serial (part.busy ms) s ∧
      System.Run System.lone (part.moments ms) (part.system (part.busy ms) s) := by
  induction h with
  | refl =>
    refine ⟨part.serial_lone, ?_⟩
    have hstart : part.system false (System.lone : System σ) = System.lone := rfl
    exact hstart ▸ .refl
  | @next ms s s' a h ha ih =>
    have hold : part.Fits s.history :=
      hfit.mono (System.history_next ha ▸ List.subset_append_right _ _)
    obtain ⟨hserial, hrun⟩ := ih (fun m hmem => hm m (List.mem_cons_of_mem _ hmem)) hold
    have hprojects := hserial.projects (hm _ List.mem_cons_self) ha hfit
    refine ⟨⟨hserial.sound.next ha, hprojects.frames⟩, ?_⟩
    unfold moments
    cases hhas : part.hasAct (part.busy ms) ⟨s, a⟩ with
    | true =>
      rw [if_pos rfl]
      exact hrun.next (hprojects.own hhas).1
    | false =>
      rw [if_neg Bool.false_ne_true]
      exact (hprojects.foreign hhas).symm ▸ hrun

/-- One moment of a run. -/
theorem exists_moment (h : System.Run System.lone ms s) (hm : ∀ m ∈ ms, m.isSerial)
    (hfit : part.Fits s.history) {later earlier : List (Moment σ)} {m : Moment σ}
    (hms : ms = later ++ m :: earlier) : part.Serial (part.busy earlier) m.system ∧
      ∃ s', part.Projects (part.busy earlier) m.system m.act s' := by
  subst hms
  obtain ⟨s₁, hearlier, hlater⟩ := System.run_append_iff.1 h
  cases hearlier with
  | next hearlier ha =>
    have hfit₁ := hfit.mono hlater.history_subset
    have hold := hfit₁.mono (System.history_next ha ▸ List.subset_append_right _ _)
    have hserial := (run hearlier (fun m hmem => hm m (by simp [hmem])) hold).1
    exact ⟨hserial, _, hserial.projects (hm _ (by simp)) ha hfit₁⟩

/-- The pool alone answers and logs just as it does among the others. -/
theorem answer?_moment (h : System.Run System.lone ms s) (hm : ∀ m ∈ ms, m.isSerial)
    (hfit : part.Fits s.history) {later earlier : List (Moment σ)} {m : Moment σ}
    (hms : ms = later ++ m :: earlier) (hhas : part.hasAct (part.busy earlier) m) :
    (part.moment (part.busy earlier) m).answer? = m.answer?.map part.answer ∧
      (part.moment (part.busy earlier) m).log = m.log := by
  obtain ⟨-, s', hprojects⟩ := exists_moment h hm hfit hms
  have hturn := (hprojects.own hhas).2
  refine ⟨?_, ?_⟩
  · unfold Moment.answer?
    rw [hturn]
    cases m.turn? <;> rfl
  · unfold Moment.log
    rw [hturn]
    cases m.turn? <;> rfl

/-! ## Openers -/

theorem asks_event? (part : Part) (events : List Event) :
    asks 0 (events.filterMap part.event?) = asks part.pool events := by
  unfold asks
  rw [List.filterMap_filterMap]
  congr 1
  funext ev
  cases ev with
  | asked q X =>
    by_cases hq : q = part.pool <;> simp [event?, hasPool, hq]
  | _ =>
    simp only [event?]
    split <;> rfl

theorem mem_moments {m' : Moment σ} (h : m' ∈ part.moments ms) :
    ∃ later m earlier, ms = later ++ m :: earlier ∧ part.hasAct (part.busy earlier) m ∧
      m' = part.moment (part.busy earlier) m := by
  induction ms with
  | nil => cases h
  | cons m ms ih =>
    have htail (h : m' ∈ part.moments ms) : ∃ later m₁ earlier, m :: ms = later ++ m₁ :: earlier ∧
        part.hasAct (part.busy earlier) m₁ ∧ m' = part.moment (part.busy earlier) m₁ := by
      obtain ⟨later, m₁, earlier, rfl, hhas, rfl⟩ := ih h
      exact ⟨m :: later, m₁, earlier, rfl, hhas, rfl⟩
    unfold moments at h
    split at h
    · next hhas =>
      rcases List.mem_cons.1 h with rfl | h
      · exact ⟨[], m, ms, rfl, hhas, rfl⟩
      · exact htail h
    · exact htail h

/-- The opener of the pool alone has the same to go by. -/
theorem heeds_moment (h : System.Run System.lone ms s) (hm : ∀ m ∈ ms, m.isSerial)
    (hfit : part.Fits s.history) {opener : List Identity → Except IoError σ}
    (hopener : ∀ m ∈ ms, m.Heeds opener part.pool) :
    ∀ m' ∈ part.moments ms, m'.Heeds opener 0 := by
  intro m' hm'
  obtain ⟨later, m, earlier, hms, hhas, rfl⟩ := mem_moments hm'
  obtain ⟨hserial, -⟩ := exists_moment h hm hfit hms
  obtain ⟨F, hF, hside⟩ := hserial.frames
  intro t result X observed rest hact hframes
  have hopened : m.act = .opened t result := by
    obtain ⟨s₁, a⟩ := m
    cases a with
    | opened t' result' => exact hact
    | _ => cases hact
  have hbusy : part.busy earlier = true := by
    simpa [hasAct, hopened] using hhas
  -- The frame at the top is what the part shows of one that works for the pool.
  rw [hbusy] at hside hframes
  rw [frames_moment] at hframes
  obtain ⟨f, F', hm', hf, -⟩ := List.map_eq_cons_iff.1 hframes
  have hmem : f ∈ F := by
    have hsome : m.system.threads[t]? = some (f :: F') := by
      simp only [Moment.frames, hopened, Act.thread?, Option.bind_some] at hm'
      cases hthread : m.system.threads[t]? with
      | none => simp [hthread] at hm'
      | some frames => simpa [hthread] using hm'
    rw [← (System.eq_of_getElem? hF hsome).2]
    exact List.mem_cons_self
  cases f with
  | opening q Y observed' =>
    obtain ⟨rfl, rfl⟩ : Y = X ∧ observed' = observed := by simpa [frame] using hf
    obtain rfl : q = part.pool := hasPool_iff.1 (hside _ hmem)
    have hresult := hopener m (by simp [hms]) t result Y observed' F' hopened hm'
    rw [hresult]
    exact congrArg opener (part.asks_event? m.system.history).symm
  | _ => cases hf

/-- The pool alone has the same slots, as much to receive, and the same entry to give next. -/
theorem exists_pool_system {pool : Pool} (hp : s.world.pools[part.pool]? = some pool) (busy : Bool) :
    ∃ pool', (part.system busy s).world.pools[0]? = some pool' ∧ pool'.next = pool.next ∧
      pool'.pending = pool.pending ∧ ∀ X, pool'.slots.find? X
        = (pool.slots.find? X).map fun slot => { slot with wrapper := part.wrapper slot.wrapper } := by
  refine ⟨part.poolOf pool, ?_, rfl, ?_, fun X => Slots.find?_relabel _ _ X⟩
  · exact getElem?_pools.trans (by rw [hp]; rfl)
  · unfold Pool.pending poolOf
    cases pool.queue <;> simp

end Part

namespace System

variable {ms : List (Moment σ)} {s : System σ}

/-- Pools do not notice each other. The death of a wrapper is posted to the pool that has made it, and
is released inline just if that pool has been dropped. What belongs to a pool, taken out of a run with
any number of them, is a run of the pool alone: its acts are answered and logged in the same way, it
has the same slots, deaths and entries, and the same happens to its raw handles in the same order. If
the pool's opener goes by nothing but what this pool has asked for, it does so in that run, too. -/
theorem pools_apart (h : Run lone ms s) (hm : ∀ m ∈ ms, m.isSerial) (p : PoolId) :
    (∀ later m earlier, ms = later ++ m :: earlier → m.Routes earlier) ∧
    ∃ part : Part, part = Part.of p s.history ∧
      Run lone (part.moments ms) (part.system (part.busy ms) s) ∧
      (∀ later m earlier, ms = later ++ m :: earlier → part.hasAct (part.busy earlier) m →
        (part.moment (part.busy earlier) m).answer? = m.answer?.map part.answer ∧
        (part.moment (part.busy earlier) m).log = m.log) ∧
      (∀ pool, s.world.pools[p]? = some pool →
        ∃ pool', (part.system (part.busy ms) s).world.pools[0]? = some pool' ∧
          pool'.next = pool.next ∧ pool'.pending = pool.pending ∧ ∀ X, pool'.slots.find? X
            = (pool.slots.find? X).map
                fun slot => { slot with wrapper := part.wrapper slot.wrapper }) ∧
      ∀ opener, (∀ m ∈ ms, m.Heeds opener p) → ∀ m ∈ part.moments ms, m.Heeds opener 0 := by
  have hfit : (Part.of p s.history).Fits s.history :=
    Part.fits_of (h.sound reachable_lone.sound).valid.owned p
  refine ⟨fun later m earlier hms => ?_, _, rfl, (Part.run h hm hfit).2,
    fun later m earlier hms hhas => Part.answer?_moment h hm hfit hms hhas,
    fun pool hpool => Part.exists_pool_system hpool _,
    fun opener hopener => Part.heeds_moment h hm hfit hopener⟩
  subst hms
  obtain ⟨s₁, hearlier, -⟩ := run_append_iff.1 h
  cases hearlier with
  | next hearlier ha => exact (hearlier.standing fun m hmem => hm m (by simp [hmem])).routes

/-- Two pools have the same file open. One is dropped, and its handle lives on for a while. -/
def outliving : List (Act Unit) :=
  [.newPool {}, .newPool {}, .call 0 (.acquire 0 ⟨.ofString "/a"⟩), .turn 0, .turn 0,
    .opened 0 (.ok ()), .turn 0, .turn 0, .call 0 (.acquire 1 ⟨.ofString "/a"⟩), .turn 0, .turn 0,
    .opened 0 (.ok ()), .turn 0, .turn 0, .call 0 (.dropPool 1), .turn 0, .turn 0, .retired 0,
    .turn 0, .turn 0, .call 0 (.drop 0), .turn 0, .turn 0, .call 0 (.drop 1), .turn 0, .turn 0,
    .turn 0, .closed 0 none, .call 0 (.purge 0), .turn 0, .turn 0, .turn 0, .closed 0 (some .busy),
    .turn 0]

theorem isSome_run_outliving : ((lone : System Unit).run? outliving).isSome := by decide +kernel

/-- Both raw handles are closed, the second one inline. -/
def outlived : System Unit := ((lone : System Unit).run? outliving).get isSome_run_outliving

theorem pools_apart_outlived : ∃ ms, Run lone ms outlived ∧ (∀ m ∈ ms, m.isSerial) ∧
    (∀ later m earlier, ms = later ++ m :: earlier → m.Routes earlier) ∧
    isDropped 1 ms ∧ ¬ isDropped 0 ms ∧ .closed 0 ∈ outlived.history ∧ .closed 1 ∈ outlived.history ∧
    ∃ part : Part, part = Part.of 1 outlived.history ∧
      Run lone (part.moments ms) (part.system (part.busy ms) outlived) ∧
      (part.moments ms).length = 18 := by
  have hrun : Run lone ((lone : System Unit).moments outliving) outlived :=
    run_moments (Option.some_get _).symm
  have hserial : ∀ m ∈ (lone : System Unit).moments outliving, m.isSerial := by decide +kernel
  obtain ⟨hroutes, part, rfl, hpart, -⟩ := pools_apart hrun hserial 1
  exact ⟨_, hrun, hserial, hroutes, by decide +kernel, by decide +kernel, by decide +kernel,
    by decide +kernel, _, rfl, hpart, by decide +kernel⟩

end System

end ReadPool
