import Mathlib
import ReadPool.Stream
import ReadPool.Proofs.Moments
import ReadPool.Proofs.Release

/-!
# Reading

Callers read while all else goes on. A wrapper has one raw handle, and all its references read that;
so what they get, taken in the order of the reads, is what the raw handle alone gives to reads of the
same lengths from the state that it was opened in (`reads_pass_through`). Nothing but a read moves
the position, and a read moves nothing else.

`Faithful` is the invariant: each raw handle stands where the reads of its wrapper have brought it.
Only a read or an open makes or changes a state (`states_next`), and a raw handle that is being
wrapped has not been in a wrapper before (`Owned.not_wrapped`).
-/

namespace ReadPool

namespace Reader

/-- What a raw handle that is opened in `state` gives to reads of these lengths. -/
def replay (rd : Reader σ) (state : σ) : List Nat → List (Except IoError (List UInt8))
  | [] => []
  | n :: lengths => (rd n state).1 :: replay rd (rd n state).2 lengths

/-- The state that the reads leave it in. -/
def after (rd : Reader σ) (state : σ) (lengths : List Nat) : σ :=
  lengths.foldl (fun state n => (rd n state).2) state

theorem after_append (rd : Reader σ) (state : σ) (lengths : List Nat) (n : Nat) :
    rd.after state (lengths ++ [n]) = (rd n (rd.after state lengths)).2 := by
  unfold after
  rw [List.foldl_append, List.foldl_cons, List.foldl_nil]

theorem replay_append (rd : Reader σ) (state : σ) (lengths : List Nat) (n : Nat) :
    rd.replay state (lengths ++ [n])
      = rd.replay state lengths ++ [(rd n (rd.after state lengths)).1] := by
  induction lengths generalizing state with
  | nil => rfl
  | cons m lengths ih => exact congrArg ((rd m state).1 :: ·) (ih (rd m state).2)

end Reader

/-- How a caller comes to read a handle: by the handle's own function, as a stream, or as a stream by
a borrowed handle. -/
inductive Access where
  | direct
  | owned
  | borrowed

/-- A read that a caller has made, with what it gave. -/
structure Reading where
  wrapper : WrapperId
  length : Nat
  result : Except IoError (List UInt8)

namespace Reading

def lengths (k : WrapperId) (readings : List Reading) : List Nat :=
  (readings.filter fun r => r.wrapper = k).map length

def results (k : WrapperId) (readings : List Reading) : List (Except IoError (List UInt8)) :=
  (readings.filter fun r => r.wrapper = k).map result

end Reading

namespace World

/-- One read of a handle, with its stream locked. -/
def read (rd : Reader σ) (w : World σ) (h : WrapperId) (n : Nat) :
    Option (Except IoError (List UInt8) × World σ) := w.readThrough h (rd n)

def readBy (rd : Reader σ) (w : World σ) (h : WrapperId) (n : Nat) :
    Access → Option (Except IoError (List UInt8) × World σ)
  | .direct => w.read rd h n
  | .owned => w.read rd h n
  | .borrowed => w.read rd h n

/-- The state of a raw handle. -/
def state? (w : World σ) (raw : RawId) : Option σ := (w.raws.map RawHandle.state)[raw]?

/-- The raw handle that is read through a wrapper. -/
def stream? (w : World σ) (h : WrapperId) : Option (RawHandle σ) :=
  (w.wrappers[h]?.bind Wrapper.stream).bind fun raw => w.raws[raw]?

end World

namespace Act

def isRead : Act σ → Bool
  | .read .. => true
  | _ => false

/-- The state in which the act opens a raw handle. -/
def opening? : Act σ → Option σ
  | .opened _ (.ok state) => some state
  | _ => none

end Act

/-- What can happen, with each read that is made. -/
inductive Deed (σ : Type u) where
  | act (a : Act σ)
  | read (h : WrapperId) (n : Nat) (access : Access)
  /-- A caller gives a reference up for the raw handle in vain, since there are others. -/
  | intoRaw (t : ThreadId) (h : WrapperId)

/-- The states in which the raw handles are opened, in their order. -/
def openings (deeds : List (Deed σ)) : List σ :=
  deeds.filterMap fun
    | .act a => a.opening?
    | _ => none

namespace System

def nextDeed? (rd : Reader σ) (s : System σ) : Deed σ → Option (List Reading × System σ)
  | .act a => if a.isRead then none else (s.next? a).map fun s => ([], s)
  | .read h n access =>
    if s.held.contains h then
      (s.world.readBy rd h n access).map fun (result, world) =>
        ([⟨h, n, result⟩], { s with world })
    else none
  | .intoRaw t h =>
    if (s.world.intoRaw? h).isNone then (s.next? (.call t (.drop h))).map fun s => ([], s)
    else none

/-- A run with all that was read in it, first things first. -/
def runDeeds? (rd : Reader σ) (s : System σ) : List (Deed σ) → Option (List Reading × System σ)
  | [] => some ([], s)
  | d :: deeds =>
    (s.nextDeed? rd d).bind fun (readings, s) =>
      (s.runDeeds? rd deeds).map fun (later, s) => (readings ++ later, s)

/-- The systems differ in the state of the raw handle in the stream of `k`, if they do. -/
structure OnlyRead (k : WrapperId) (s s' : System σ) : Prop where
  pools : s'.world.pools = s.world.pools
  wrappers : s'.world.wrappers = s.world.wrappers
  threads : s'.threads = s.threads
  held : s'.held = s.held
  history : s'.history = s.history
  phases : s'.world.raws.map RawHandle.phase = s.world.raws.map RawHandle.phase
  streams : ∀ k', k' ≠ k → s'.world.stream? k' = s.world.stream? k'

end System

/-! ## What changes the state of a raw handle -/

namespace World

variable {w : World σ} {frames : List Frame} {turn : Turn σ}

/-- A turn of a thread does not read. -/
theorem states_step (h : w.step frames = some turn) :
    turn.world.raws.map RawHandle.state = w.raws.map RawHandle.state := by
  cases yields_step h with
  | dropped hw =>
    obtain ⟨f, rfl⟩ := exists_of_release hw
    rfl
  | closing => exact states_updatePhase _ .closing
  | opened | closed => cases h
  | _ => rfl

/-- An opener adds the state that it answers with. -/
theorem states_opened {result : Except IoError σ} (h : w.opened frames result = some turn) :
    turn.world.raws.map RawHandle.state
      = w.raws.map RawHandle.state ++ result.toOption.toList := by
  unfold opened at h
  split at h
  · split at h
    · cases h
      exact (List.append_nil _).symm
    · cases h
      exact List.map_append
  · cases h

theorem states_closed {error : Option IoError} (h : w.closed frames error = some turn) :
    turn.world.raws.map RawHandle.state = w.raws.map RawHandle.state := by
  unfold closed at h
  split at h
  · next raw X entry cause rest =>
    cases h
    exact states_updatePhase raw .closed
  · cases h

theorem states_retired (h : w.retired frames = some turn) :
    turn.world.raws.map RawHandle.state = w.raws.map RawHandle.state := by
  unfold retired at h
  split at h <;> cases h
  rfl

end World

namespace System

variable {s s' : System σ} {a : Act σ}

/-- What is no read leaves the raw handles where they are; only an open adds one. -/
theorem states_next (ha : s.next? a = some s') (hr : a.isRead = false) :
    s'.world.raws.map RawHandle.state
      = s.world.raws.map RawHandle.state ++ a.opening?.toList := by
  cases h : a.thread? with
  | some t =>
    obtain ⟨frames, turn, -, hturn, rfl, -, -⟩ := exists_turn h ha
    cases a with
    | turn t => exact (World.states_step hturn).trans (List.append_nil _).symm
    | opened t result => exact (World.states_opened hturn).trans (by cases result <;> rfl)
    | closed t error => exact (World.states_closed hturn).trans (List.append_nil _).symm
    | retired t => exact (World.states_retired hturn).trans (List.append_nil _).symm
    | _ => cases h
  | none =>
    cases a with
    | spawn =>
      cases ha
      exact (List.append_nil _).symm
    | newPool config =>
      simp only [next?, World.newPool] at ha
      split at ha <;> cases ha
      exact (List.append_nil _).symm
    | call t c =>
      obtain ⟨frames, -, ha⟩ := Option.bind_eq_some_iff.1 ha
      split at ha <;> cases ha
      exact (List.append_nil _).symm
    | clone k =>
      simp only [next?] at ha
      split at ha <;> cases ha
      exact (List.append_nil _).symm
    | closeReference k =>
      simp only [next?] at ha
      split at ha <;> cases ha
      exact (List.append_nil _).symm
    | read k f => cases hr
    | _ => cases h

end System

/-! ## Into which wrapper a raw handle comes -/

namespace Scene

variable {sc sc' : Scene σ} {p : PoolId} {k : WrapperId} {raw : RawId}

/-- A raw handle comes into a new wrapper, and from a frame that is about to put it there. -/
theorem Step.mem_wrapped (hs : Step sc sc') (h : .wrapped p k raw ∈ sc'.history) :
    .wrapped p k raw ∈ sc.history ∨
      k = sc.world.wrappers.length ∧ ∃ X observed, .wrap p X observed raw ∈ sc.frames := by
  cases hs with
  | @wrap w F H E q X observed raw' pool hp =>
    rcases List.mem_cons.1 h with heq | hold
    · cases heq
      exact .inr ⟨rfl, X, observed, Multiset.mem_cons_self _ F⟩
    · exact .inl hold
  | _ => exact .inl (by simpa using h)

/-- What is to be wrapped was opened, and is in no wrapper yet. -/
theorem Owned.not_wrapped (ho : Owned sc) {X : Identity} {observed : Option Entry}
    (hf : .wrap p X observed raw ∈ sc.frames) :
    raw < sc.world.raws.length ∧ ∀ q k, .wrapped q k raw ∉ sc.history := by
  refine ⟨ho.lt_of_mem_raws (mem_raws_of_frame hf (Multiset.mem_singleton_self raw)), ?_⟩
  intro q k hw
  -- An open is either in a wrapper or at such a frame, and no raw handle is opened twice.
  have hn : ((collect Event.wraps sc.history).map Prod.snd
      + (collect Frame.unwrapped sc.frames).map Prod.snd).Nodup := by
    rw [← Multiset.map_add, ho.wraps_eq, ho.opens_eq]
    exact Multiset.nodup_range _
  have hhistory : raw ∈ (collect Event.wraps sc.history).map Prod.snd :=
    Multiset.mem_map.2 ⟨(q, raw), mem_collect.2 ⟨_, hw, by simp [Event.wraps]⟩, rfl⟩
  have hframe : raw ∈ (collect Frame.unwrapped sc.frames).map Prod.snd :=
    Multiset.mem_map.2 ⟨(p, raw), mem_collect.2 ⟨_, hf, by simp [Frame.unwrapped]⟩, rfl⟩
  exact Multiset.disjoint_left.1 (Multiset.nodup_add.1 hn).2.2 hhistory hframe

end Scene

/-! ## Where the raw handles stand -/

namespace Reading

variable {readings : List Reading} {k : WrapperId} {r : Reading}

theorem lengths_eq_nil (h : ∀ r ∈ readings, r.wrapper ≠ k) : lengths k readings = [] := by
  unfold lengths
  rw [List.filter_eq_nil_iff.2 (by simpa using h), List.map_nil]

theorem results_eq_nil (h : ∀ r ∈ readings, r.wrapper ≠ k) : results k readings = [] := by
  unfold results
  rw [List.filter_eq_nil_iff.2 (by simpa using h), List.map_nil]

theorem lengths_append : lengths k (readings ++ [r])
    = lengths k readings ++ if r.wrapper = k then [r.length] else [] := by
  by_cases hk : r.wrapper = k <;> simp [lengths, hk]

theorem results_append : results k (readings ++ [r])
    = results k readings ++ if r.wrapper = k then [r.result] else [] := by
  by_cases hk : r.wrapper = k <;> simp [results, hk]

end Reading

namespace World

variable {w : World σ} {raw k : RawId}

theorem state?_eq : w.state? raw = (w.raws[raw]?).map RawHandle.state := List.getElem?_map

theorem state?_updateRaw (f : RawHandle σ → RawHandle σ) :
    (w.updateRaw k f).state? raw
      = if k = raw then (w.raws[raw]?).map fun r => (f r).state else w.state? raw := by
  rw [state?_eq, state?_eq, updateRaw, List.getElem?_modify]
  by_cases hk : k = raw <;> simp [hk, Function.comp_def]

end World

namespace System

variable {rd : Reader σ} {s s' : System σ} {opened : List σ} {readings : List Reading}
  {p : PoolId} {k : WrapperId} {raw : RawId}

/-- Each raw handle has been opened in the state that `opened` has for it, and stands where the reads
of its wrapper have brought it. -/
structure Faithful (rd : Reader σ) (opened : List σ) (readings : List Reading)
    (s : System σ) : Prop where
  sound : Sound s
  length_eq : opened.length = s.world.raws.length
  unread : ∀ raw, (∀ p k, .wrapped p k raw ∉ s.history) → s.world.state? raw = opened[raw]?
  read : ∀ p k raw, .wrapped p k raw ∈ s.history → ∃ state, opened[raw]? = some state ∧
    s.world.state? raw = some (rd.after state (Reading.lengths k readings)) ∧
    Reading.results k readings = rd.replay state (Reading.lengths k readings)
  made : ∀ r ∈ readings, r.wrapper < s.world.wrappers.length

namespace Faithful

/-- What is no read opens a raw handle at the most, and leaves the others where they stand. -/
theorem next (hf : Faithful rd opened readings s) {a : Act σ} (ha : s.next? a = some s')
    (hr : a.isRead = false) : Faithful rd (opened ++ a.opening?.toList) readings s' := by
  obtain ⟨hstep, -⟩ := hf.sound.scene_next ha
  have hstates := states_next ha hr
  have hold (raw : RawId) (state : σ) (h : s.world.state? raw = some state) :
      s'.world.state? raw = some state := by
    unfold World.state? at h ⊢
    rw [hstates, List.getElem?_append_left (List.getElem?_eq_some_iff.1 h).1, h]
  refine ⟨hf.sound.next ha, ?_, ?_, ?_, ?_⟩
  · have := congrArg List.length hstates
    simp only [List.length_map, List.length_append] at this ⊢
    rw [this, hf.length_eq]
  · intro raw hw
    have hbefore := hf.unread raw fun p k h => hw p k (hstep.mem_history h)
    unfold World.state? at hbefore ⊢
    rw [hstates, List.getElem?_append, List.getElem?_append, hbefore, List.length_map,
      hf.length_eq]
  · intro p k raw hw
    -- What was opened before stays where it is among all that is opened.
    have hkeep (state : σ) (h : opened[raw]? = some state) :
        (opened ++ a.opening?.toList)[raw]? = some state := by
      rw [List.getElem?_append_left (List.getElem?_eq_some_iff.1 h).1, h]
    rcases hstep.mem_wrapped hw with hw | ⟨rfl, X, observed, hframe⟩
    · obtain ⟨state, hopened, hstate, hresults⟩ := hf.read p k raw hw
      exact ⟨state, hkeep state hopened, hold raw _ hstate, hresults⟩
    · -- The wrapper is new, so nobody has read through it.
      obtain ⟨hlt, hnot⟩ := hf.sound.valid.owned.not_wrapped hframe
      have hnone : ∀ r ∈ readings, r.wrapper ≠ s.world.wrappers.length :=
        fun r hr => Nat.ne_of_lt (hf.made r hr)
      have hopened := List.getElem?_eq_getElem (hf.length_eq ▸ hlt)
      refine ⟨_, hkeep _ hopened, hold raw _ ?_, ?_⟩
      · exact Reading.lengths_eq_nil hnone ▸ (hf.unread raw hnot).trans hopened
      · exact (Reading.results_eq_nil hnone).trans
          (Reading.lengths_eq_nil hnone ▸ rfl)
  · intro r hr
    obtain ⟨x, hx, -⟩ := hstep.later (List.getElem?_eq_getElem (hf.made r hr))
    exact (List.getElem?_eq_some_iff.1 hx).1

/-- A read brings the raw handle of its wrapper one further, and is where that wrapper stood. -/
theorem next_read (hf : Faithful rd opened readings s) {n : Nat} {x : Wrapper} {r : RawHandle σ}
    (hheld : k ∈ s.held) (hx : s.world.wrappers[k]? = some x) (hraw : x.stream = some raw)
    (hr : s.world.raws[raw]? = some r) :
    Faithful rd opened (readings ++ [⟨k, n, (rd n r.state).1⟩])
      { s with world := s.world.updateRaw raw fun r => { r with state := (rd n r.state).2 } } := by
  have hwrapped := hf.sound.valid.owned.wrapped_of_stream k x raw hx hraw
  have hact : s.next? (.read k fun state => (rd n state).2) = some
      { s with world := s.world.updateRaw raw fun r => { r with state := (rd n r.state).2 } } := by
    simp [next?, hheld, World.readThrough, hx, hraw, hr]
  refine ⟨hf.sound.next hact, ?_, ?_, ?_, ?_⟩
  · exact hf.length_eq.trans (World.length_raws_updateRaw raw _).symm
  · intro raw' hnot
    have hne : raw ≠ raw' := fun h => hnot _ _ (h ▸ hwrapped)
    exact (World.state?_updateRaw _).trans ((if_neg hne).trans (hf.unread raw' hnot))
  · intro p' k' raw' hw
    obtain ⟨state, hopened, hstate, hresults⟩ := hf.read p' k' raw' hw
    refine ⟨state, hopened, ?_⟩
    rw [World.state?_updateRaw, Reading.lengths_append, Reading.results_append]
    -- A wrapper has one raw handle, and a raw handle is in one wrapper.
    by_cases hk : k = k'
    · subst hk
      obtain rfl : raw = raw' := hf.sound.valid.owned.wrapped_raw_inj hwrapped hw
      rw [World.state?_eq, hr, Option.map_some, Option.some.injEq] at hstate
      rw [if_pos rfl, if_pos rfl, if_pos rfl, hr, Option.map_some, Reader.after_append,
        Reader.replay_append, ← hstate, hresults]
      exact ⟨rfl, by rw [hstate]⟩
    · have hne : raw ≠ raw' := by
        rintro rfl
        exact hk (hf.sound.valid.owned.wrapped_inj hwrapped hw).2
      rw [if_neg hne, if_neg hk, if_neg hk, List.append_nil, List.append_nil]
      exact ⟨hstate, hresults⟩
  · intro y hy
    rcases List.mem_append.1 hy with hold | hnew
    · exact hf.made y hold
    · rw [List.mem_singleton.1 hnew]
      exact (List.getElem?_eq_some_iff.1 hx).1

end Faithful

/-! ## Deeds -/

theorem readBy_eq (rd : Reader σ) (w : World σ) (k : WrapperId) (n : Nat) (access : Access) :
    w.readBy rd k n access = w.readThrough k (rd n) := by
  cases access <;> rfl

/-- A read is of a reference that is held, and changes the state of one raw handle. -/
theorem exists_of_read {n : Nat} {access : Access} {rs : List Reading}
    (h : s.nextDeed? rd (.read k n access) = some (rs, s')) :
    ∃ x raw r, k ∈ s.held ∧ s.world.wrappers[k]? = some x ∧ x.stream = some raw ∧
      s.world.raws[raw]? = some r ∧ rs = [⟨k, n, (rd n r.state).1⟩] ∧ s' =
        { s with world := s.world.updateRaw raw fun r => { r with state := (rd n r.state).2 } } := by
  simp only [nextDeed?, readBy_eq] at h
  split at h
  · next hheld =>
    obtain ⟨⟨result, world⟩, hread, h⟩ := Option.map_eq_some_iff.1 h
    obtain ⟨raw, hstream, hread⟩ := Option.bind_eq_some_iff.1 hread
    obtain ⟨x, hx, hraw⟩ := Option.bind_eq_some_iff.1 hstream
    obtain ⟨r, hr, hread⟩ := Option.map_eq_some_iff.1 hread
    cases hread
    cases h
    exact ⟨x, raw, r, by simpa using hheld, hx, hraw, hr, rfl, rfl⟩
  · cases h

/-- A reference that is held can be read, for the stream of its wrapper is open. -/
theorem exists_read (rd : Reader σ) (hs : Sound s) (hk : k ∈ s.held) (n : Nat) (access : Access) :
    ∃ result s', s.nextDeed? rd (.read k n access) = some ([⟨k, n, result⟩], s') := by
  have hpos : 0 < s.world.strong k :=
    hs.valid.referenced.strong_pos_of_held (by simpa [scene] using hk)
  obtain ⟨x, raw, r, hx, hraw, hr, -⟩ := hs.valid.exists_open_stream hpos
  simp only [scene] at hx hr
  have hread : s.world.readBy rd k n access = some ((rd n r.state).1,
      s.world.updateRaw raw fun r => { r with state := (rd n r.state).2 }) := by
    rw [readBy_eq, World.readThrough]
    simp [hx, hraw, hr]
  simp [nextDeed?, hk, hread]

theorem Faithful.nextDeed (hf : Faithful rd opened readings s) {d : Deed σ} {rs : List Reading}
    (h : s.nextDeed? rd d = some (rs, s')) :
    Faithful rd (opened ++ openings [d]) (readings ++ rs) s' := by
  cases d with
  | act a =>
    simp only [nextDeed?] at h
    split at h
    · cases h
    · next hread =>
      obtain ⟨s₁, ha, h⟩ := Option.map_eq_some_iff.1 h
      cases h
      have := hf.next ha (Bool.eq_false_iff.2 hread)
      cases hopen : a.opening? <;> simpa [openings, hopen] using this
  | read k n access =>
    obtain ⟨x, raw, r, hheld, hx, hraw, hr, rfl, rfl⟩ := exists_of_read h
    have := hf.next_read (n := n) hheld hx hraw hr
    simpa [openings] using this
  | intoRaw t k =>
    simp only [nextDeed?] at h
    split at h
    · obtain ⟨s₁, ha, h⟩ := Option.map_eq_some_iff.1 h
      cases h
      have := hf.next ha rfl
      simpa [openings, Act.opening?] using this
    · cases h

theorem Faithful.runDeeds {deeds : List (Deed σ)} {rs : List Reading}
    (hf : Faithful rd opened readings s) (h : s.runDeeds? rd deeds = some (rs, s')) :
    Faithful rd (opened ++ openings deeds) (readings ++ rs) s' := by
  induction deeds generalizing opened readings rs s with
  | nil =>
    cases h
    simpa [openings] using hf
  | cons d deeds ih =>
    obtain ⟨⟨first, s₁⟩, hd, h⟩ := Option.bind_eq_some_iff.1 h
    obtain ⟨⟨later, s₂⟩, hdeeds, h⟩ := Option.map_eq_some_iff.1 h
    cases h
    have := ih (hf.nextDeed hd) hdeeds
    have hopenings : openings (d :: deeds) = openings [d] ++ openings deeds :=
      List.filterMap_append (l := [d])
    rw [hopenings, ← List.append_assoc, ← List.append_assoc]
    exact this

theorem Faithful.start (rd : Reader σ) : Faithful rd [] [] ({} : System σ) :=
  ⟨Reachable.start.sound, rfl, fun _ _ => rfl, fun _ _ _ h => (List.not_mem_nil h).elim,
    fun _ h => (List.not_mem_nil h).elim⟩

/-- What is read of one wrapper changes nothing that another is read by, and nothing of a pool. -/
theorem onlyRead {n : Nat} {access : Access} {rs : List Reading} (hs : Sound s)
    (h : s.nextDeed? rd (.read k n access) = some (rs, s')) : OnlyRead k s s' := by
  obtain ⟨x, raw, r, hheld, hx, hraw, hr, -, rfl⟩ := exists_of_read h
  refine ⟨rfl, rfl, rfl, rfl, rfl, ?_, fun k' hk' => ?_⟩
  · apply List.ext_getElem?
    intro k
    simp only [World.updateRaw, List.getElem?_map, List.getElem?_modify]
    by_cases hk : raw = k <;> cases s.world.raws[k]? <;> simp [hk]
  · unfold World.stream?
    rw [World.wrappers_updateRaw]
    cases hx' : s.world.wrappers[k']?.bind Wrapper.stream with
    | none => rfl
    | some raw' =>
      obtain ⟨x', hx', hraw'⟩ := Option.bind_eq_some_iff.1 hx'
      have ho := hs.valid.owned
      -- Two wrappers do not share a raw handle.
      have hne : raw ≠ raw' := fun hraw'' => hk' (ho.wrapped_inj
        (ho.wrapped_of_stream k' x' raw' hx' hraw')
        (hraw'' ▸ ho.wrapped_of_stream k x raw hx hraw)).2
      simp [World.updateRaw, List.getElem?_modify, hne]

/-- All that is read of a wrapper, through whatever reference and in whatever way, is what its raw
handle alone gives from the state that it was opened in, whatever else goes on in between. A
reference that is held can be read at any time, and then nothing but the state of that raw handle
changes. -/
theorem reads_pass_through (rd : Reader σ) {deeds : List (Deed σ)} {readings : List Reading}
    {s : System σ} (h : ({} : System σ).runDeeds? rd deeds = some (readings, s)) :
    (∀ p k raw, .wrapped p k raw ∈ s.history → ∃ state, (openings deeds)[raw]? = some state ∧
      Reading.results k readings = rd.replay state (Reading.lengths k readings)) ∧
    (∀ r ∈ readings, ∃ p raw, .wrapped p r.wrapper raw ∈ s.history) ∧
    ∀ k ∈ s.held, ∀ n access, ∃ result s',
      s.nextDeed? rd (.read k n access) = some ([⟨k, n, result⟩], s') ∧ OnlyRead k s s' := by
  have hf : Faithful rd (openings deeds) readings s := (Faithful.start rd).runDeeds h
  have hv := hf.sound.valid
  refine ⟨fun p k raw hw => ?_, fun r hr => ?_, fun k hk n access => ?_⟩
  · obtain ⟨state, hopened, -, hresults⟩ := hf.read p k raw hw
    exact ⟨state, hopened, hresults⟩
  · obtain ⟨raw, hw⟩ := hv.owned.wrapped_home (List.getElem?_eq_getElem (hf.made r hr))
    exact ⟨_, raw, hw⟩
  · obtain ⟨result, s', hread⟩ := exists_read rd hf.sound hk n access
    exact ⟨result, s', hread, onlyRead hf.sound hread⟩

/-- What `/a` holds: it is read in pieces, and fails once. -/
def pieces : Source := .script [.data [1, 2, 3], .fail .busy, .data [4]]

/-- A caller acquires `/a`, closes the handle and reads, acquires it again, and gives a clone up for
the raw handle in vain. `/b` is read in between, and the pool is dropped before the last reads. -/
def reading : List (Deed Source) :=
  ([.act .spawn, .act (.newPool {}), .act (.call 0 (.acquire 0 ⟨.ofString "/a"⟩)), .act (.turn 0),
    .act (.turn 0), .act (.opened 0 (.ok pieces)), .act (.turn 0), .act (.turn 0),
    .act (.closeReference 0), .read 0 2 .direct, .act (.call 0 (.acquire 0 ⟨.ofString "/b"⟩)),
    .act (.turn 0), .act (.turn 0), .act (.opened 0 (.ok (.counting 7))), .act (.turn 0),
    .act (.turn 0), .read 1 1 .borrowed, .act (.call 0 (.acquire 0 ⟨.ofString "//a/."⟩)),
    .act (.turn 0), .act (.turn 0), .read 0 2 .owned, .act (.clone 0), .intoRaw 0 0,
    .act (.turn 0), .act (.call 0 (.drop 1)), .act (.turn 0), .act (.turn 0),
    .act (.call 0 (.dropPool 0)), .act (.turn 0), .act (.turn 0), .act (.turn 0),
    .act (.closed 0 none)] : List (Deed Source)) ++
  ([.act (.turn 0), .act (.turn 0), .act (.retired 0), .act (.turn 0), .act (.turn 0),
    .read 0 5 .borrowed, .read 0 5 .direct] : List (Deed Source))

theorem isSome_run_reading : (({} : System Source).runDeeds? Source.read reading).isSome := by
  decide +kernel

/-- What is read, and the system at the end. -/
def readOut : List Reading × System Source :=
  (({} : System Source).runDeeds? Source.read reading).get isSome_run_reading

theorem reads_pass_through_reading :
    ({} : System Source).runDeeds? Source.read reading = some (readOut.1, readOut.2) ∧
    .wrapped 0 0 0 ∈ readOut.2.history ∧ ¬ readOut.2.world.isUp 0 ∧
    Reading.lengths 0 readOut.1 = [2, 2, 5, 5] ∧
    Reading.results 0 readOut.1 = [.ok [1, 2], .ok [3], .error .busy, .ok [4]] ∧
    Reading.results 0 readOut.1 = Reader.replay Source.read pieces [2, 2, 5, 5] ∧
    0 ∈ readOut.2.held ∧ ∃ result s',
      readOut.2.nextDeed? Source.read (.read 0 1 .owned) = some ([⟨0, 1, result⟩], s') ∧
        OnlyRead 0 readOut.2 s' := by
  have hrun : ({} : System Source).runDeeds? Source.read reading = some (readOut.1, readOut.2) :=
    (Option.some_get isSome_run_reading).symm
  have hw : .wrapped 0 0 0 ∈ readOut.2.history := by decide +kernel
  have hup : ¬ readOut.2.world.isUp 0 := by unfold World.isUp; decide +kernel
  have hheld : 0 ∈ readOut.2.held := by decide +kernel
  have hlengths : Reading.lengths 0 readOut.1 = [2, 2, 5, 5] := by decide +kernel
  have hopening : (openings reading)[0]? = some pieces := by decide +kernel
  obtain ⟨hresults, -, hread⟩ := reads_pass_through Source.read hrun
  obtain ⟨state, hopened, hreplay⟩ := hresults 0 0 0 hw
  obtain rfl : pieces = state := Option.some.inj (hopening.symm.trans hopened)
  rw [hlengths] at hreplay
  have hgiven : Reader.replay Source.read pieces [2, 2, 5, 5]
      = [.ok [1, 2], .ok [3], .error .busy, .ok [4]] := by decide +kernel
  exact ⟨hrun, hw, hup, hlengths, hreplay.trans hgiven, hreplay, hheld, hread 0 hheld 1 .owned⟩

end System

end ReadPool
