import Mathlib
import ReadPool.Proofs.Solo

/-!
# An acquisition from any state

What a lone acquisition makes of a pool that need not have come about by any run: slots may be dead
without a death in the queue, and deaths may wait that have no slot. It drains as a purge does.
Then it finds a live slot, or it opens once; a dead slot does not stand in its way, and an open that
fails leaves everything as the drain has left it.
-/

namespace ReadPool

namespace Slots

variable {s : Slots} {X : Identity} {slot : Slot}

/-- The table after the deaths were looked up in turn. -/
def bury (s : Slots) (notes : List Note) : Slots :=
  notes.foldl (fun s note => s.evict note.identity note.entry) s

@[simp] theorem bury_nil : s.bury [] = s := rfl

@[simp] theorem bury_cons (note : Note) (notes : List Note) :
    s.bury (note :: notes) = (s.evict note.identity note.entry).bury notes := rfl

/-- What a drain leaves was there before. -/
theorem find?_of_bury {notes : List Note} (h : (s.bury notes).find? X = some slot) :
    s.find? X = some slot := by
  induction notes generalizing s with
  | nil => exact h
  | cons note notes ih =>
    have hevict := ih h
    rw [find?_evict] at hevict
    split at hevict
    · cases hevict
    · exact hevict

end Slots

namespace World

variable {w : World σ}

/-- The pool has a slot for the identity, and the wrapper is referenced. -/
def hasLive (w : World σ) (p : PoolId) (X : Identity) : Bool :=
  (w.slot? p X).any fun slot => w.isLive slot.wrapper

/-- The world after a death was received, looked up and closed. -/
def bury (w : World σ) (note : Note) (notes : List Note) : World σ :=
  (((w.updatePool 0 fun pool => { pool with queue := some notes }).updatePool 0 fun pool =>
    { pool with slots := pool.slots.evict note.identity note.entry }).updateRaw note.raw
      fun r => { r with phase := .closing }).updateRaw note.raw fun r => { r with phase := .closed }

theorem getElem?_bury {pool : Pool} (hp : w.pools[0]? = some pool) (note : Note)
    (notes : List Note) : (w.bury note notes).pools[0]? = some
      { pool with slots := pool.slots.evict note.identity note.entry, queue := some notes } := by
  simp only [bury, pools_updateRaw, getElem?_updatePool, if_true, hp, Option.map_some]

end World

namespace System

variable {env : Environment σ} {s s' : System σ} {w : World σ} {H : List WrapperId}
  {E : List Event} {X : Identity} {frames : List Frame} {turn : Turn σ} {fuel : Nat}

theorem settle_turn (ht : s.threads = [frames]) (h : s.turn? env frames = some turn)
    (ha : turn.answer = none) : s.settle env (fuel + 1) = (⟨turn.world, [turn.frames],
      turn.gained ++ s.held, turn.events s.world frames ++ s.history⟩ : System σ).settle env fuel :=
  settle_next (ha ▸ advance?_eq ht h) fuel

theorem settle_last (ht : s.threads = [frames]) (h : s.turn? env frames = some turn)
    {answer : Answer} (ha : turn.answer = some answer) :
    s.settle env (fuel + 1) = some (answer, ⟨turn.world, [turn.frames], turn.gained ++ s.held,
      turn.events s.world frames ++ s.history⟩) :=
  settle_answer (ha ▸ advance?_eq ht h) fuel

/-! ## The drain -/

theorem settle_bury {note : Note} {notes : List Note} (hq : w.pending 0 = note :: notes)
    (rest : List Frame) (n : Nat) :
    (⟨w, [.receive 0 n :: rest], H, E⟩ : System σ).settle env (fuel + 4)
      = (⟨w.bury note notes, [.receive 0 (n + 1) :: rest], H,
          .closed note.raw :: .closing note.raw .death :: E⟩ : System σ).settle env fuel := by
  have hturn : (⟨w, [.receive 0 n :: rest], H, E⟩ : System σ).turn? env (.receive 0 n :: rest)
      = some
        { world := w.updatePool 0 fun pool => { pool with queue := some notes }
          frames := .evict 0 note :: .receive 0 (n + 1) :: rest } :=
    (World.Yields.received hq).step rfl
  rw [settle_turn rfl hturn rfl, settle_turn rfl rfl rfl, settle_turn rfl rfl rfl,
    settle_turn rfl rfl rfl]
  simp only [Turn.events, hq, reduceCtorEq, if_false]
  rfl

/-- A drain looks the deaths up in turn, whatever is left to do after it. -/
theorem settle_deaths (env : Environment σ) {notes : List Note} {pool : Pool}
    (hp : w.pools[0]? = some pool) (hq : pool.queue = some notes) (H : List WrapperId)
    (E : List Event) : ∃ w' E',
      w'.pools[0]? = some { pool with slots := pool.slots.bury notes, queue := some [] } ∧
      w'.wrappers = w.wrappers ∧ asksOf 0 E' = asksOf 0 E ∧
      ∀ rest n fuel, (⟨w, [.receive 0 n :: rest], H, E⟩ : System σ).settle env
          (fuel + 4 * notes.length)
        = (⟨w', [.receive 0 (n + notes.length) :: rest], H, E'⟩ : System σ).settle env fuel := by
  induction notes generalizing w pool E with
  | nil => exact ⟨w, E, by simpa [← hq] using hp, rfl, rfl, fun _ _ _ => rfl⟩
  | cons note notes ih =>
    have hpend : w.pending 0 = note :: notes := by rw [World.pending_eq hp, hq, Option.getD_some]
    obtain ⟨w', E', hp', hwrappers, hasks, hset⟩ := ih (World.getElem?_bury hp note notes) rfl
      (.closed note.raw :: .closing note.raw .death :: E)
    refine ⟨w', E', hp', hwrappers, hasks.trans (by simp [asksOf, Event.isAsk]), ?_⟩
    intro rest n fuel
    rw [List.length_cons, Nat.mul_succ, ← Nat.add_assoc, settle_bury hpend, hset, Nat.add_assoc,
      Nat.add_comm 1]

theorem settle_received (hq : w.pending 0 = []) (n : Nat) :
    (⟨w, [[.receive 0 n]], H, E⟩ : System σ).settle env (fuel + 1)
      = some (.purged n, ⟨w, [[]], H, .drained 0 :: E⟩) := by
  have hturn : (⟨w, [[.receive 0 n]], H, E⟩ : System σ).turn? env [.receive 0 n]
      = some (w.finish [] (.purged n)) := (World.Yields.drained hq).step rfl
  rw [settle_last rfl hturn rfl]
  simp [World.finish, Turn.gained, Turn.events, isIdle, hq]

theorem settle_received_lookUp (hq : w.pending 0 = []) (n : Nat) :
    (⟨w, [[.receive 0 n, .lookUp 0 X]], H, E⟩ : System σ).settle env (fuel + 1)
      = (⟨w, [[.lookUp 0 X]], H, .drained 0 :: E⟩ : System σ).settle env fuel := by
  have hturn : (⟨w, [[.receive 0 n, .lookUp 0 X]], H, E⟩ : System σ).turn? env
      [.receive 0 n, .lookUp 0 X] = some (w.finish [.lookUp 0 X] (.purged n)) :=
    (World.Yields.drained hq).step rfl
  rw [settle_turn rfl hturn rfl]
  simp [World.finish, Turn.gained, Turn.events, isIdle, Frame.isWaiting, hq]

/-! ## The look-up and what follows -/

theorem settle_hit {slot : Slot} (hX : w.slot? 0 X = some slot) (hl : w.isLive slot.wrapper) :
    (⟨w, [[.lookUp 0 X]], H, E⟩ : System σ).settle env (fuel + 1)
      = some (.acquired (.ok slot.wrapper), ⟨w.retain slot.wrapper, [[]], slot.wrapper :: H,
        .acquired 0 X slot.wrapper :: E⟩) := by
  have hturn : (⟨w, [[.lookUp 0 X]], H, E⟩ : System σ).turn? env [.lookUp 0 X]
      = some ((w.retain slot.wrapper).finish [] (.acquired (.ok slot.wrapper))) :=
    (World.Yields.found hX hl).step rfl
  exact settle_last rfl hturn rfl

/-- Without a live slot the opener is called, and what was seen of a dead one is kept in mind. -/
theorem settle_miss (hX : w.hasLive 0 X = false) :
    (⟨w, [[.lookUp 0 X]], H, E⟩ : System σ).settle env (fuel + 1)
      = (⟨w, [[.opening 0 X ((w.slot? 0 X).map Slot.entry)]], H, .asked 0 X :: E⟩
          : System σ).settle env fuel := by
  have hturn : (⟨w, [[.lookUp 0 X]], H, E⟩ : System σ).turn? env [.lookUp 0 X]
      = some
        { world := w, frames := [.opening 0 X ((w.slot? 0 X).map Slot.entry)] } := by
    refine (World.Yields.missed fun slot hslot => ?_).step rfl
    simpa [World.hasLive, hslot] using hX
  exact settle_turn rfl hturn rfl

theorem settle_openFailed {observed : Option Entry} {e : IoError}
    (he : env.opening (asksOf 0 E) X = .error e) :
    (⟨w, [[.opening 0 X observed]], H, E⟩ : System σ).settle env (fuel + 1)
      = some (.acquired (.error (.openFailed X e)), ⟨w, [[]], H, E⟩) := by
  have hturn : (⟨w, [[.opening 0 X observed]], H, E⟩ : System σ).turn? env [.opening 0 X observed]
      = some (w.finish [] (.acquired (.error (.openFailed X e))) [.openFailed X e]) := by
    simp only [turn?, he, World.opened]
  rw [settle_last rfl hturn rfl]
  simp [World.finish, Turn.gained, Turn.events, isIdle]

/-- What is opened is published, since nobody has changed the slot in the meantime. -/
theorem settle_opened {pool : Pool} {observed : Option Entry} {state : σ} {slots : Slots}
    (hp : w.pools[0]? = some pool) (ho : env.opening (asksOf 0 E) X = .ok state)
    (hs : pool.slots.publish X observed ⟨pool.next, w.wrappers.length⟩ = some slots) :
    (⟨w, [[.opening 0 X observed]], H, E⟩ : System σ).settle env (fuel + 3)
      = some (.acquired (.ok w.wrappers.length), ⟨w.grow X state pool.next slots, [[]],
          w.wrappers.length :: H, .acquired 0 X w.wrappers.length :: .published w.wrappers.length
            :: .wrapped 0 w.wrappers.length w.raws.length :: .opened 0 w.raws.length :: E⟩) := by
  have hturn₀ : (⟨w, [[.opening 0 X observed]], H, E⟩ : System σ).turn? env [.opening 0 X observed]
      = some
        { world := (w.addRaw X state).1, frames := [.wrap 0 X observed w.raws.length] } := by
    simp only [turn?, ho, World.opened, World.snd_addRaw]
  rw [settle_turn rfl hturn₀ rfl]
  -- The number is taken, and the slots are as they were.
  have hturn₁ (E' : List Event) : (⟨(w.addRaw X state).1,
      [[.wrap 0 X observed w.raws.length]], H, E'⟩ : System σ).turn? env
        [.wrap 0 X observed w.raws.length] = some
        { world := (((w.addRaw X state).1.updatePool 0 fun pool =>
            { pool with next := pool.next + 1 }).addWrapper 0 X pool.next w.raws.length).1
          frames := [.publish 0 X observed w.wrappers.length] } := World.step_wrap hp
  refine (settle_turn rfl (hturn₁ _) rfl).trans ?_
  have hturn₂ (E' : List Event) : (⟨(((w.addRaw X state).1.updatePool 0 fun pool =>
      { pool with next := pool.next + 1 }).addWrapper 0 X pool.next w.raws.length).1,
        [[.publish 0 X observed w.wrappers.length]], H, E'⟩ : System σ).turn? env
          [.publish 0 X observed w.wrappers.length]
      = some ((w.grow X state pool.next slots).finish [] (.acquired (.ok w.wrappers.length))
        [.published X pool.next observed]) := by
    have hwrapper := World.getElem?_addWrapper (w := (w.addRaw X state).1.updatePool 0 fun pool =>
      { pool with next := pool.next + 1 }) 0 X pool.next w.raws.length w.wrappers.length
    rw [World.wrappers_updatePool, World.wrappers_addRaw, if_pos rfl] at hwrapper
    have hpool : (((w.addRaw X state).1.updatePool 0 fun pool =>
        { pool with next := pool.next + 1 }).addWrapper 0 X pool.next w.raws.length).1.pools[0]?
          = some { pool with next := pool.next + 1 } := by
      rw [World.pools_addWrapper, World.getElem?_updatePool, if_pos rfl, World.pools_addRaw, hp,
        Option.map_some]
    exact World.step_publish hpool hwrapper hs
  refine (settle_last rfl (hturn₂ _) rfl).trans ?_
  simp [World.finish, Turn.gained, Turn.events, isIdle, World.addRaw]

/-- What an acquisition of `X` makes of the system `s` that its drain has left. -/
structure AcquiredFrom (env : Environment σ) (X : Identity) (s s' : System σ)
    (result : Except PoolError WrapperId) : Prop where
  /-- The opener is called once where there is no live slot. -/
  asks_eq : asksOf 0 s'.history = asksOf 0 s.history + if s.world.hasLive 0 X then 0 else 1
  /-- The slot has the number of the wrapper that is given, and the other slots are as they were.
  A number is taken where something was opened. -/
  ok : ∀ h, result = .ok h → ∃ x pool slots, s'.world.wrappers[h]? = some x ∧ 0 < x.strong ∧
    x.identity.Same X ∧ s.world.pools[0]? = some pool ∧
    s'.world.pools[0]? = some
      { pool with slots, next := pool.next + if s.world.hasLive 0 X then 0 else 1 } ∧
    ∀ Y, slots.find? Y = if X.Same Y then some ⟨x.entry, h⟩ else pool.slots.find? Y
  error : ∀ e, result = .error e → s'.world = s.world
  error_iff : ∀ e, result = .error e ↔ s.world.hasLive 0 X = false ∧
    ∃ e', env.opening (asksOf 0 s.history + 1) X = .error e' ∧ e = .openFailed X e'

/-- An acquisition that has nothing more to receive. -/
theorem settle_lookUp (env : Environment σ) {pool : Pool} (hp : w.pools[0]? = some pool)
    (hlive : ∀ slot x, w.slot? 0 X = some slot → w.wrappers[slot.wrapper]? = some x →
      0 < x.strong → x.entry = slot.entry ∧ x.identity.Same X) :
    ∃ result s', (⟨w, [[.lookUp 0 X]], H, E⟩ : System σ).settle env 4
        = some (.acquired result, s') ∧ AcquiredFrom env X ⟨w, [[]], H, E⟩ s' result := by
  cases hl : w.hasLive 0 X with
  | true =>
    -- The slot is as the drain left it; its wrapper has one more reference.
    obtain ⟨slot, hslot, hpos⟩ : ∃ slot, w.slot? 0 X = some slot ∧ w.isLive slot.wrapper := by
      simpa [World.hasLive, Option.any_eq_true] using hl
    obtain ⟨x, hx, hxs⟩ := World.exists_of_strong_pos (World.isLive_iff.1 hpos)
    have hxpos : 0 < x.strong := hxs ▸ World.isLive_iff.1 hpos
    obtain ⟨hxe, hxX⟩ := hlive slot x hslot hx hxpos
    refine ⟨_, _, settle_hit hslot hpos, ?_, ?_, (by rintro e ⟨⟩), ?_⟩
    · simp [hl, asksOf, Event.isAsk]
    · rintro h ⟨⟩
      refine ⟨{ x with strong := x.strong + 1 }, pool, pool.slots, ?_, Nat.succ_pos _, hxX, hp, ?_,
        ?_⟩
      · simp [World.retain, World.getElem?_updateWrapper hx]
      · simpa [hl] using hp
      · intro Y
        split
        · next hXY =>
          rw [← Slots.find?_congr _ hXY, hxe]
          simpa [World.slot?, hp] using hslot
        · rfl
    · simp [hl]
  | false =>
    have hasks : asksOf 0 (.asked 0 X :: E) = asksOf 0 E + 1 := by simp [asksOf, Event.isAsk]
    cases ho : env.opening (asksOf 0 E + 1) X with
    | error e =>
      -- No number is taken before an open has succeeded.
      refine ⟨_, _, (settle_miss hl).trans (settle_openFailed (hasks ▸ ho)), ?_, (by rintro h ⟨⟩),
        fun _ _ => rfl, ?_⟩
      · simpa [hl] using hasks
      · simp [hl, ho, eq_comm]
    | ok state =>
      have hseen : (pool.slots.find? X).map Slot.entry = (w.slot? 0 X).map Slot.entry := by
        simp [World.slot?, hp]
      obtain ⟨slots, hs⟩ :=
        Slots.exists_publish ⟨pool.next, w.wrappers.length⟩ hseen
      refine ⟨_, _, (settle_miss hl).trans (settle_opened hp (hasks ▸ ho) hs), ?_, ?_,
        (by rintro e ⟨⟩), ?_⟩
      · simp [hl, asksOf, Event.isAsk]
      · rintro h ⟨⟩
        refine ⟨{ identity := X, entry := pool.next, home := 0, stream := some w.raws.length },
          pool, slots, ?_, Nat.one_pos, .refl X, hp, ?_, Slots.find?_publish hs⟩
        · rw [World.getElem?_grow, if_pos rfl]
        · simp [World.grow, World.getElem?_updatePool, World.addRaw, hp, hl]
      · simp [ho]

theorem next?_call_draining (ht : s.threads = [[]]) (hup : s.world.isUp 0) {c : Call}
    {rest : List Frame} (hc : c = .purge 0 ∧ rest = [] ∨ c = .acquire 0 X ∧ rest = [.lookUp 0 X]) :
    s.next? (.call 0 c) = some ⟨s.world, [.receive 0 0 :: rest], s.held, s.history⟩ := by
  have hopen : s.isOpen 0 := isOpen_iff.2 ⟨hup, by simp [System.frames, ht]⟩
  rcases hc with ⟨rfl, rfl⟩ | ⟨rfl, rfl⟩ <;>
    simp [next?, ht, isIdle, admits, hopen, Call.frames, afterCall]

variable {pool : Pool} {notes : List Note}

/-- A lone acquisition from any state of a pool, however it came about, in which a live slot has the
number and the identity of its wrapper. It comes to what a purge leaves, with the look-up left to
do, and goes on from there as `AcquiredFrom` says: a live slot is found, or the opener is called
once; what it gives is published, and if it fails, the world stays as the purge leaves it. -/
theorem acquire_from_any_state (env : Environment σ) (X : Identity) (ht : s.threads = [[]])
    (hpool : s.world.pools[0]? = some pool) (hq : pool.queue = some notes)
    (hlive : ∀ Y slot x, s.world.slot? 0 Y = some slot → s.world.wrappers[slot.wrapper]? = some x →
      0 < x.strong → x.entry = slot.entry ∧ x.identity.Same Y) :
    ∃ s₀ s₁ s₂ n result,
      s.call env (.purge 0) = some (.done, s₁) ∧
      s₁.world.pools[0]? = some { pool with slots := pool.slots.bury notes, queue := some [] } ∧
      s₁.world.wrappers = s.world.wrappers ∧ asksOf 0 s₁.history = asksOf 0 s.history ∧
      s.next? (.call 0 (.acquire 0 X)) = some s₀ ∧
      (∀ fuel, s₀.settle env (fuel + n)
        = ({ s₁ with threads := [[.lookUp 0 X]] } : System σ).settle env fuel) ∧
      s.call env (.acquire 0 X) = some (.acquired result, s₂) ∧
      AcquiredFrom env X s₁ s₂ result := by
  have hup : s.world.isUp 0 := World.isUp_iff.2 ⟨pool, notes, hpool, hq⟩
  have hlen : (s.world.pending 0).length = notes.length := by
    rw [World.pending_eq hpool, hq, Option.getD_some]
  obtain ⟨w, E, hp, hwrappers, hasks, hset⟩ := settle_deaths env hpool hq s.held s.history
  have hempty : w.pending 0 = [] := by rw [World.pending_eq hp, Option.getD_some]
  have hpurge := next?_call_draining (X := X) ht hup (.inl ⟨rfl, rfl⟩)
  have hacquire := next?_call_draining (X := X) ht hup (.inr ⟨rfl, rfl⟩)
  have hdrained (fuel : Nat) : (⟨s.world, [[.receive 0 0, .lookUp 0 X]], s.held, s.history⟩
      : System σ).settle env (fuel + (4 * notes.length + 1))
        = (⟨w, [[.lookUp 0 X]], s.held, .drained 0 :: E⟩ : System σ).settle env fuel := by
    rw [Nat.add_comm (4 * _), ← Nat.add_assoc, hset, settle_received_lookUp hempty]
  have hasks' : asksOf 0 (.drained 0 :: E) = asksOf 0 s.history := by
    simpa [asksOf, Event.isAsk] using hasks
  obtain ⟨result, s₂, hend, hfrom⟩ := settle_lookUp (X := X) (H := s.held) (E := .drained 0 :: E)
    env hp fun slot x hslot hx hpos => by
      refine hlive X slot x ?_ (hwrappers ▸ hx) hpos
      simp only [World.slot?, hp, hpool, Option.bind_some] at hslot ⊢
      exact Slots.find?_of_bury hslot
  refine ⟨_, ⟨w, [[]], s.held, .drained 0 :: E⟩, s₂, _, result, ?_, hp, hwrappers, hasks', hacquire,
    hdrained, ?_, hfrom⟩
  · rw [call, hpurge, Option.bind_some, hlen, Nat.add_comm, hset, settle_received hempty]
    rfl
  · rw [call, hacquire, Option.bind_some, hlen, Nat.add_comm, show 5 + 4 * notes.length
      = 4 + (4 * notes.length + 1) by omega, hdrained, hend]
    rfl

/-- A dead slot whose death nobody has posted, a live one, and deaths that have no slot. -/
def strayed : System Unit where
  world :=
    { wrappers :=
        [⟨⟨.ofString "/a"⟩, 5, 0, 0, none⟩, ⟨⟨.ofString "/b"⟩, 3, 0, 1, some 0⟩]
      pools :=
        [{ slots := ⟨[(⟨.ofString "/a"⟩, ⟨5, 0⟩), (⟨.ofString "/b"⟩, ⟨3, 1⟩)], by decide +kernel⟩
           next := 6
           queue := some [⟨⟨.ofString "/b"⟩, 1, 7⟩, ⟨⟨.ofString "/c"⟩, 4, 9⟩] }] }
  threads := [[]]

/-- Only `/a` can be opened. -/
def opensStrayed : Environment Unit where
  opening _ X := if X = ⟨.ofString "/a"⟩ then .ok () else .error .busy
  closing _ := some .busy
  reading _ _ := (.ok [], ())

theorem acquire_from_any_state_strayed :
    (∃ s₁ s₂, strayed.call opensStrayed (.purge 0) = some (.done, s₁) ∧
      strayed.call opensStrayed (.acquire 0 ⟨.ofString "/a"⟩) = some (.acquired (.ok 2), s₂) ∧
      AcquiredFrom opensStrayed ⟨.ofString "/a"⟩ s₁ s₂ (.ok 2)) ∧
    ∃ s₁ s₂, strayed.call opensStrayed (.purge 0) = some (.done, s₁) ∧
      strayed.call opensStrayed (.acquire 0 ⟨.ofString "/c"⟩)
        = some (.acquired (.error (.openFailed ⟨.ofString "/c"⟩ .busy)), s₂) ∧
      s₂.world = s₁.world := by
  have hlive : ∀ Y slot x, strayed.world.slot? 0 Y = some slot →
      strayed.world.wrappers[slot.wrapper]? = some x → 0 < x.strong →
        x.entry = slot.entry ∧ x.identity.Same Y := by
    intro Y slot x hslot hx hpos
    obtain ⟨pool, hpool, hfind⟩ := Option.bind_eq_some_iff.1 hslot
    cases hpool
    obtain ⟨Z, hZ, hsame⟩ := Slots.exists_of_find? hfind
    rcases List.mem_pair.1 hZ with heq | heq <;> cases heq <;> cases hx
    · cases hpos
    · exact ⟨rfl, hsame⟩
  have houtcome : (strayed.call opensStrayed (.acquire 0 ⟨.ofString "/a"⟩)).map Prod.fst
      = some (.acquired (.ok 2)) := by decide +kernel
  have houtcome' : (strayed.call opensStrayed (.acquire 0 ⟨.ofString "/c"⟩)).map Prod.fst
      = some (.acquired (.error (.openFailed ⟨.ofString "/c"⟩ .busy))) := by decide +kernel
  obtain ⟨-, s₁, s₂, -, result, hpurge, -, -, -, -, -, hacquire, hfrom⟩ :=
    acquire_from_any_state opensStrayed ⟨.ofString "/a"⟩ rfl rfl rfl hlive
  obtain ⟨-, t₁, t₂, -, result', hpurge', -, -, -, -, -, hacquire', hfrom'⟩ :=
    acquire_from_any_state opensStrayed ⟨.ofString "/c"⟩ rfl rfl rfl hlive
  rw [hacquire] at houtcome
  cases houtcome
  rw [hacquire'] at houtcome'
  cases houtcome'
  exact ⟨⟨s₁, s₂, hpurge, hacquire, hfrom⟩, t₁, t₂, hpurge', hacquire', hfrom'.error _ rfl⟩

end System

end ReadPool
