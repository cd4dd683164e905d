import Mathlib
import ReadPool.Pool.Log

/-!
# What a log tells of an entry

The events of a log that name one entry are a tale: the entry is published or has lost its race, it
may be replaced, its death takes the slot out, or finds it replaced, or finds no pool, and then what
was opened is closed. `Tells` has a case for each event, with the stage before and after it, so what
a tale has of each kind of event can be read off the stage that it has come to.

One thing happens without an event: a death that a queue still has when it ends. The stages after it
know that.
-/

namespace ReadPool

/-! ## Kinds of events -/

namespace LogEvent

/-- The entry that a publication has replaced. -/
@[simp] def replaced? : LogEvent → Option Entry
  | published _ _ replaced => replaced
  | _ => none

/-- The event names the entry. -/
@[simp] def names (entry : Entry) (ev : LogEvent) : Bool :=
  ev.entry? = some entry || ev.replaced? = some entry

/-- The number that an open was given, told when its race is over. -/
def number? : LogEvent → Option Entry
  | published _ e _ => some e
  | lostRace _ e => some e
  | _ => none

/-- A death was looked up. -/
def isDrain : LogEvent → Bool
  | drained .. => true
  | _ => false

/-- A death was looked up, or has found no pool. -/
def isDeparture : LogEvent → Bool
  | drained .. => true
  | releasedInline .. => true
  | _ => false

/-- What was opened is closed, well or with an error. -/
def isRelease : LogEvent → Bool
  | released .. => true
  | closeFailed .. => true
  | _ => false

/-- The entry goes out of the table, by another that replaces it or by its death. -/
def unlists (e : Entry) : LogEvent → Bool
  | published _ _ replaced => replaced = some e
  | drained _ e' removed => e' = e && removed
  | _ => false

end LogEvent

/-! ## Reading a log -/

/-- The numbers of opens, in the order of the log. -/
def numbers (log : List LogEvent) : List Entry := log.filterMap LogEvent.number?

/-- The events that name an entry, in the order of the log. -/
def told (entry : Entry) (log : List LogEvent) : List LogEvent := log.filter (LogEvent.names entry)

/-- How many events of a kind there are for an entry. -/
def tally (kind : LogEvent → Bool) (e : Entry) (log : List LogEvent) : Nat :=
  log.countP fun ev => kind ev && ev.entry? = some e

section

variable {kind : LogEvent → Bool} {e : Entry} {ev : LogEvent} {l l' : List LogEvent}

@[simp] theorem numbers_append : numbers (l ++ l') = numbers l ++ numbers l' :=
  List.filterMap_append

@[simp] theorem told_nil (e : Entry) : told e [] = [] := rfl

@[simp] theorem told_append (e : Entry) (l l' : List LogEvent) :
    told e (l ++ l') = told e l ++ told e l' := List.filter_append ..

@[simp] theorem told_singleton (e : Entry) (ev : LogEvent) :
    told e [ev] = if ev.names e then [ev] else [] := List.filter_cons ..

theorem told_reverse (e : Entry) (l : List LogEvent) : told e l.reverse = (told e l).reverse :=
  List.filter_reverse ..

theorem mem_told : ev ∈ told e l ↔ ev ∈ l ∧ ev.names e := List.mem_filter

/-- What tells nothing gives no number. -/
theorem numbers_eq_nil (h : ∀ e, told e l = []) : numbers l = [] := by
  refine List.filterMap_eq_nil_iff.2 fun ev hev => ?_
  by_contra hn
  obtain ⟨e, he⟩ := Option.ne_none_iff_exists'.1 hn
  have hname : ev.names e := by cases ev <;> simp_all [LogEvent.number?, LogEvent.entry?]
  have hm : ev ∈ told e l := mem_told.2 ⟨hev, hname⟩
  rw [h] at hm
  cases hm

theorem tally_append : tally kind e (l ++ l') = tally kind e l + tally kind e l' :=
  List.countP_append

theorem tally_reverse : tally kind e l.reverse = tally kind e l := List.countP_reverse

theorem tally_told : tally kind e (told e l) = tally kind e l := by
  rw [tally, told, List.countP_filter, tally]
  refine List.countP_congr fun ev _ => ?_
  simp +contextual

/-- A tally can be read off the tale, which is told last first. -/
theorem tally_told_reverse : tally kind e (told e l.reverse) = tally kind e l := by
  rw [tally_told, tally_reverse]

theorem tally_eq_zero_of_told (h : told e l = []) : tally kind e l = 0 := by
  rw [← tally_told, h]
  rfl

theorem countP_unlists_told :
    (told e l).countP (LogEvent.unlists e) = l.countP (LogEvent.unlists e) := by
  rw [told, List.countP_filter]
  refine List.countP_congr fun ev _ => ?_
  cases ev <;> simp +contextual [LogEvent.unlists, LogEvent.entry?]

theorem tally_isDrain_le : tally LogEvent.isDrain e l ≤ tally LogEvent.isDeparture e l := by
  refine List.countP_mono_left fun ev _ => ?_
  cases ev <;> simp [LogEvent.isDrain, LogEvent.isDeparture]

end

/-! ## Tales -/

/-- How far an entry has come. -/
inductive Stage where
  | fresh
  /-- It has lost its race. -/
  | lost
  /-- It was published, and no other has replaced it. -/
  | standing
  | replaced
  /-- Its death was looked up, or has found no pool, or was left in a queue that has ended. -/
  | leaving (left : Bool)
  /-- What was opened for it is closed. -/
  | gone (left : Bool)
deriving DecidableEq, Repr

/-- The death of the entry is told of in the log. -/
def Stage.departed : Stage → Bool
  | leaving left => !left
  | gone left => !left
  | _ => false

/-- What was opened for the entry is closed, and the log says so. -/
def Stage.isGone : Stage → Bool
  | gone _ => true
  | _ => false

/-- An event that names an entry takes it from one stage to the next. -/
inductive Tells (e : Entry) : Stage → LogEvent → Stage → Prop where
  | lose (X : Identity) : Tells e .fresh (.lostRace X e) .lost
  | loserCloseFailed (X : Identity) (error : IoError) :
      Tells e .lost (.loserCloseFailed X e error) .lost
  | publish (X : Identity) {replaced : Option Entry} (hr : replaced ≠ some e) :
      Tells e .fresh (.published X e replaced) .standing
  | replace (X : Identity) {e' : Entry} (he : e' ≠ e) :
      Tells e .standing (.published X e' (some e)) .replaced
  | drain (X : Identity) : Tells e .standing (.drained X e true) (.leaving false)
  | drainReplaced (X : Identity) : Tells e .replaced (.drained X e false) (.leaving false)
  | releaseInline (X : Identity) : Tells e .standing (.releasedInline X e) (.leaving false)
  | release (X : Identity) {left : Bool} : Tells e (.leaving left) (.released X e) (.gone left)
  | closeFailed (X : Identity) (error : IoError) {left : Bool} :
      Tells e (.leaving left) (.closeFailed X e error) (.gone left)

/-- What may be told of an entry in one step. -/
inductive Adds (e : Entry) : Stage → List LogEvent → Stage → Prop where
  | nothing {stage : Stage} : Adds e stage [] stage
  | event {stage stage' : Stage} {ev : LogEvent} (h : Tells e stage ev stage') :
      Adds e stage [ev] stage'
  /-- Its death was still in the queue when that ended. -/
  | leave : Adds e .standing [] (.leaving true)

/-- All that is told of an entry on its way to a stage, last first. -/
inductive Tale (e : Entry) : Stage → List LogEvent → Prop where
  | start : Tale e .fresh []
  | next {stage stage' : Stage} {ev : LogEvent} {l : List LogEvent} (h : Tale e stage l)
      (hev : Tells e stage ev stage') : Tale e stage' (ev :: l)
  | leave {l : List LogEvent} (h : Tale e .standing l) : Tale e (.leaving true) l

variable {e : Entry} {stage stage' : Stage} {ev : LogEvent} {l evs : List LogEvent}

/-- Nothing is told of the entry, and it stays. -/
theorem Adds.of_nil (hl : evs = []) (hs : stage' = stage) : Adds e stage evs stage' := by
  rw [hl, hs]
  exact .nothing

theorem Adds.of_event (hl : evs = [ev]) (h : Tells e stage ev stage') :
    Adds e stage evs stage' := hl ▸ .event h

namespace Tale

theorem append (h : Tale e stage l) (ha : Adds e stage evs stage') :
    Tale e stage' (evs ++ l) := by
  cases ha with
  | nothing => exact h
  | event hev => exact h.next hev
  | leave => exact h.leave

/-- The tale up to one of its events. -/
theorem of_append (h : Tale e stage (l ++ ev :: evs)) :
    ∃ before after, Tale e before evs ∧ Tells e before ev after := by
  generalize hl : l ++ ev :: evs = whole at h
  induction h generalizing l with
  | start => simp at hl
  | next h hev ih =>
    cases l with
    | nil =>
      obtain ⟨rfl, rfl⟩ := List.cons.inj hl
      exact ⟨_, _, h, hev⟩
    | cons ev' l => exact ih (List.cons.inj hl).2
  | leave _ ih => exact ih hl

/-! ### What a stage says of the events -/

/-- What stands in the table was published, and that is all. -/
theorem of_standing (h : Tale e .standing l) :
    ∃ X replaced, replaced ≠ some e ∧ l = [.published X e replaced] := by
  cases h with
  | next h hev =>
    cases hev with
    | publish X hr =>
      cases h with
      | start => exact ⟨X, _, hr, rfl⟩
      | next _ hev => cases hev

theorem of_replaced (h : Tale e .replaced l) :
    ∃ Y e' l', Tale e .standing l' ∧ l = .published Y e' (some e) :: l' := by
  cases h with
  | next h hev =>
    cases hev with
    | replace Y _ => exact ⟨Y, _, _, h, rfl⟩

theorem of_gone {left : Bool} (h : Tale e (.gone left) l) :
    ∃ ev l', Tale e (.leaving left) l' ∧ l = ev :: l' ∧ ev.isRelease ∧ ev.entry? = some e := by
  cases h with
  | next h hev =>
    cases hev with
    | release => exact ⟨_, _, h, rfl, rfl, rfl⟩
    | closeFailed => exact ⟨_, _, h, rfl, rfl, rfl⟩

/-- Once a race is lost, nothing comes after but the end of a close. -/
theorem eq_lost (h : Tale e stage l) {X : Identity} (hm : .lostRace X e ∈ l) : stage = .lost := by
  induction h with
  | start => cases hm
  | next h hev ih =>
    rcases List.mem_cons.1 hm with rfl | hm
    · cases hev
      rfl
    · obtain rfl := ih hm
      cases hev
      rfl
  | leave h ih => cases ih hm

theorem exists_published (h : Tale e stage l) (hs : stage ≠ .fresh) (hl : stage ≠ .lost) :
    ∃ X replaced, .published X e replaced ∈ l := by
  induction h with
  | start => exact absurd rfl hs
  | next h hev ih =>
    cases hev with
    | lose => exact absurd rfl hl
    | loserCloseFailed => exact absurd rfl hl
    | publish X => exact ⟨X, _, List.mem_cons_self⟩
    | _ =>
      obtain ⟨X, replaced, hm⟩ := ih (by simp) (by simp)
      exact ⟨X, replaced, List.mem_cons_of_mem _ hm⟩
  | leave h ih => exact ih (by simp) (by simp)

theorem tally_isDeparture (h : Tale e stage l) :
    tally LogEvent.isDeparture e l = if stage.departed then 1 else 0 := by
  induction h with
  | start => rfl
  | next h hev ih =>
    cases hev <;> simp_all [tally, Stage.departed, LogEvent.isDeparture, LogEvent.entry?]
  | leave h ih => simpa [Stage.departed] using ih

theorem tally_isRelease (h : Tale e stage l) :
    tally LogEvent.isRelease e l = if stage.isGone then 1 else 0 := by
  induction h with
  | start => rfl
  | next h hev ih =>
    cases hev <;> simp_all [tally, Stage.isGone, LogEvent.isRelease, LogEvent.entry?]
  | leave h ih => simpa [Stage.isGone] using ih

/-- An entry that stands in the table, or was never there, was not taken out of it; and an entry is
taken out once at the most. -/
theorem countP_unlists (h : Tale e stage l) :
    (stage = .fresh ∨ stage = .lost ∨ stage = .standing → l.countP (LogEvent.unlists e) = 0) ∧
      l.countP (LogEvent.unlists e) ≤ 1 := by
  induction h with
  | start => simp
  | next h hev ih => cases hev <;> simp_all [LogEvent.unlists]
  | leave h ih => exact ⟨by simp, ih.2⟩

/-- What has left was replaced just if its death was not to take a slot out. -/
theorem replaced_iff (h : Tale e stage l) {left : Bool}
    (hs : stage = .leaving left ∨ stage = .gone left) :
    (∃ Y e', .published Y e' (some e) ∈ l) ↔ ∃ X, .drained X e false ∈ l := by
  induction h with
  | start => simp at hs
  | leave h ih =>
    obtain ⟨Y, replaced, hr, rfl⟩ := h.of_standing
    simp [Ne.symm hr]
  | next h hev ih =>
    cases hev with
    | drain X =>
      obtain ⟨Y, replaced, hr, rfl⟩ := h.of_standing
      simp [Ne.symm hr]
    | releaseInline X =>
      obtain ⟨Y, replaced, hr, rfl⟩ := h.of_standing
      simp [Ne.symm hr]
    | drainReplaced X =>
      obtain ⟨Y, e', l', -, rfl⟩ := h.of_replaced
      exact iff_of_true ⟨Y, e', by simp⟩ ⟨X, by simp⟩
    | release X => simpa using ih (by simpa using hs)
    | closeFailed X error => simpa using ih (by simpa using hs)
    | _ => simp at hs

/-- What is drained was published, and is not to take a slot out just if another entry has. -/
theorem of_drained (h : Tale e stage l) {X : Identity} {removed : Bool}
    (hev : Tells e stage (.drained X e removed) stage') :
    (∃ Y replaced, .published Y e replaced ∈ l) ∧
      (removed = false ↔ ∃ Y e', .published Y e' (some e) ∈ l) := by
  have hpub := h.exists_published (by rintro rfl; cases hev) (by rintro rfl; cases hev)
  refine ⟨hpub, ?_⟩
  cases hev with
  | drain =>
    -- It still stands, so its publication is all that there is to tell.
    obtain ⟨Z, replaced, hr, rfl⟩ := h.of_standing
    refine iff_of_false (by simp) ?_
    rintro ⟨Y, e', hm⟩
    cases List.mem_singleton.1 hm
    exact hr rfl
  | drainReplaced =>
    obtain ⟨Y, e', l', -, rfl⟩ := h.of_replaced
    exact iff_of_true rfl ⟨Y, e', List.mem_cons_self⟩

/-- The end of a close comes last of all that is told of an entry, and one departure before it
unless the death was left in a queue. -/
theorem exists_release {left : Bool} (h : Tale e (.gone left) (told e l.reverse)) :
    ∃ earlier ev later, l = earlier ++ ev :: later ∧ ev.isRelease ∧ ev.entry? = some e ∧
      tally LogEvent.isRelease e (earlier ++ later) = 0 ∧
      tally LogEvent.isDeparture e earlier = (if left then 0 else 1) ∧
      tally LogEvent.isDeparture e later = 0 := by
  obtain ⟨ev, l', htale, hl, hev, he⟩ := h.of_gone
  obtain ⟨later, earlier, hsplit, hlater, -, rfl⟩ := List.filter_eq_cons_iff.1 hl
  have hnone : told e later.reverse = [] := by
    rw [told_reverse, told, List.filter_eq_nil_iff.2 hlater, List.reverse_nil]
  have hleaving : Tale e (.leaving left) (told e earlier.reverse.reverse) := by
    rw [List.reverse_reverse]
    exact htale
  refine ⟨earlier.reverse, ev, later.reverse, ?_, hev, he, ?_, ?_, tally_eq_zero_of_told hnone⟩
  · rw [← l.reverse_reverse, hsplit, List.reverse_append, List.reverse_cons, List.append_assoc,
      List.singleton_append]
  · rw [tally_append, tally_eq_zero_of_told hnone, ← tally_told_reverse, hleaving.tally_isRelease]
    rfl
  · rw [← tally_told_reverse, hleaving.tally_isDeparture]
    cases left <;> rfl

end Tale

end ReadPool
