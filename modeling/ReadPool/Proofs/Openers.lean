import Mathlib
import ReadPool.Proofs.Acquiring
import ReadPool.Proofs.Labels

/-!
# The acquisition that opens

A look-up, an open, what is done with its result: each frame of an acquisition that a thread still
has belongs to a call that the thread has made, and the height at which it stands tells which. So
each raw handle has been opened by one call's own act, and the wrapper that it was put into has the
identity that was asked for in that call, in the same spelling.
-/

namespace ReadPool

/-- What is acquired, and from which pool, by the acquisition that a frame belongs to. -/
def Frame.acquires? : Frame → Option (PoolId × Identity)
  | lookUp p X => some (p, X)
  | opening p X _ => some (p, X)
  | wrap p X _ _ => some (p, X)
  | publish p X _ _ => some (p, X)
  | _ => none

def Call.acquires? : Call → Option (PoolId × Identity)
  | acquire p X => some (p, X)
  | _ => none

section Turns

variable {w : World σ} {f g j k : Frame} {rest below : List Frame} {turn : Turn σ} {a : Act σ}
  {pX : PoolId × Identity} {kind : Option (PoolId × Identity)}

/-- A frame takes the place of another, for the same acquisition or for none. -/
theorem acquires?_one (hg : g :: below <:+ k :: rest) (hacq : g.acquires? = some pX)
    (hk : k.acquires? = none ∨ k.acquires? = kind) :
    g :: below <:+ rest ∨ below = rest ∧ kind = some pX := by
  rcases List.suffix_cons_iff.1 hg with heq | hold
  · cases heq
    rcases hk with hk | hk
    · simp [hk] at hacq
    · exact .inr ⟨rfl, hk ▸ hacq⟩
  · exact .inl hold

theorem acquires?_cons (hg : g :: below <:+ k :: rest) (hacq : g.acquires? = some pX)
    (hk : k.acquires? = none) : g :: below <:+ rest := by
  rcases List.suffix_cons_iff.1 hg with heq | hold
  · cases heq
    simp [hk] at hacq
  · exact hold

theorem acquires?_two (hg : g :: below <:+ j :: k :: rest) (hacq : g.acquires? = some pX)
    (hj : j.acquires? = none) (hk : k.acquires? = none ∨ k.acquires? = kind) :
    g :: below <:+ rest ∨ below = rest ∧ kind = some pX :=
  acquires?_one (acquires?_cons hg hacq hj) hacq hk

theorem Call.acquires?_frames {c : Call} (hg : g :: below <:+ c.frames ++ rest)
    (hacq : g.acquires? = some pX) :
    g :: below <:+ rest ∨ below = rest ∧ c.acquires? = some pX := by
  cases c with
  | acquire p X => exact acquires?_two hg hacq rfl (.inr rfl)
  | dropPool p => exact acquires?_two (acquires?_cons hg hacq rfl) hacq rfl (.inl rfl)
  | _ => exact acquires?_one hg hacq (.inl rfl)

/-- A frame of an acquisition that a thread has after it has gone on was there before, or stands
where one of the same acquisition has stood. -/
theorem World.Yields.acquires? (h : w.Yields (f :: rest) turn)
    (hg : g :: below <:+ turn.frames) (hacq : g.acquires? = some pX) :
    g :: below <:+ rest ∨ below = rest ∧ f.acquires? = some pX := by
  cases h with
  | received => exact acquires?_two hg hacq rfl (.inl rfl)
  | flushing => exact acquires?_two hg hacq rfl (.inl rfl)
  | lost => exact acquires?_two hg hacq rfl (.inr rfl)
  | missed | opened | wrapped => exact acquires?_one hg hacq (.inr rfl)
  | drained | found | openFailed | published | dropped | closed | posted | retired | flushed =>
    exact .inl hg
  | _ => exact acquires?_one hg hacq (.inl rfl)

theorem Turn.opening_of_opened {frames : List Frame} {p : PoolId} {raw : RawId}
    (h : .opened p raw ∈ turn.events w frames) : raw = w.raws.length ∧
      ∃ X observed rest, frames = .opening p X observed :: rest := by
  cases frames with
  | nil => cases h
  | cons f frames =>
    cases f with
    | opening q X observed =>
      simp only [events] at h
      split at h
      · obtain ⟨rfl, rfl⟩ : p = q ∧ raw = w.raws.length := by simpa using h
        exact ⟨rfl, X, observed, frames, rfl⟩
      · cases h
    | receive q n =>
      simp only [events] at h
      split at h <;> simp at h
    | lookUp q X =>
      simp only [events] at h
      split at h <;> simp at h
    | publish q X observed k =>
      simp only [events] at h
      split at h <;> simp at h
    | post home note =>
      simp only [events] at h
      split at h <;> simp at h
    | _ => simp [events] at h

end Turns

namespace System

variable {s₀ s s' : System σ} {ms : List (Moment σ)} {a : Act σ} {t : ThreadId} {p : PoolId}
  {X : Identity} {raw : RawId} {frames below : List Frame} {f : Frame} {height : Nat}

theorem Called.next {c : Call} (h : Called s₀ t c ms s) (hlt : s₀.depth t < s.depth t)
    (ha : s.next? a = some s') : Called s₀ t c (⟨s, a⟩ :: ms) s' := by
  obtain ⟨s₁, hcall, hrun⟩ := h.run
  exact ⟨⟨s₁, hcall, hrun.next ha⟩, List.forall_mem_cons.2 ⟨hlt, h.going⟩⟩

/-- Among the moments is the call, not answered yet, that the frames of the thread from this height
on belong to. -/
def AcquiredBy (ms : List (Moment σ)) (s : System σ) (t : ThreadId) (p : PoolId) (X : Identity)
    (height : Nat) : Prop :=
  ∃ during before s₁, ms = during ++ ⟨s₁, .call t (.acquire p X)⟩ :: before ∧
    Called s₁ t (.acquire p X) during s ∧ s₁.depth t = height

/-- The raw handle was opened by an act of its own of an acquisition of `X` from `p`. -/
def OpenedBy (ms : List (Moment σ)) (p : PoolId) (X : Identity) (raw : RawId) : Prop :=
  ∃ later m earlier t height, ms = later ++ m :: earlier ∧
    AcquiredBy earlier m.system t p X height ∧ m.isOwn t height ∧ .opened p raw ∈ m.events

theorem AcquiredBy.next (h : AcquiredBy ms s t p X height) (hlt : height < s.depth t)
    (ha : s.next? a = some s') : AcquiredBy (⟨s, a⟩ :: ms) s' t p X height := by
  obtain ⟨during, before, s₁, rfl, hcalled, hd⟩ := h
  exact ⟨⟨s, a⟩ :: during, before, s₁, rfl, hcalled.next (hd ▸ hlt) ha, hd⟩

/-- A frame of an acquisition belongs to a call. -/
theorem Run.acquiredBy (h : Run ({} : System σ) ms s) (ht : s.threads[t]? = some frames)
    (hf : f :: below <:+ frames) (hacq : f.acquires? = some (p, X)) :
    AcquiredBy ms s t p X below.length := by
  induction h generalizing frames f with
  | refl => simp at ht
  | @next ms s s' a hrun ha ih =>
    -- What was there before is a frame of the same call, and the call goes on.
    have keep {f : Frame} {frames : List Frame} (ht : s.threads[t]? = some frames)
        (hf : f :: below <:+ frames) (hacq : f.acquires? = some (p, X)) :
        AcquiredBy (⟨s, a⟩ :: ms) s' t p X below.length := by
      refine (ih ht hf hacq).next ?_ ha
      rw [depth, ht, Option.getD_some]
      exact hf.length_le
    cases hthread : a.thread? with
    | some t' =>
      obtain ⟨frames', turn, hframes, hturn, rfl, -, -⟩ := exists_turn hthread ha
      by_cases htt : t' = t
      · subst htt
        obtain rfl : turn.frames = frames := by
          simpa [take, (List.getElem?_eq_some_iff.1 hframes).1] using ht
        cases frames' with
        | nil => cases a <;> cases hturn
        | cons f' rest =>
          rcases (Act.yields_turn hturn).acquires? hf hacq with hold | ⟨rfl, hsame⟩
          · exact keep hframes (hold.trans (List.suffix_cons f' rest)) hacq
          · exact keep hframes (List.suffix_refl _) hsame
      · refine keep ?_ hf hacq
        simpa [take, List.getElem?_set_ne htt] using ht
    | none =>
      obtain ⟨-, -, hsame | hspawn | ⟨t', c, frames', rfl, ht', -, hcall⟩⟩ := exists_call hthread ha
      · exact keep (hsame ▸ ht) hf hacq
      · rw [hspawn, List.getElem?_append] at ht
        split at ht
        · exact keep ht hf hacq
        · -- A thread that was just made has nothing to do.
          obtain rfl : frames = [] := List.mem_singleton.1 (List.mem_of_getElem? ht)
          simp at hf
      · by_cases htt : t' = t
        · subst htt
          obtain rfl : c.frames ++ frames' = frames := by
            simpa [hcall, (List.getElem?_eq_some_iff.1 ht').1] using ht
          rcases Call.acquires?_frames hf hacq with hold | ⟨rfl, hc⟩
          · exact keep ht' hold hacq
          · obtain rfl : c = .acquire p X := by cases c <;> cases hc; rfl
            exact ⟨[], ms, s, rfl, .start ha, by simp [depth, ht']⟩
        · refine keep ?_ hf hacq
          simpa [hcall, List.getElem?_set_ne htt] using ht

/-- It is an opener at work that opens. -/
theorem exists_opening {m : Moment σ} (h : .opened p raw ∈ m.events) :
    ∃ t X observed rest, m.act.thread? = some t ∧
      m.system.threads[t]? = some (.opening p X observed :: rest) := by
  cases hturn : m.turn? with
  | none => simp [Moment.events, hturn] at h
  | some turn =>
    rw [Moment.events, hturn, Option.map_some, Option.getD_some] at h
    obtain ⟨-, X, observed, rest, hframes⟩ := Turn.opening_of_opened h
    rw [Moment.frames] at hframes
    cases ht : m.act.thread? with
    | none => simp [ht] at hframes
    | some t =>
      refine ⟨t, X, observed, rest, rfl, ?_⟩
      rw [ht, Option.bind_some] at hframes
      cases hthread : m.system.threads[t]? with
      | none => simp [hthread] at hframes
      | some frames => rw [← hframes, hthread, Option.getD_some]

theorem Run.exists_openedBy (h : Run ({} : System σ) ms s) (hraw : .opened p raw ∈ s.history) :
    ∃ X, OpenedBy ms p X raw := by
  have hmem : .opened p raw ∈ ms.flatMap Moment.events := by
    rw [h.history] at hraw
    simpa using hraw
  obtain ⟨m, hm, hraw⟩ := List.mem_flatMap.1 hmem
  obtain ⟨later, earlier, rfl⟩ := List.append_of_mem hm
  obtain ⟨t, X, observed, rest, hthread, ht⟩ := exists_opening hraw
  obtain ⟨s₂, hearlier, -⟩ := run_append_iff.1 h
  cases hearlier with
  | @next _ s₁ _ a hearlier ha =>
    refine ⟨X, later, _, earlier, t, rest.length, rfl, ?_, ?_, hraw⟩
    · exact hearlier.acquiredBy ht (List.suffix_refl _) rfl
    · have hframes : (⟨s₁, a⟩ : Moment σ).frames = .opening p X observed :: rest := by
        rw [Moment.frames, hthread, Option.bind_some, ht, Option.getD_some]
      simp [Moment.isOwn, hframes, hthread]

theorem OpenedBy.opened_mem (ho : OpenedBy ms p X raw) (h : Run ({} : System σ) ms s) :
    .opened p raw ∈ s.history := by
  obtain ⟨later, m, earlier, -, -, rfl, -, -, hraw⟩ := ho
  rw [h.history, List.mem_append, List.mem_flatMap]
  exact .inl ⟨m, by simp, hraw⟩

theorem OpenedBy.openedFor (ho : OpenedBy ms p X raw) (h : Run ({} : System σ) ms s) :
    s.scene.OpenedFor raw X := by
  obtain ⟨later, ⟨s₁, a⟩, earlier, t, _, rfl, ⟨during, before, s₀, rfl, hcalled, rfl⟩, hown,
    hraw⟩ := ho
  obtain ⟨s₂, hearlier, hlater⟩ := run_append_iff.1 h
  cases hearlier with
  | next hearlier ha =>
    obtain ⟨s₀', hbefore, -⟩ := run_append_iff.1 hearlier
    cases hbefore with
    | next hbefore hcall =>
      have hs₀ : Sound s₀ := hbefore.sound Reachable.start.sound
      obtain ⟨below, own, nested, hd, hacq⟩ := hcalled.acquires hs₀
      have hs₁ := hcalled.sound hs₀
      have hlt : below.length < s₁.depth t := by
        simp only [Moment.isOwn, Bool.and_eq_true, decide_eq_true_eq] at hown
        rw [hd]
        simpa [Moment.frames, depth, hown.1.1] using hown.1.2
      obtain ⟨-, ⟨turn, hmoves, -⟩ | ⟨hother, -⟩⟩ := hacq.next hs₁ hlt ha
      · have hopened : s₂.scene.OpenedFor raw X := by
          rw [hmoves.events] at hraw
          obtain ⟨rfl, Y, observed, rest, hopening⟩ := Turn.opening_of_opened hraw
          rw [Scene.OpenedFor, scene, hmoves.world]
          cases hmoves.move with
          | opened state => exact ⟨{ identity := X, state }, by simp [World.addRaw], rfl⟩
          | openFailed e => simp [Turn.events] at hraw
          | drain hF => cases hF <;> cases hopening
          | _ => cases hopening
        exact hlater.keeps (P := fun sc => sc.OpenedFor raw X) (hs₁.next ha) hopened
          fun _ _ hs hr => hs.openedFor hr
      · rw [hd] at hother
        simp [hother] at hown

end System

end ReadPool
