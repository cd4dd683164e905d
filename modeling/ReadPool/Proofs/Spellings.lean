import Mathlib
import ReadPool.Proofs.Linearization
import ReadPool.Proofs.Openers
import ReadPool.Proofs.Release
import ReadPool.Proofs.Spelling

/-!
# Spellings and runs

Two runs in which the callers spell the same identities in different ways meet systems that differ
in spellings alone, and give answers that do. What a spelling shows in is a wrapper, which has that
of the acquisition that opened it, and the error of an open, which has that of the acquisition that
failed.
-/

namespace ReadPool

/-! ## The same in other spellings -/

structure RawHandle.Respelt (r r' : RawHandle σ) : Prop where
  identity : r.identity.Same r'.identity
  state : r.state = r'.state
  phase : r.phase = r'.phase

structure Note.Respelt (note note' : Note) : Prop where
  identity : note.identity.Same note'.identity
  entry : note.entry = note'.entry
  raw : note.raw = note'.raw

structure Wrapper.Respelt (x y : Wrapper) : Prop where
  identity : x.identity.Same y.identity
  entry : x.entry = y.entry
  home : x.home = y.home
  strong : x.strong = y.strong
  stream : x.stream = y.stream

structure Pool.Respelt (pool pool' : Pool) : Prop where
  slots : List.Forall₂ (fun e e' => e.1.Same e'.1 ∧ e.2 = e'.2) pool.slots.toList pool'.slots.toList
  next : pool.next = pool'.next
  queue : Option.Rel (List.Forall₂ Note.Respelt) pool.queue pool'.queue

/-- The same streams, wrappers, tables, queues and counters, and as much left to do. -/
structure System.Respelt (s s' : System σ) : Prop where
  raws : List.Forall₂ RawHandle.Respelt s.world.raws s'.world.raws
  wrappers : List.Forall₂ Wrapper.Respelt s.world.wrappers s'.world.wrappers
  pools : List.Forall₂ Pool.Respelt s.world.pools s'.world.pools
  held : s.held = s'.held
  depth : ∀ t, s.depth t = s'.depth t

/-- The same reference, or the same error. -/
inductive Answer.Respelt : Answer → Answer → Prop where
  | openFailed {X Y : Identity} (e : IoError) (h : X.Same Y) :
      Respelt (acquired (.error (.openFailed X e))) (acquired (.error (.openFailed Y e)))
  | same (answer : Answer) : Respelt answer answer

inductive Act.Respelt : Act σ → Act σ → Prop where
  | acquire {X Y : Identity} (t : ThreadId) (p : PoolId) (h : X.Same Y) :
      Respelt (.call t (.acquire p X)) (.call t (.acquire p Y))
  | same (a : Act σ) : Respelt a a

structure Moment.Respelt (m m' : Moment σ) : Prop where
  system : m.system.Respelt m'.system
  answer? : Option.Rel Answer.Respelt m.answer? m'.answer?

/-! ## One normal form -/

/-- Lists that are written anew in the same way have corresponding members. -/
theorem forall₂_of_map_eq {α β : Type*} {f : α → β} {R : α → α → Prop}
    (hf : ∀ a b, f a = f b → R a b) {l l' : List α} (h : l.map f = l'.map f) :
    List.Forall₂ R l l' := by
  rw [← List.forall₂_eq_eq_eq, List.forall₂_map_left_iff, List.forall₂_map_right_iff] at h
  exact h.imp hf

theorem rel_of_map_eq {α β : Type*} {f : α → β} {R : α → α → Prop}
    (hf : ∀ a b, f a = f b → R a b) {o o' : Option α} (h : o.map f = o'.map f) :
    Option.Rel R o o' := by
  cases o <;> cases o' <;> simp at h
  · exact .none
  · exact .some (hf _ _ h)

theorem Act.Respelt.normal_eq {a b : Act σ} (h : a.Respelt b) : a.normal = b.normal := by
  cases h with
  | acquire t p h =>
    rw [Act.normal, Act.normal, Call.normal, Call.normal, Identity.normal_eq_iff.2 h]
  | same => rfl

theorem RawHandle.respelt_of_normal_eq {r r' : RawHandle σ} (h : r.normal = r'.normal) :
    r.Respelt r' := by
  obtain ⟨hX, hs, hp⟩ := RawHandle.mk.injEq .. ▸ h
  exact ⟨Identity.normal_eq_iff.1 hX, hs, hp⟩

theorem Note.respelt_of_normal_eq {note note' : Note} (h : note.normal = note'.normal) :
    note.Respelt note' := by
  obtain ⟨hX, he, hr⟩ := Note.mk.injEq .. ▸ h
  exact ⟨Identity.normal_eq_iff.1 hX, he, hr⟩

theorem Wrapper.respelt_of_normal_eq {x y : Wrapper} (h : x.normal = y.normal) : x.Respelt y := by
  obtain ⟨hX, he, hp, hs, hr⟩ := Wrapper.mk.injEq .. ▸ h
  exact ⟨Identity.normal_eq_iff.1 hX, he, hp, hs, hr⟩

theorem Pool.respelt_of_normal_eq {pool pool' : Pool} (h : pool.normal = pool'.normal) :
    pool.Respelt pool' := by
  obtain ⟨hs, hn, hq, -⟩ := Pool.mk.injEq .. ▸ h
  refine ⟨forall₂_of_map_eq (fun e e' he => ?_) (congrArg Slots.toList hs), hn,
    rel_of_map_eq (fun _ _ hnotes => ?_) hq⟩
  · obtain ⟨hX, hslot⟩ := Prod.mk.injEq .. ▸ he
    exact ⟨Identity.normal_eq_iff.1 hX, hslot⟩
  · exact forall₂_of_map_eq (fun _ _ => Note.respelt_of_normal_eq) hnotes

theorem Answer.respelt_of_normal_eq {answer answer' : Answer}
    (h : answer.normal = answer'.normal) : answer.Respelt answer' := by
  -- Only the errors of opens have a spelling.
  have error {e e' : PoolError} (he : e.normal = e'.normal) :
      Respelt (acquired (.error e)) (acquired (.error e')) := by
    cases e with
    | openFailed X io =>
      cases e' with
      | openFailed Y io' =>
        obtain ⟨hX, rfl⟩ := PoolError.openFailed.inj he
        exact .openFailed io (Identity.normal_eq_iff.1 hX)
      | _ => cases he
    | _ =>
      cases e' <;> cases he
      exact .same _
  unfold normal at h
  split at h <;> split at h
  · exact error (Except.error.inj (acquired.inj h))
  · next hne => exact absurd h.symm (hne _)
  · next hne _ _ => exact absurd h (hne _)
  · exact h ▸ .same _

namespace System

variable {s s' : System σ}

theorem depth_normal (s : System σ) (t : ThreadId) : s.normal.depth t = s.depth t := by
  rw [depth, depth, getElem?_threads_normal]
  cases s.threads[t]? <;> simp

theorem respelt_of_normal_eq (h : s.normal = s'.normal) : s.Respelt s' where
  raws := forall₂_of_map_eq (fun _ _ => RawHandle.respelt_of_normal_eq)
    (congrArg (fun s : System σ => s.world.raws) h)
  wrappers := forall₂_of_map_eq (fun _ _ => Wrapper.respelt_of_normal_eq)
    (congrArg (fun s : System σ => s.world.wrappers) h)
  pools := forall₂_of_map_eq (fun _ _ => Pool.respelt_of_normal_eq)
    (congrArg (fun s : System σ => s.world.pools) h)
  held := by
    change s.normal.held = s'.normal.held
    rw [h]
  depth t := by rw [← depth_normal s, h, depth_normal]

end System

theorem Moment.respelt_of_normal_eq {m m' : Moment σ} (h : m.normal = m'.normal) :
    m.Respelt m' where
  system := System.respelt_of_normal_eq (congrArg Moment.system h)
  answer? := rel_of_map_eq (fun _ _ => Answer.respelt_of_normal_eq) <| by
    rw [← answer?_normal, h, answer?_normal]

namespace System

/-- Runs with other spellings go the same way. -/
theorem respelt_run {acts acts' : List (Act σ)} (h : List.Forall₂ Act.Respelt acts acts') :
    Option.Rel Respelt (({} : System σ).run? acts) (({} : System σ).run? acts') ∧
      List.Forall₂ Moment.Respelt (({} : System σ).moments acts)
        (({} : System σ).moments acts') := by
  have hacts : acts.map Act.normal = acts'.map Act.normal := by
    rw [← List.forall₂_eq_eq_eq, List.forall₂_map_left_iff, List.forall₂_map_right_iff]
    exact h.imp fun _ _ => Act.Respelt.normal_eq
  -- What is there at the start has no identities, so it is its own normal form.
  have hstart : ({} : System σ).normal = {} := rfl
  constructor
  · refine rel_of_map_eq (fun _ _ => respelt_of_normal_eq) ?_
    rw [← run?_normal, ← run?_normal, hacts]
  · refine forall₂_of_map_eq (fun _ _ => Moment.respelt_of_normal_eq) ?_
    rw [← moments_normal, ← moments_normal, hacts]

/-- Identities count as what they name, however they are spelled. Two runs whose acquisitions have
other spellings meet the same systems and give the same answers, but for spellings. What is spelled
in a run is spelled as it was in a call: a wrapper has the identity of the one acquisition that has
opened it, an acquisition is given a wrapper of the identity that it asks for, and if its open fails
the error names the identity as it is asked for. -/
theorem spelling_irrelevant :
    (∀ acts acts' : List (Act σ), List.Forall₂ Act.Respelt acts acts' →
      Option.Rel Respelt (({} : System σ).run? acts) (({} : System σ).run? acts') ∧
        List.Forall₂ Moment.Respelt (({} : System σ).moments acts)
          (({} : System σ).moments acts')) ∧
    (∀ (ms : List (Moment σ)) (s : System σ) (h : WrapperId) (x : Wrapper), Run {} ms s →
      s.world.wrappers[h]? = some x →
      ∃ raw, .wrapped x.home h raw ∈ s.history ∧
        ∀ p X, OpenedBy ms p X raw ↔ p = x.home ∧ X = x.identity) ∧
    ∀ (s₀ s : System σ) (t : ThreadId) (p : PoolId) (X : Identity) (ms : List (Moment σ)),
      s₀.Reachable → Called s₀ t (.acquire p X) ms s → s.depth t = s₀.depth t →
      ∃ m earlier result, ms = m :: earlier ∧ m.isOwn t (s₀.depth t) ∧
        m.answer? = some (.acquired result) ∧
        (∀ h, result = .ok h → ∃ x, s.world.wrappers[h]? = some x ∧ x.identity.Same X) ∧
        ∀ e, result = .error e → ∃ io, e = .openFailed X io := by
  refine ⟨fun acts acts' => respelt_run, fun ms s h x hrun hx => ?_,
    fun s₀ s t p X ms hs hcalled hover => ?_⟩
  · have hs := hrun.reachable .start
    obtain ⟨raw, hwrapped⟩ := hs.valid.owned.wrapped_home hx
    have hopened := hs.valid.owned.opened_of_wrapped hwrapped
    have hlabel := hs.labelled.wrapped x.home h raw x hwrapped hx
    refine ⟨raw, hwrapped, fun p X => ⟨fun ho => ?_, ?_⟩⟩
    · exact ⟨hs.valid.owned.opened_inj (ho.opened_mem hrun) hopened,
        (ho.openedFor hrun).inj hlabel⟩
    · rintro ⟨rfl, rfl⟩
      obtain ⟨Y, ho⟩ := hrun.exists_openedBy hopened
      obtain rfl : Y = x.identity := (ho.openedFor hrun).inj hlabel
      exact ho
  · obtain ⟨s', a, earlier, below, own, turn, rfl, hd, hmoves, hframes⟩ :=
      hcalled.exists_moves_last hs.sound hover
    obtain ⟨result, hanswer, hok, herror⟩ :=
      hmoves.answered (hcalled.sound hs.sound) hframes
    refine ⟨_, _, result, rfl, hd ▸ hmoves.isOwn, hanswer, fun h he => ?_, fun e he => ?_⟩
    · obtain ⟨-, x, hx⟩ := hok h he
      exact ⟨x, hx.wrapper, hx.identity⟩
    · obtain ⟨io, -, rfl, -⟩ := herror e he
      exact ⟨io, rfl⟩

/-- A file is acquired twice. -/
def visiting (first second : String) : List (Act Unit) :=
  [.spawn, .newPool {}, .call 0 (.acquire 0 ⟨.ofString first⟩), .turn 0, .turn 0,
    .opened 0 (.ok ()), .turn 0, .turn 0, .call 0 (.acquire 0 ⟨.ofString second⟩), .turn 0, .turn 0]

theorem isSome_run_visiting : (({} : System Unit).run? (visiting "//a/." "/a")).isSome := by
  decide +kernel

/-- It was acquired first under one spelling, then under another. -/
def visited : System Unit :=
  (({} : System Unit).run? (visiting "//a/." "/a")).get isSome_run_visiting

/-- Another file cannot be opened. -/
def refusing : List (Act Unit) :=
  [.call 0 (.acquire 0 ⟨.ofString "b//"⟩), .turn 0, .turn 0, .opened 0 (.error .noEntry)]

theorem isSome_run_refusing : (visited.run? refusing).isSome := by decide +kernel

theorem spelling_irrelevant_visited :
    List.Forall₂ Act.Respelt (visiting "/a" "//a") (visiting "//a/." "/a") ∧
    Option.Rel Respelt (({} : System Unit).run? (visiting "/a" "//a")) (some visited) ∧
    (∃ raw, OpenedBy (({} : System Unit).moments (visiting "//a/." "/a")) 0 ⟨.ofString "//a/."⟩ raw) ∧
    ∃ s ms, visited.run? refusing = some s ∧
      Called visited 0 (.acquire 0 ⟨.ofString "b//"⟩) ms s ∧
      ∃ m earlier result, ms = m :: earlier ∧ m.answer? = some (.acquired result) ∧
        ∀ e, result = .error e → ∃ io, e = .openFailed ⟨.ofString "b//"⟩ io := by
  have hrun : ({} : System Unit).run? (visiting "//a/." "/a") = some visited :=
    (Option.some_get isSome_run_visiting).symm
  have hrefuse := (Option.some_get isSome_run_refusing).symm
  have hcall : Called visited 0 _ _ _ := called_of_run? hrefuse (by decide +kernel)
  have hacts : List.Forall₂ Act.Respelt (visiting "/a" "//a") (visiting "//a/." "/a") :=
    .cons (.same _) <| .cons (.same _) <| .cons (.acquire 0 0 (by decide +kernel)) <|
      .cons (.same _) <| .cons (.same _) <| .cons (.same _) <| .cons (.same _) <|
      .cons (.same _) <| .cons (.acquire 0 0 (by decide +kernel)) <| .cons (.same _) <|
      .cons (.same _) .nil
  refine ⟨hacts, ?_, ?_, _, _, hrefuse, hcall, ?_⟩
  · exact hrun ▸ (spelling_irrelevant.1 _ _ hacts).1
  · obtain ⟨raw, -, hopened⟩ := spelling_irrelevant.2.1 _ _ 0
      ⟨⟨.ofString "//a/."⟩, 0, 0, 2, some 0⟩ (run_moments hrun) (by decide +kernel)
    exact ⟨raw, (hopened 0 _).2 ⟨rfl, rfl⟩⟩
  · obtain ⟨m, earlier, result, hms, -, hanswer, -, herror⟩ :=
      spelling_irrelevant.2.2 visited _ 0 0 _ _ ⟨_, hrun⟩ hcall (by decide +kernel)
    exact ⟨m, earlier, result, hms, hanswer, herror⟩

end System

end ReadPool
