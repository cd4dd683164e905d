import Mathlib
import ReadPool.Proofs.Reachable

/-!
# One live wrapper for an identity

As long as the numbers of a pool last, a wrapper that it has published and that somebody
references is the one that the table leads to, by whatever spelling. So whoever acquires the same
identity shares one wrapper, and nothing that a thread does takes the slot away from under them.
-/

namespace ReadPool.System

variable {σ : Type*} {s : System σ} {p : PoolId}

theorem Reachable.liveIn_of_held (hs : s.Reachable) {X : Identity} {h : WrapperId}
    (ha : .acquired p X h ∈ s.history) (hh : h ∈ s.held) :
    ∃ x, s.scene.LiveIn p h x ∧ x.identity.Same X := by
  obtain ⟨hpub, x, hx, hp, hX⟩ := hs.valid.grounded.acquired p X h ha
  have hpos := hs.valid.referenced.strong_pos_of_held (Multiset.mem_coe.2 hh)
  exact ⟨x, ⟨hx, hp, hpub, World.strong_eq hx ▸ hpos⟩, hX⟩

/-- A pool that has opened fewer than `2 ^ 64` handles leads each identity to its one live wrapper:
the slot is there and carries the wrapper's entry, two references to what is the same are
references to one wrapper, and no act takes or replaces the slot while the pool is up. -/
theorem live_wrapper_unique (hs : s.Reachable) (hp : opensOf p s.history < 2 ^ 64) :
    (∀ (h : WrapperId) (x : Wrapper) (X : Identity), s.world.wrappers[h]? = some x → x.home = p →
      .published h ∈ s.history → x.identity.Same X → 0 < x.strong → s.world.isUp p →
      s.world.slot? p X = some ⟨x.entry, h⟩) ∧
    (∀ (X Y : Identity) (h k : WrapperId), .acquired p X h ∈ s.history →
      .acquired p Y k ∈ s.history → X.Same Y → h ∈ s.held → k ∈ s.held → h = k) ∧
    (∀ (a : Act σ) (s' : System σ) (X : Identity) (slot : Slot), s.next? a = some s' →
      s'.world.isUp p → s.world.slot? p X = some slot → s.world.isLive slot.wrapper →
      s'.world.slot? p X = some slot) := by
  have hv := hs.valid
  refine ⟨?_, ?_, ?_⟩
  · intro h x X hx hhome hpub hX hpos hup
    rw [← World.slot?_congr hX]
    exact hv.tabled.live p h x hp hup ⟨hx, hhome, hpub, hpos⟩
  · intro X Y h k hX hY hXY hh hk
    obtain ⟨x, hlx, hx⟩ := hs.liveIn_of_held hX hh
    obtain ⟨y, hly, hy⟩ := hs.liveIn_of_held hY hk
    exact hv.tabled.unique p h k x y hp hlx hly (hx.trans (hXY.trans hy.symm))
  · intro a s' X slot ha hup hslot hlive
    exact (hs.scene_next ha).slot?_of_live hv.mourned hv.grounded hv.numbered hv.owned hp hup hslot
      (World.isLive_iff.1 hlive)

/-- A thread acquires a file that another one holds, under another spelling. -/
def sharing : List (Act Unit) :=
  [.spawn, .spawn, .newPool {}, .call 0 (.acquire 0 ⟨.ofString "/a"⟩), .turn 0, .turn 0,
    .opened 0 (.ok ()), .turn 0, .turn 0, .call 1 (.acquire 0 ⟨.ofString "//a/."⟩), .turn 1,
    .turn 1]

theorem isSome_run_sharing : (({} : System Unit).run? sharing).isSome := by decide +kernel

/-- Two references to one wrapper. -/
def shared : System Unit := (({} : System Unit).run? sharing).get isSome_run_sharing

theorem reachable_shared : shared.Reachable := ⟨sharing, (Option.some_get _).symm⟩

theorem live_wrapper_unique_shared :
    shared.Reachable ∧ opensOf 0 shared.history < 2 ^ 64 ∧
    shared.world.slot? 0 ⟨.ofString "/./a"⟩ = some ⟨0, 0⟩ ∧
    (∀ h k, .acquired 0 ⟨.ofString "/a"⟩ h ∈ shared.history →
      .acquired 0 ⟨.ofString "//a/."⟩ k ∈ shared.history → h ∈ shared.held → k ∈ shared.held →
      h = k) ∧
    (.acquired 0 ⟨.ofString "/a"⟩ 0 ∈ shared.history ∧
      .acquired 0 ⟨.ofString "//a/."⟩ 0 ∈ shared.history ∧ shared.held = [0, 0]) ∧
    ∃ s', shared.next? (.call 0 (.purge 0)) = some s' ∧
      s'.world.slot? 0 ⟨.ofString "/a"⟩ = some ⟨0, 0⟩ := by
  have hp : opensOf 0 shared.history < 2 ^ 64 := by decide +kernel
  obtain ⟨hslot, hsame, hkeep⟩ := live_wrapper_unique reachable_shared hp
  have hnext : (shared.next? (.call 0 (.purge 0))).isSome := by decide +kernel
  refine ⟨reachable_shared, hp, ?_, fun h k hh hk => hsame _ _ h k hh hk (by decide +kernel), ?_,
    ⟨_, (Option.some_get hnext).symm, ?_⟩⟩
  · exact hslot 0 ⟨⟨.ofString "/a"⟩, 0, 0, 2, some 0⟩ _ (by decide +kernel) rfl (by decide +kernel)
      (by decide +kernel) (by decide) (by unfold World.isUp; decide +kernel)
  · decide +kernel
  · exact hkeep (.call 0 (.purge 0)) _ _ ⟨0, 0⟩ (Option.some_get hnext).symm
      (by unfold World.isUp; decide +kernel +revert) (by decide +kernel) (by decide +kernel)

end ReadPool.System
