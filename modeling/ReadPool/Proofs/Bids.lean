import Mathlib
import ReadPool.Proofs.Slots
import ReadPool.Proofs.Turns

/-!
# Bids for a slot

Wrappers of one identity that want its slot, each with what it has observed there. A bid wins if the
slot still is as it was observed, and changes nothing otherwise. So of any number of bids the ones
that win replace each other, one by one (`publish_compares_and_sets`).

Entries are new in every bid, so a slot that has changed is never again as it was before, and what
has been observed once is good for one win.
-/

namespace ReadPool

/-- One attempt to publish: the identity as it is spelled, what was observed in its slot, and the
slot to be put there. -/
structure Bid where
  identity : Identity
  observed : Option Entry
  slot : Slot
deriving DecidableEq

namespace Slots

/-- The entry in the slot of an identity, which is what an observation tells. -/
def standing? (s : Slots) (X : Identity) : Option Entry := (s.find? X).map Slot.entry

/-- The bid is published. -/
def wins (s : Slots) (b : Bid) : Bool := (s.publish b.identity b.observed b.slot).isSome

/-- The table after a bid, which is the same table if the bid does not win. -/
def bid (s : Slots) (b : Bid) : Slots := (s.publish b.identity b.observed b.slot).getD s

/-- The table after all the bids, first things first. -/
def bidAll (s : Slots) (bids : List Bid) : Slots := bids.foldl bid s

/-- The bids that win, each where its turn comes. -/
def winners (s : Slots) : List Bid → List Bid
  | [] => []
  | b :: bids => if s.wins b then b :: (s.bid b).winners bids else (s.bid b).winners bids

variable {s : Slots} {X Y : Identity} {b : Bid} {bids : List Bid}

/-! ## One bid -/

theorem standing?_congr (s : Slots) (h : X.Same Y) : s.standing? X = s.standing? Y := by
  rw [standing?, standing?, s.find?_congr h]

theorem wins_iff : s.wins b ↔ s.standing? b.identity = b.observed := by
  rw [wins, ← not_iff_not, Bool.not_eq_true, Option.isSome_eq_false_iff, Option.isNone_iff_eq_none]
  exact publish_eq_none_iff

theorem bid_of_loses (h : ¬ s.wins b) : s.bid b = s := by
  rw [wins, Bool.not_eq_true, Option.isSome_eq_false_iff, Option.isNone_iff_eq_none] at h
  rw [bid, h, Option.getD_none]

theorem publish_of_wins (h : s.wins b) :
    s.publish b.identity b.observed b.slot = some (s.bid b) := by
  obtain ⟨s', hs'⟩ := Option.isSome_iff_exists.1 h
  rw [bid, hs', Option.getD_some]

theorem find?_bid (s : Slots) (b : Bid) (Y : Identity) :
    (s.bid b).find? Y = if s.wins b ∧ b.identity.Same Y then some b.slot else s.find? Y := by
  by_cases h : s.wins b
  · simpa [h] using find?_publish (publish_of_wins h) Y
  · simp [bid_of_loses h, h]

theorem standing?_bid_of_wins (h : s.wins b) (hX : b.identity.Same X) :
    (s.bid b).standing? X = some b.slot.entry := by
  rw [standing?, find?_bid, if_pos ⟨h, hX⟩, Option.map_some]

/-- A winner has observed what was there. -/
theorem observed_of_wins (h : s.wins b) (hX : b.identity.Same X) : b.observed = s.standing? X := by
  rw [← wins_iff.1 h, s.standing?_congr hX]

/-! ## Bids one after the other -/

@[simp] theorem bidAll_cons (s : Slots) (b : Bid) (bids : List Bid) :
    s.bidAll (b :: bids) = (s.bid b).bidAll bids := rfl

theorem bidAll_concat (s : Slots) (bids : List Bid) (b : Bid) :
    s.bidAll (bids ++ [b]) = (s.bidAll bids).bid b := by
  simp [bidAll]

theorem winners_of_wins (h : s.wins b) :
    s.winners (b :: bids) = b :: (s.bid b).winners bids := by
  rw [winners, if_pos h]

theorem winners_of_loses (h : ¬ s.wins b) : s.winners (b :: bids) = s.winners bids := by
  rw [winners, if_neg h, bid_of_loses h]

theorem find?_bidAll_of_not_same (hX : ∀ b ∈ bids, b.identity.Same X) (hY : ¬ X.Same Y) :
    (s.bidAll bids).find? Y = s.find? Y := by
  induction bids generalizing s with
  | nil => rfl
  | cons b bids ih =>
    obtain ⟨hb, hrest⟩ := List.forall_mem_cons.1 hX
    rw [bidAll_cons, ih hrest, find?_bid, if_neg fun h => hY (hb.symm.trans h.2)]

/-- In the slot is what the last winner has put there. -/
theorem find?_bidAll (hX : ∀ b ∈ bids, b.identity.Same X) : (s.bidAll bids).find? X
    = ((s.winners bids).getLast?.map Bid.slot).or (s.find? X) := by
  induction bids generalizing s with
  | nil => rfl
  | cons b bids ih =>
    obtain ⟨hb, hrest⟩ := List.forall_mem_cons.1 hX
    rw [bidAll_cons, ih hrest, find?_bid]
    by_cases hwins : s.wins b
    · rw [if_pos ⟨hwins, hb⟩, winners_of_wins hwins, List.getLast?_cons]
      cases (Slots.winners (s.bid b) bids).getLast? <;> rfl
    · rw [if_neg fun h => hwins h.1, winners_of_loses hwins, bid_of_loses hwins]

/-- The first winner has observed what was there before all bids. -/
theorem observed_of_head?_winners (hX : ∀ b ∈ bids, b.identity.Same X)
    (h : (s.winners bids).head? = some b) : b.observed = s.standing? X := by
  induction bids with
  | nil => cases h
  | cons c bids ih =>
    obtain ⟨hc, hrest⟩ := List.forall_mem_cons.1 hX
    by_cases hwins : s.wins c
    · rw [winners_of_wins hwins] at h
      obtain rfl : c = b := Option.some.inj h
      exact observed_of_wins hwins hc
    · rw [winners_of_loses hwins] at h
      exact ih hrest h

/-- Every other winner has observed the one before it. -/
theorem isChain_winners (hX : ∀ b ∈ bids, b.identity.Same X) :
    (s.winners bids).IsChain fun a b => b.observed = some a.slot.entry := by
  induction bids generalizing s with
  | nil => exact .nil
  | cons c bids ih =>
    obtain ⟨hc, hrest⟩ := List.forall_mem_cons.1 hX
    by_cases hwins : s.wins c
    · rw [winners_of_wins hwins, List.isChain_cons]
      refine ⟨fun b hb => ?_, ih hrest⟩
      rw [observed_of_head?_winners hrest hb, standing?_bid_of_wins hwins hc]
    · rw [winners_of_loses hwins]
      exact ih hrest

/-- What a winner has observed was there at the beginning, or was put there by a bid. -/
theorem observed_of_mem_winners (hX : ∀ b ∈ bids, b.identity.Same X) (h : b ∈ s.winners bids) :
    b.observed = s.standing? X ∨ ∃ a ∈ bids, b.observed = some a.slot.entry := by
  induction bids generalizing s with
  | nil => cases h
  | cons c bids ih =>
    obtain ⟨hc, hrest⟩ := List.forall_mem_cons.1 hX
    by_cases hwins : s.wins c
    · rw [winners_of_wins hwins] at h
      rcases List.mem_cons.1 h with rfl | h
      · exact .inl (observed_of_wins hwins hc)
      · refine .inr ?_
        rcases ih hrest h with hslot | ⟨a, ha, hslot⟩
        · rw [standing?_bid_of_wins hwins hc] at hslot
          exact ⟨c, List.mem_cons_self, hslot⟩
        · exact ⟨a, List.mem_cons_of_mem c ha, hslot⟩
    · rw [winners_of_loses hwins] at h
      refine (ih hrest h).imp_right ?_
      rintro ⟨a, ha, hslot⟩
      exact ⟨a, List.mem_cons_of_mem c ha, hslot⟩

/-- No observation wins twice: what the first of two winners has observed is replaced, and all that
comes into the slot from then on is new. -/
theorem pairwise_observed_winners (hX : ∀ b ∈ bids, b.identity.Same X)
    (hdistinct : (bids.map fun b => b.slot.entry).Nodup)
    (hfresh : ∀ b ∈ bids, s.standing? X ≠ some b.slot.entry) :
    (s.winners bids).Pairwise fun a b => a.observed ≠ b.observed := by
  induction bids generalizing s with
  | nil => exact .nil
  | cons c bids ih =>
    obtain ⟨hc, hrest⟩ := List.forall_mem_cons.1 hX
    obtain ⟨hnew, hdistinct⟩ := List.nodup_cons.1 hdistinct
    obtain ⟨hfirst, hfresh⟩ := List.forall_mem_cons.1 hfresh
    by_cases hwins : s.wins c
    · have hslot := standing?_bid_of_wins hwins hc
      rw [winners_of_wins hwins]
      refine List.pairwise_cons.2 ⟨fun b hb => ?_, ih hrest hdistinct fun b hb => ?_⟩
      · rw [observed_of_wins hwins hc]
        rcases observed_of_mem_winners hrest hb with h | ⟨a, ha, h⟩
        · rwa [h, hslot]
        · rw [h]
          exact hfresh a ha
      · rw [hslot]
        intro heq
        exact hnew (List.mem_map.2 ⟨b, hb, (Option.some.inj heq).symm⟩)
    · rw [winners_of_loses hwins]
      exact ih hrest hdistinct hfresh

end Slots

/-! ## The bid of an acquisition -/

/-- An acquisition publishes by one bid, with the entry of its wrapper. If the bid wins the call is
over; otherwise the wrapper is discarded, and the identity is looked up again. -/
theorem World.exists_bid {w : World σ} {p : PoolId} {pool : Pool} {h : WrapperId} {x : Wrapper}
    (hp : w.pools[p]? = some pool) (hx : w.wrappers[h]? = some x) (X : Identity)
    (observed : Option Entry) (rest : List Frame) :
    ∃ turn, w.step (.publish p X observed h :: rest) = some turn ∧
      turn.world.pools[p]? = some { pool with slots := pool.slots.bid ⟨X, observed, ⟨x.entry, h⟩⟩ } ∧
      (∀ q, q ≠ p → turn.world.pools[q]? = w.pools[q]?) ∧
      turn.frames = if pool.slots.wins ⟨X, observed, ⟨x.entry, h⟩⟩ then rest
        else .discard h :: .lookUp p X :: rest := by
  have hpublish : w.publish? p X observed h = _ := publish?_eq hp hx
  cases hpub : pool.slots.publish X observed ⟨x.entry, h⟩ with
  | none =>
    refine ⟨_, (Yields.lost (hpublish.trans hpub)).step rfl, ?_, fun q _ => rfl, ?_⟩
    · rw [Slots.bid, hpub, Option.getD_none, hp]
    · rw [Slots.wins, hpub]
      rfl
  | some slots =>
    refine ⟨_, (Yields.published (hpublish.trans hpub)).step rfl, ?_, fun q hq => ?_, ?_⟩
    · simp [finish, updatePool, hp, Slots.bid, hpub]
    · simp [finish, updatePool, Ne.symm hq]
    · rw [Slots.wins, hpub]
      rfl

/-! ## Any number of bids -/

/-- Bids for the slot of one identity, by wrappers whose entries are new and all different, with
whatever they have observed. Each wins just if the slot is as it has observed when its turn comes;
then the slot is its own, and otherwise nothing changes. So no two winners have observed the same,
each has observed the winner before it and the first one what was there, the last one's slot is what
remains, and no other identity is concerned. Whatever an acquisition publishes is such a bid. -/
theorem Slots.publish_compares_and_sets (s : Slots) (X : Identity) (bids : List Bid)
    (hX : ∀ b ∈ bids, b.identity.Same X)
    (hdistinct : (bids.map fun b => b.slot.entry).Nodup)
    (hfresh : ∀ b ∈ bids, ∀ e ∈ s.toList, e.2.entry ≠ b.slot.entry) :
    (∀ before b after, bids = before ++ b :: after →
      ((s.bidAll before).wins b ↔ (s.bidAll before).standing? X = b.observed) ∧
      ((s.bidAll before).wins b → (s.bidAll (before ++ [b])).find? X = some b.slot) ∧
      (¬ (s.bidAll before).wins b → s.bidAll (before ++ [b]) = s.bidAll before)) ∧
    (s.winners bids).Pairwise (fun a b => a.observed ≠ b.observed) ∧
    (∀ b, (s.winners bids).head? = some b → b.observed = s.standing? X) ∧
    (s.winners bids).IsChain (fun a b => b.observed = some a.slot.entry) ∧
    (s.bidAll bids).find? X = ((s.winners bids).getLast?.map Bid.slot).or (s.find? X) ∧
    (∀ Y, ¬ X.Same Y → (s.bidAll bids).find? Y = s.find? Y) ∧
    ∀ (w : World σ) p pool h x Y observed rest,
      w.pools[p]? = some pool → w.wrappers[h]? = some x →
      ∃ turn, w.step (.publish p Y observed h :: rest) = some turn ∧
        turn.world.pools[p]?
          = some { pool with slots := pool.slots.bid ⟨Y, observed, ⟨x.entry, h⟩⟩ } ∧
        (∀ q, q ≠ p → turn.world.pools[q]? = w.pools[q]?) ∧
        turn.frames = if pool.slots.wins ⟨Y, observed, ⟨x.entry, h⟩⟩ then rest
          else .discard h :: .lookUp p Y :: rest := by
  have hslot : ∀ b ∈ bids, s.standing? X ≠ some b.slot.entry := by
    intro b hb heq
    obtain ⟨slot, hfind, hentry⟩ := Option.map_eq_some_iff.1 heq
    obtain ⟨Y, hmem, -⟩ := exists_of_find? hfind
    exact hfresh b hb (Y, slot) hmem hentry
  refine ⟨?_, pairwise_observed_winners hX hdistinct hslot,
    fun b => observed_of_head?_winners hX, isChain_winners hX, find?_bidAll hX,
    fun Y => find?_bidAll_of_not_same hX,
    fun w p pool h x Y observed rest hp hx => World.exists_bid hp hx Y observed rest⟩
  rintro before b after rfl
  have hb : b.identity.Same X := hX b (List.mem_append_right before List.mem_cons_self)
  rw [bidAll_concat]
  refine ⟨?_, fun hwins => ?_, bid_of_loses⟩
  · rw [wins_iff, standing?_congr _ hb]
  · rw [find?_bid, if_pos ⟨hwins, hb⟩]

/-- Two files have slots. -/
def tabled : Slots :=
  (Slots.empty.bid ⟨⟨.ofString "/a"⟩, none, ⟨7, 0⟩⟩).bid ⟨⟨.ofString "/b"⟩, none, ⟨8, 1⟩⟩

/-- One bid for the first file has observed nothing, one an entry that there never was, two what is
there, and one the winner of these two. -/
def rivals : List Bid :=
  [⟨⟨.ofString "/a"⟩, none, ⟨9, 2⟩⟩, ⟨⟨.ofString "/a"⟩, some 99, ⟨10, 3⟩⟩,
    ⟨⟨.ofString "//a"⟩, some 7, ⟨11, 4⟩⟩, ⟨⟨.ofString "/a"⟩, some 7, ⟨12, 5⟩⟩,
    ⟨⟨.ofString "/a/"⟩, some 11, ⟨13, 6⟩⟩]

theorem Slots.publish_compares_and_sets_rivals :
    (∀ b ∈ rivals, b.identity.Same ⟨.ofString "/a"⟩) ∧
    (tabled.winners rivals).map (fun b => b.slot.entry) = [11, 13] ∧
    (tabled.winners rivals).Pairwise (fun a b => a.observed ≠ b.observed) ∧
    (tabled.winners rivals).IsChain (fun a b => b.observed = some a.slot.entry) ∧
    (tabled.bidAll rivals).find? ⟨.ofString "/a"⟩ = some ⟨13, 6⟩ ∧
    (tabled.bidAll rivals).find? ⟨.ofString "/b"⟩ = tabled.find? ⟨.ofString "/b"⟩ := by
  have hX : ∀ b ∈ rivals, b.identity.Same ⟨.ofString "/a"⟩ := by decide +kernel
  have hwinners : (tabled.winners rivals).map (fun b => b.slot.entry) = [11, 13] := by
    decide +kernel
  obtain ⟨-, hpairwise, -, hchain, hlast, hother, -⟩ :=
    publish_compares_and_sets (σ := Unit) tabled ⟨.ofString "/a"⟩ rivals hX (by decide +kernel)
      (by decide +kernel)
  refine ⟨hX, hwinners, hpairwise, hchain, ?_, hother _ (by decide +kernel)⟩
  rw [hlast]
  decide +kernel

end ReadPool
