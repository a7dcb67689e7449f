import ReadThrough.Proofs.Cache.Rewriting

/-!
# Making room

A write of a new key to a full shard evicts a share of its entries, and that
share `TakesSoonest`: as many entries as the percentage asks for, rounded up,
namely the first to expire.  All of this follows from the shard alone, for
entries that expire together as well, and no order of the entries has a say in
it.

Whether the share is counted depends on the clock.  A write takes its reading
after the entries have gone.  When the reading fails, so does the write, and the
entries are gone but not counted.
-/

namespace ReadThrough

open Std (ExtTreeMap)

namespace Shard

variable {Value : Type} {shard : Shard Value}

/-- Some keys are the share of a shard that is first to expire, and to remove
them removes their entries and aliases and nothing else. -/
structure TakesSoonest
    (percentage : Nat) (shard : Shard Value) (victims : List String) :
    Prop where
  distinct : victims.Nodup
  length : victims.length = max 1 ((shard.size * percentage) ⌈/⌉ 100)
  stored : ∀ key ∈ victims, key ∈ shard.entries
  /-- Every victim comes before every survivor. -/
  sooner : ∀ {key other : String} {entry survivor : Entry Value},
    shard.entries[key]? = some entry → key ∈ victims →
      shard.entries[other]? = some survivor → other ∉ victims →
        soonerFirst entry.rank survivor.rank = .lt
  size : (shard.eraseAll victims).size + victims.length = shard.size
  /-- Survivors keep their entries and their aliases. -/
  held : ∀ key, (shard.eraseAll victims).held key =
    if key ∈ victims then none else shard.held key
  binds : ∀ name owner : String,
    (shard.eraseAll victims).keyOfAlias[name]? = some owner ↔
      shard.keyOfAlias[name]? = some owner ∧ owner ∉ victims
  /-- The candidates may be listed in any order, and selected in any order. -/
  unordered : ∀ listed chosen : List (Instant × String),
    listed.Perm shard.candidates → Selects victims.length listed chosen →
      shard.eraseAll (chosen.map (·.2)) = shard.eraseAll victims

theorem takesSoonest_victims
    (coherent : shard.Coherent) (inhabited : 1 ≤ shard.size)
    {percentage : Nat} (within : percentage ≤ 100) :
    shard.TakesSoonest percentage (shard.victims percentage) := by
  have count := length_victims coherent percentage
  have stored : ∀ key ∈ shard.victims percentage, key ∈ shard.entries := by
    intro key evicted
    obtain ⟨entry, found, _⟩ := (mem_victims_iff coherent).mp evicted
    exact stored_of_found found
  refine ⟨nodup_victims coherent percentage, ?length, stored,
    victim_sooner coherent, ?size, held_eraseAll coherent _,
    keyOfAlias_eraseAll_eq_some_iff coherent _, ?unordered⟩
  case length =>
    rw [count, evictionCount_eq_ceilDiv inhabited within]
  case size =>
    exact size_eraseAll_of_nodup (nodup_victims coherent percentage) stored
  case unordered =>
    intro listed chosen candidates selects
    rw [count] at selects
    exact eraseAll_of_selects coherent candidates selects

end Shard

namespace Cache

variable {Value : Type} {settings : Settings} {before after : Cache Value}
  {draft : Draft Value} {now : Instant} {shard : Shard Value}

/-- A full shard evicts its victims. -/
theorem evicts_iff_of_full
    (seat : before.shards[before.route draft.key]? = some shard)
    (full : shard.isFullFor draft.key) (key : String) :
    before.Evicts settings draft.key (before.route draft.key, key) ↔
      key ∈ shard.victims settings.evictionPercentage := by
  rw [Evicts, evictees_of_seat seat, Shard.evictees, if_pos full]
  exact and_iff_right rfl

/-- A write that squeezes its key into a full shard evicts the share of entries
that expires soonest, whether it completes or not, unless one of its aliases
conflicts.  A write that completes has counted every one of them once.  It fails
to count them exactly when the clock cannot be read, and then it does not
complete. -/
theorem forced_eviction_takes_soonest
    (valid : settings.Valid)
    (expressible : settings.timeToLive ≤ Duration.longest)
    (share : 1 ≤ settings.evictionPercentage)
    (coherent : before.Coherent) (draft : Draft Value)
    (seat : before.shards[before.route draft.key]? = some shard)
    (full : shard.isFullFor draft.key) (inhabited : 1 ≤ shard.size) :
    let home := before.route draft.key
    let victims := shard.victims settings.evictionPercentage
    shard.TakesSoonest settings.evictionPercentage victims ∧
    Ends (writeDraft settings draft) before
      (fun evicted after => evicted = true ∧
        (∀ key, key ≠ draft.key →
          after.held (home, key) = (shard.eraseAll victims).held key) ∧
        (∀ name, ∀ owner ∈ victims, after.bound? home name ≠ some owner) ∧
        after.counters =
          (before.counters.count .forcedEviction).count
            (.evicted victims.length))
      (fun fault after =>
        (fault.IsAliasConflict ∧ before.Conflicts draft ∧
          after.shards = before.shards ∧
            after.counters = before.counters) ∨
        (fault = .instantOverflow ∧ ¬ before.Conflicts draft ∧
          before.clock.read.1 = .error fault ∧
          after.shards =
            before.shards.setIfInBounds home (shard.eraseAll victims) ∧
          after.counters = before.counters)) := by
  intro home victims
  have window := valid.window_le expressible
  have old := coherent.shards seat
  have kept : ¬ before.Drops settings draft.key := by
    intro drops
    have refuses := (drops_iff_of_seat seat).mp drops
    exact absurd (refuses.2 ▸ share) (by decide)
  have takes : shard.TakesSoonest settings.evictionPercentage victims :=
    Shard.takesSoonest_victims old inhabited valid.operable.percentage
  refine ⟨takes, ((ends_writeDraft_rewrites coherent window kept).and
    ((ends_write_counters seat).and
      (ends_writeDraft_unstored coherent window draft))).weaken ?_ ?_⟩
  · rintro evicted after ⟨⟨squeezed, now, rewrites⟩, counted, _⟩
    have evicts : evicted = true :=
      squeezed.mpr ((isFullFor_iff_of_seat seat).mpr full)
    refine ⟨evicts, ?held, ?unbound, ?counters⟩
    case held =>
      intro key apart
      have own : (home, key) ≠ (before.route draft.key, draft.key) :=
        fun same => apart (congrArg Prod.snd same)
      rw [rewrites.held coherent seat, if_neg own, takes.held,
        held_of_seat seat]
      simp only [home, victims, evicts_iff_of_full seat full]
    case unbound =>
      intro name owner victim bound
      rw [rewrites.binds coherent] at bound
      split at bound
      next =>
        exact (Shard.isFullFor_iff.mp full).1
          (bound ▸ takes.stored owner victim)
      next =>
        exact bound.2.2 ((evicts_iff_of_full seat full owner).mpr victim)
    case counters =>
      rw [counted, evicts, if_pos rfl]
  · rintro fault after ⟨_, _, ⟨clash, conflicts, refused⟩ |
      ⟨overflow, agreed, _, stopped⟩⟩
    · exact .inl ⟨clash, conflicts, refused.shards, refused.counters⟩
    · obtain ⟨found, foundSeat, cleared⟩ := stopped.shards
      cases seat.symm.trans foundSeat
      refine .inr ⟨overflow, agreed, ?_, ?_, stopped.counters⟩
      · rw [stopped.clock, overflow]
      · rw [cleared, Shard.cleared, Shard.evictees, if_pos full]

end Cache

/-! ## Entries that expire together -/

/-- One shard of three entries, of which a write has to evict two. -/
def Settings.crowded : Settings :=
  { Settings.twoShards with
    capacity := 3
    shardCount := 1
    evictionPercentage := 40 }

namespace Cache

/-- Three entries that expire together. -/
def crowd : List (Operation NameTag) :=
  [.act (.write ⟨"c", none, ["t"]⟩), .act (.write ⟨"a", none, ["u"]⟩),
    .act (.write ⟨"b", none, []⟩)]

/-- Of entries that expire together those with the smaller keys are evicted. -/
theorem forced_eviction_takes_soonest_crowd :
    let settings := Settings.crowded
    let before := operate settings (empty settings fun _ => []) crowd
    settings.Valid ∧ settings.timeToLive ≤ Duration.longest ∧
      1 ≤ settings.evictionPercentage ∧ before.Coherent ∧
      (∃ shard : Shard NameTag,
        before.shards[before.route "d"]? = some shard ∧
          shard.isFullFor "d" ∧ 1 ≤ shard.size) ∧
      Ends (writeDraft settings ⟨"d", none, []⟩) before
        (fun evicted after => evicted = true ∧
          after.held (0, "a") = none ∧ after.held (0, "b") = none ∧
          after.held (0, "c") = before.held (0, "c") ∧
          after.counters.evictions = 2)
        (fun _ _ => False) := by
  intro settings before
  have valid : settings.Valid := by decide
  have expressible : settings.timeToLive ≤ Duration.longest := by decide
  have share : 1 ≤ settings.evictionPercentage := by decide
  have coherent : before.Coherent :=
    coherent_of_operations valid (fun _ => []) crowd
  obtain ⟨shard, seat⟩ := coherent.seat "d"
  have each : ∀ found ∈ before.shards.toList,
      found.isFullFor "d" ∧ 1 ≤ found.size ∧
        found.victims 40 = ["a", "b"] := by
    decide +kernel
  obtain ⟨full, inhabited, victims⟩ :=
    each shard (Array.mem_toList_iff.mpr (Array.mem_of_getElem? seat))
  have home : before.route "d" = 0 := by decide +kernel
  have agreed : ¬ before.Conflicts (⟨"d", none, []⟩ : Draft NameTag) := by
    decide +kernel
  have readable : before.clock.read.1.isOk = true := by decide +kernel
  have zero : before.counters.evictions = 0 := by decide +kernel
  clear_value before
  refine ⟨valid, expressible, share, coherent,
    ⟨shard, seat, full, inhabited⟩, ?_⟩
  obtain ⟨takes, ends⟩ := forced_eviction_takes_soonest valid expressible
    share coherent ⟨"d", none, []⟩ seat full inhabited
  have taken : shard.victims settings.evictionPercentage = ["a", "b"] :=
    victims
  rw [taken] at takes ends
  refine ends.weaken ?_ ?_
  · rintro evicted after ⟨evicts, held, _, counted⟩
    have left : ∀ key, key ≠ "d" → after.held (0, key) =
        if key ∈ ["a", "b"] then none else before.held (0, key) := by
      intro key apart
      rw [← home, held_of_seat seat, ← takes.held]
      exact held key apart
    refine ⟨evicts, ?_, ?_, ?_, ?_⟩
    · rw [left "a" (by decide), if_pos (by decide)]
    · rw [left "b" (by decide), if_pos (by decide)]
    · rw [left "c" (by decide), if_neg (by decide)]
    · rw [counted, Counters.count, Counters.count]
      simp only [zero]
      rfl
  · rintro fault after (⟨_, conflicts, _⟩ | ⟨_, _, unread, _⟩)
    · exact agreed conflicts
    · rw [unread] at readable
      cases readable

/-- A write evicts an entry and breaks off without counting it, for the clock
stands where it cannot be read. -/
theorem eviction_without_count :
    let settings := Settings.tight 10
    let before := operate settings (empty settings fun _ => [])
      [.act (.write (⟨"a", none, []⟩ : Draft NameTag)),
        .act (.quiet (.layDown [Instant.horizon]))]
    let after := final (writeDraft settings ⟨"b", none, []⟩) before
    settings.Valid ∧ before.IsFullFor "b" ∧
      (before.held (1, "a")).isSome ∧ after.held (1, "a") = none ∧
        after.counters.evictions = before.counters.evictions := by
  decide +kernel

end Cache

end ReadThrough
