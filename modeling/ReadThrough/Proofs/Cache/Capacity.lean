import ReadThrough.Cache.Upkeep
import ReadThrough.Proofs.Cache.Atomicity

/-!
# Capacity

A cache is `Bounded` when every shard has its share of the capacity and holds no
more entries than that.  A full shard makes room before it stores an entry: it
evicts at least one (`size_cleared_lt`).  So every act keeps a cache bounded.

A write of a key that is stored finds room in any case.
-/

namespace ReadThrough

open Std (ExtTreeMap)

/-! ## Sizes of shards -/

namespace Shard

variable {Value : Type} {shard other : Shard Value} {key : String}

theorem isFullFor_iff :
    shard.isFullFor key ↔
      key ∉ shard.entries ∧ shard.capacity ≤ shard.size := by
  simp [isFullFor]

theorem size_erase_le (shard : Shard Value) (key : String) :
    (shard.erase key).size ≤ shard.size := by
  rw [size, entries_erase]
  exact ExtTreeMap.size_erase_le

theorem size_erase_lt (stored : key ∈ shard.entries) :
    (shard.erase key).size < shard.size := by
  have inhabited : shard.entries.size ≠ 0 := fun nothing =>
    ExtTreeMap.ne_empty_of_mem stored
      (ExtTreeMap.eq_empty_iff_size_eq_zero.mpr nothing)
  rw [size, size, entries_erase, ExtTreeMap.size_erase,
    if_pos (ExtTreeMap.contains_iff_mem.mpr stored)]
  omega

theorem size_eraseAll_le (shard : Shard Value) (keys : List String) :
    (shard.eraseAll keys).size ≤ shard.size := by
  induction keys generalizing shard with
  | nil => exact Nat.le_refl _
  | cons key keys inductionHypothesis =>
      exact Nat.le_trans (inductionHypothesis (shard.erase key))
        (shard.size_erase_le key)

/-- Removing keys makes a shard smaller, if one of them was stored. -/
theorem size_eraseAll_lt {keys : List String}
    (member : key ∈ keys) (stored : key ∈ shard.entries) :
    (shard.eraseAll keys).size < shard.size := by
  induction keys generalizing shard with
  | nil => cases member
  | cons head tail inductionHypothesis =>
      rw [eraseAll, List.foldl_cons, ← eraseAll]
      by_cases first : head ∈ shard.entries
      · exact Nat.lt_of_le_of_lt ((shard.erase head).size_eraseAll_le tail)
          (size_erase_lt first)
      · -- The head is passed over, so the stored key comes later.
        have apart : key ≠ head := by
          rintro rfl
          exact first stored
        have later : key ∈ tail := List.mem_of_ne_of_mem apart member
        rw [erase, if_neg first]
        exact inductionHypothesis later stored

theorem size_upsert (entry : Entry Value) (aliases : List String) :
    (shard.upsert entry aliases).size =
      if entry.key ∈ shard.entries then shard.size else shard.size + 1 := by
  simp only [size, entries_upsert, ExtTreeMap.size_insert,
    ExtTreeMap.contains_iff_mem]

theorem Alike.size_eq (alike : shard.Alike other) :
    other.size = shard.size := by
  have same : other.entries.map (fun _ => Entry.settled) =
      shard.entries.map (fun _ => Entry.settled) := by
    apply ExtTreeMap.ext_getElem?
    intro key
    rw [ExtTreeMap.getElem?_map, ExtTreeMap.getElem?_map]
    exact alike.entries key
  have sizes := congrArg ExtTreeMap.size same
  rwa [ExtTreeMap.size_map, ExtTreeMap.size_map] at sizes

@[simp]
theorem capacity_erase (shard : Shard Value) (key : String) :
    (shard.erase key).capacity = shard.capacity := by
  rw [erase]
  split
  · rfl
  · rfl

@[simp]
theorem capacity_eraseAll (shard : Shard Value) (keys : List String) :
    (shard.eraseAll keys).capacity = shard.capacity := by
  induction keys generalizing shard with
  | nil => rfl
  | cons key keys inductionHypothesis =>
      exact (inductionHypothesis (shard.erase key)).trans
        (shard.capacity_erase key)

@[simp]
theorem capacity_upsert
    (shard : Shard Value) (entry : Entry Value) (aliases : List String) :
    (shard.upsert entry aliases).capacity = shard.capacity :=
  shard.capacity_erase entry.key

/-! ## Making room -/

/-- A shard that holds entries has victims. -/
theorem victims_ne_nil (inhabited : 0 < shard.size) (percentage : Nat) :
    shard.victims percentage ≠ [] := by
  have someEntry : shard.entries.toList ≠ [] := by
    intro nothing
    rw [size, ← ExtTreeMap.length_toList, nothing] at inhabited
    exact absurd inhabited (Nat.lt_irrefl 0)
  have ranked : shard.byExpiry ≠ [] := by
    simpa [byExpiry] using someEntry
  have taken : 0 < evictionCount shard.size percentage :=
    evictionCount_pos _ inhabited
  rw [victims, ne_eq, List.map_eq_nil_iff, List.take_eq_nil_iff]
  simp [ranked, Nat.ne_of_gt taken]

theorem size_cleared_lt
    (coherent : shard.Coherent) (positive : 0 < shard.capacity)
    (full : shard.isFullFor key) (percentage : Nat) :
    (shard.cleared percentage key).size < shard.size := by
  have inhabited : 0 < shard.size :=
    Nat.lt_of_lt_of_le positive (isFullFor_iff.mp full).2
  have evictees : shard.evictees percentage key = shard.victims percentage :=
    if_pos full
  obtain ⟨victim, member⟩ := List.exists_mem_of_ne_nil _
    (victims_ne_nil inhabited percentage)
  rw [← evictees] at member
  exact size_eraseAll_lt member
    (mem_entries_of_mem_evictees coherent member)

theorem cleared_of_room
    (room : ¬ shard.isFullFor key) (percentage : Nat) :
    shard.cleared percentage key = shard := by
  rw [cleared, evictees, if_neg room]
  rfl

/-- A shard that has been cleared for a key has room for it. -/
theorem size_upsert_cleared_le
    (coherent : shard.Coherent) (positive : 0 < shard.capacity)
    (bounded : shard.size ≤ shard.capacity) {percentage : Nat}
    {entry : Entry Value}
    (alike : (shard.cleared percentage entry.key).Alike other)
    (aliases : List String) :
    (other.upsert entry aliases).size ≤ shard.capacity := by
  simp only [size_upsert, alike.size_eq, alike.mem_entries]
  by_cases full : shard.isFullFor entry.key
  · have fewer := size_cleared_lt coherent positive full percentage
    split
    · omega
    · omega
  · rw [cleared_of_room full]
    rw [isFullFor_iff, not_and, Nat.not_le] at full
    split
    next => exact bounded
    next absent => exact full absent

end Shard

namespace Cache

variable {Value : Type}

/-! ## Bounded caches -/

/-- Every shard has its share of the capacity and keeps to it. -/
structure Bounded (settings : Settings) (cache : Cache Value) : Prop where
  count : cache.shards.size = settings.shardCount
  share : ∀ {index : Nat} {shard : Shard Value},
    cache.shards[index]? = some shard →
      shard.capacity = settings.shardCapacity
  size_le : ∀ {index : Nat} {shard : Shard Value},
    cache.shards[index]? = some shard → shard.size ≤ shard.capacity

section Bounded

variable {settings : Settings} {before after : Cache Value}

theorem bounded_empty (settings : Settings) (paddings : Nat → List Nat) :
    Bounded settings (empty settings paddings : Cache Value) where
  count := Array.size_ofFn
  share seat := by
    simp only [empty, Array.getElem?_ofFn] at seat
    split at seat
    · cases seat
      rfl
    · cases seat
  size_le seat := by
    simp only [empty, Array.getElem?_ofFn] at seat
    split at seat
    · cases seat
      exact Nat.zero_le _
    · cases seat

theorem Bounded.of_shards
    (bounded : Bounded settings before)
    (same : after.shards = before.shards) : Bounded settings after where
  count := same ▸ bounded.count
  share seat := bounded.share (same ▸ seat)
  size_le seat := bounded.size_le (same ▸ seat)

theorem Alike.bounded
    (alike : Alike before after) (bounded : Bounded settings before) :
    Bounded settings after where
  count := alike.size.trans bounded.count
  share seat := by
    obtain ⟨earlier, earlierSeat, similar⟩ := alike.symm.shards seat
    rw [← similar.capacity]
    exact bounded.share earlierSeat
  size_le seat := by
    obtain ⟨earlier, earlierSeat, similar⟩ := alike.symm.shards seat
    rw [← similar.capacity, ← similar.size_eq]
    exact bounded.size_le earlierSeat

theorem Reseats.bounded
    {index : Nat} {old new : Shard Value}
    (reseats : Reseats index new before after)
    (bounded : Bounded settings before)
    (seat : before.shards[index]? = some old)
    (capacity : new.capacity = old.capacity)
    (size : new.size ≤ old.capacity) : Bounded settings after where
  count := reseats.size.trans bounded.count
  share found := by
    rw [reseats.shards_eq] at found
    split at found
    · cases found
      exact capacity.trans (bounded.share seat)
    · exact bounded.share found
  size_le found := by
    rw [reseats.shards_eq] at found
    split at found
    · cases found
      exact capacity ▸ size
    · exact bounded.size_le found

/-- Whatever an act does, it leaves a bounded cache. -/
theorem Effect.bounded
    {act : Act Value} (effect : Effect settings before act after)
    (coherent : before.Coherent) (positive : 0 < settings.shardCapacity)
    (bounded : Bounded settings before) : Bounded settings after := by
  have removed : ∀ {index : Nat} {shard other : Shard Value}
      {keys : List String} {start : Cache Value},
      start.shards = before.shards →
        before.shards[index]? = some shard →
          (shard.eraseAll keys).Alike other →
            Reseats index other start after → Bounded settings after := by
    intro index shard other keys start same seat alike reseats
    apply reseats.bounded (bounded.of_shards same) (same ▸ seat)
    · rw [alike.capacity, Shard.capacity_eraseAll]
    · rw [alike.size_eq]
      exact Nat.le_trans (shard.size_eraseAll_le keys)
        (bounded.size_le seat)
  cases effect with
  | quiet alike => exact alike.bounded bounded
  | removes seat reseats => exact removed rfl seat (.refl _) reseats
  | @writes draft _ shard result seat outcome =>
      cases outcome with
      | conflict clash registers => exact bounded.of_shards registers.shards
      | dropped refuses claims => exact bounded.of_shards claims.shards
      | broken room harmless claims alike reseats =>
          exact removed claims.shards seat alike reseats
      | stored room claims reading refreshTime alike reseats =>
          have share := bounded.share seat
          apply reseats.bounded (bounded.of_shards claims.shards)
            (claims.shards ▸ seat)
          · rw [Shard.capacity_upsert, alike.capacity, Shard.cleared,
              Shard.capacity_eraseAll]
          · exact Shard.size_upsert_cleared_le (coherent.shards seat)
              (share ▸ positive) (bounded.size_le seat) alike draft.aliases

theorem Bounded.follow
    (coherent : before.Coherent) (positive : 0 < settings.shardCapacity)
    (bounded : Bounded settings before) (acts : List (Act Value)) :
    Bounded settings (Cache.follow settings before acts) := by
  induction acts generalizing before with
  | nil => exact bounded
  | cons act acts inductionHypothesis =>
      have effect := effect_of_act settings coherent act
      exact inductionHypothesis (coherent.after settings act)
        (effect.bounded coherent positive bounded)

theorem size_le_of_each {most : Nat} (shards : List (Shard Value))
    (each : ∀ shard ∈ shards, shard.size ≤ most) :
    shards.foldr (fun shard total => shard.size + total) 0 ≤
      shards.length * most := by
  induction shards with
  | nil => exact Nat.zero_le _
  | cons shard shards inductionHypothesis =>
      have first := each shard List.mem_cons_self
      have rest := inductionHypothesis fun other member =>
        each other (List.mem_cons_of_mem _ member)
      rw [List.foldr_cons, List.length_cons, Nat.succ_mul]
      omega

theorem Bounded.size_le_share
    (bounded : Bounded settings before) {shard : Shard Value}
    (member : shard ∈ before.shards) :
    shard.size ≤ settings.shardCapacity := by
  obtain ⟨index, seat⟩ := Array.getElem?_of_mem member
  rw [← bounded.share seat]
  exact bounded.size_le seat

theorem Bounded.size_le_capacity (bounded : Bounded settings before) :
    before.size ≤ settings.capacity := by
  calc
    before.size ≤ before.shards.toList.length * settings.shardCapacity :=
      size_le_of_each _ fun shard member =>
        bounded.size_le_share (Array.mem_toList_iff.mp member)
    _ = settings.shardCount * (settings.capacity / settings.shardCount) := by
      rw [Array.length_toList, bounded.count, Settings.shardCapacity]
    _ ≤ settings.capacity := Nat.mul_div_le _ _

end Bounded

/-! ## Writes -/

section Writes

variable {settings : Settings} {before after : Cache Value} {key : String}
  {value : Option Value} {aliases : List String} {shard : Shard Value}
  {evicted : Bool} {result : Except Fault Bool}

theorem WriteOutcome.evicted_iff
    (outcome : WriteOutcome settings key value aliases shard before
      (.ok evicted) after) :
    evicted = true ↔
      shard.isFullFor key ∧ settings.evictionPercentage ≠ 0 := by
  cases outcome with
  | dropped refuses claims => simp [refuses.2]
  | stored room claims reading refreshTime alike reseats =>
      constructor
      · intro full
        exact ⟨full, fun none => room ⟨full, none⟩⟩
      · exact And.left

/-- A write of a stored key removes no entry, however it ends. -/
theorem WriteOutcome.stores_iff
    (outcome : WriteOutcome settings key value aliases shard before
      result after)
    (seat : before.shards[before.route key]? = some shard)
    (known : key ∈ shard.entries) (index : Nat) (other : String) :
    after.Stores index other ↔ before.Stores index other := by
  have room : ¬ shard.isFullFor key := fun full =>
    (Shard.isFullFor_iff.mp full).1 known
  have reseated : ∀ {new : Shard Value} {claimed : Cache Value},
      claimed.shards = before.shards →
        (∀ other, other ∈ new.entries ↔ other ∈ shard.entries) →
          Reseats (before.route key) new claimed after →
            (after.Stores index other ↔ before.Stores index other) := by
    intro new claimed same entries reseats
    by_cases home : index = before.route key
    · subst home
      rw [stores_iff_of_seat reseats.seat, stores_iff_of_seat seat, entries]
    · unfold Stores
      rw [reseats.others home, same]
  cases outcome with
  | conflict clash registers =>
      unfold Stores
      rw [registers.shards]
      exact Iff.rfl
  | dropped refuses claims => exact absurd refuses.1 room
  | broken _ harmless claims alike reseats =>
      rw [Shard.cleared_of_room room] at alike
      exact reseated claims.shards (fun _ => alike.mem_entries) reseats
  | stored _ claims reading refreshTime alike reseats =>
      rw [Shard.cleared_of_room room] at alike
      refine reseated claims.shards (fun other => ?_) reseats
      rw [Shard.entries_upsert, ExtTreeMap.mem_insert, alike.mem_entries]
      refine or_iff_right_of_imp fun same => ?_
      rwa [← Std.compare_eq_iff_eq.mp same]

/-- A write of a stored key that returns has stored its entry. -/
theorem WriteOutcome.fresh
    (outcome : WriteOutcome settings key value aliases shard before
      (.ok evicted) after)
    (known : key ∈ shard.entries) :
    ∃ now refreshAt, before.clock.read = (.ok now, after.clock) ∧
      ∃ new ∈ after.shards[before.route key]?, new.entries[key]? =
        some (.fresh key value (deadline now settings.timeToLive)
          refreshAt) := by
  cases outcome with
  | dropped refuses claims =>
      exact absurd known (Shard.isFullFor_iff.mp refuses.1).1
  | @stored claimed _ now refreshAt padding roomy room claims reading
      refreshTime alike reseats =>
      refine ⟨now, refreshAt, reading, _, reseats.seat, ?_⟩
      rw [Shard.entries_upsert]
      exact ExtTreeMap.getElem?_insert_self

end Writes

/-- A write ends as the write of its draft. -/
theorem ends_writing_outcome
    [Keyed Value] {cache : Cache Value} (coherent : cache.Coherent)
    (settings : Settings) (writing : Writing Value) {shard : Shard Value}
    (seat : cache.shards[cache.route (writing.draft cache).key]? =
      some shard) :
    Ends (writing.write settings) cache
      (fun evicted next => ∃ journal,
        WriteOutcome settings (writing.draft cache).key
          (writing.draft cache).value (writing.draft cache).aliases shard
          { cache with journal } (.ok evicted) next)
      (fun fault next => ∃ journal,
        WriteOutcome settings (writing.draft cache).key
          (writing.draft cache).value (writing.draft cache).aliases shard
          { cache with journal } (.error fault) next) := by
  apply ends_writing coherent writing
  intro journal
  have noted : Ends (writeDraft settings (writing.draft cache))
      { cache with journal } _ _ := ends_write seat
  exact noted.weaken (fun _ _ outcome => ⟨journal, outcome⟩)
    (fun _ _ outcome => ⟨journal, outcome⟩)

/-- A shard of a bounded cache is full when it holds its share. -/
theorem fullFor_iff
    {settings : Settings} {cache : Cache Value} {index : Nat}
    {shard : Shard Value} (bounded : Bounded settings cache)
    (seat : cache.shards[index]? = some shard) {key : String} :
    (¬ cache.Stores index key ∧ ∃ shard ∈ cache.shards[index]?,
        shard.size = settings.capacity / settings.shardCount) ↔
      shard.isFullFor key := by
  have share : shard.capacity = settings.capacity / settings.shardCount :=
    bounded.share seat
  have most := bounded.size_le seat
  rw [Shard.isFullFor_iff, stores_iff_of_seat seat, seat]
  simp only [Option.mem_def, Option.some.injEq, exists_eq_left']
  rw [← share]
  exact and_congr_right fun _ => ⟨Nat.le_of_eq ∘ Eq.symm, Nat.le_antisymm most⟩

theorem shardCapacity_pos {settings : Settings} (valid : settings.Valid) :
    0 < settings.shardCapacity :=
  Nat.div_pos valid.operable.share valid.operable.shards

/-- Whatever has been done to a new cache, no shard holds more than its share of
the capacity, and all of them together hold no more than the capacity.

A write that returns answers true exactly if its key was not stored in its shard,
the shard was full and something may be evicted.  A write of a key that is stored
removes no entry, whether it returns or ends in a fault, and when it returns it
has stored its own. -/
theorem capacity_bound
    [Keyed Value] {settings : Settings} (valid : settings.Valid)
    (paddings : Nat → List Nat) (operations : List (Operation Value)) :
    let cache := operate settings (empty settings paddings) operations
    (∀ shard ∈ cache.shards,
      shard.size ≤ settings.capacity / settings.shardCount) ∧
    cache.size ≤ settings.capacity ∧
    ∀ writing : Writing Value,
      let draft := writing.draft cache
      let home := cache.route draft.key
      (∀ (evicted : Bool) (next : Cache Value),
        (writing.write settings).run cache = .ok evicted next →
          (evicted = true ↔
            ¬ cache.Stores home draft.key ∧
              (∃ shard ∈ cache.shards[home]?,
                shard.size = settings.capacity / settings.shardCount) ∧
                1 ≤ settings.evictionPercentage)) ∧
      (cache.Stores home draft.key →
        (∀ (index : Nat) (key : String),
          (final (writing.write settings) cache).Stores index key ↔
            cache.Stores index key) ∧
        ∀ (evicted : Bool) (next : Cache Value),
          (writing.write settings).run cache = .ok evicted next →
            evicted = false ∧
              ∃ now refreshAt, cache.clock.read = (.ok now, next.clock) ∧
                ∃ shard ∈ next.shards[home]?,
                  shard.entries[draft.key]? = some (.fresh draft.key
                    draft.value (deadline now settings.timeToLive)
                      refreshAt)) := by
  intro cache
  have new : (empty settings paddings : Cache Value).Coherent :=
    coherent_empty valid paddings
  obtain ⟨acts, reached⟩ :=
    runs_operate settings (empty settings paddings) operations
  have coherent : cache.Coherent := new.of_runs ⟨acts, reached⟩
  have bounded : Bounded settings cache := by
    have followed := (bounded_empty settings paddings).follow new
      (shardCapacity_pos valid) acts
    rwa [reached] at followed
  refine ⟨fun shard => bounded.size_le_share, bounded.size_le_capacity, ?_⟩
  intro writing draft home
  obtain ⟨shard, seat⟩ := coherent.seat draft.key
  have ends := ends_writing_outcome coherent settings writing seat
  refine ⟨?_, fun stored => ⟨?_, ?_⟩⟩
  · intro evicted next run
    obtain ⟨journal, outcome⟩ := ends_of_run_ok ends run
    rw [outcome.evicted_iff, ← fullFor_iff bounded seat, and_assoc,
      Nat.one_le_iff_ne_zero]
  · have known := (stores_iff_of_seat seat).mp stored
    have kept : ∀ {result : Except Fault Bool} {next : Cache Value},
        (∃ journal, WriteOutcome settings draft.key draft.value draft.aliases
          shard { cache with journal } result next) →
          ∀ index key, next.Stores index key ↔ cache.Stores index key := by
      rintro result next ⟨journal, outcome⟩
      exact outcome.stores_iff seat known
    exact ends_iff_final.mp
      (ends.weaken (fun _ _ => kept) (fun _ _ => kept))
  · intro evicted next run
    have known := (stores_iff_of_seat seat).mp stored
    obtain ⟨journal, outcome⟩ := ends_of_run_ok ends run
    refine ⟨?_, outcome.fresh known⟩
    refine Bool.eq_false_iff.mpr fun answered => ?_
    have full := (outcome.evicted_iff.mp answered).1
    exact (Shard.isFullFor_iff.mp full).1 known

/-- One entry on either shard, which is all that they hold. -/
def crowded : List (Operation NameTag) :=
  [.act (.write ⟨"d", none, []⟩), .act (.write ⟨"a", none, []⟩)]

/-- A value that was fetched under another name than its own evicts an entry; a
stored key is written again without harm to the other. -/
theorem capacity_bound_crowded :
    let settings := Settings.tight 10
    let cache := operate settings (empty settings fun _ => []) crowded
    let fetched : Writing NameTag := .fetched .byOwnKey "x" ⟨"e", []⟩
    let rewritten : Writing NameTag := .given ⟨"d", some ⟨"d", []⟩, []⟩
    settings.Valid ∧ cache.size ≤ 2 ∧
      result? (fetched.write settings) cache = some true ∧
        ¬ cache.Stores (cache.route "e") "e" ∧
          (final (rewritten.write settings) cache).Stores 1 "a" := by
  intro settings cache fetched rewritten
  have valid : settings.Valid := by decide
  have returned : result? (fetched.write settings) cache = some true := by
    decide +kernel
  obtain ⟨_, size, writes⟩ :=
    capacity_bound valid (fun _ => []) crowded
  have evicted := ((writes fetched).1 true _ (run_of_result? returned)).mp rfl
  have kept := (writes rewritten).2 (by decide +kernel)
  exact ⟨valid, size, returned, evicted.1,
    (kept.1 1 "a").mpr (by decide +kernel)⟩

end Cache

end ReadThrough
