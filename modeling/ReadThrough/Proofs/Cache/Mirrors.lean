import ReadThrough.Proofs.Cache.History

/-!
# Caches that mirror their history

As long as no name serves as the key of one write and as an alias of another
key, a cache `Mirrors` its history: what is stored are standing writes, and a
standing write is stored unless it expired before some sweep.

A cache goes on mirroring a history to which a deed is added that `Explains` all
that happened: what was stored meanwhile, and what is stored no longer.
-/

namespace ReadThrough.Cache

open Std (ExtTreeMap)

variable {Value : Type}

/-- An entry that is stored under a key, and the aliases that are bound to the
key, are what a draft asked for that was written at a reading of the clock. -/
structure Records
    (settings : Settings) (shard : Shard Value) (key : String)
    (entry : Entry Value) (draft : Draft Value) (wroteAt : Instant) :
    Prop where
  keyed : draft.key = key
  value : entry.value = draft.value
  expiresAt : entry.expiresAt = deadline wroteAt settings.timeToLive
  aliases : ∀ name : String, shard.keyOfAlias[name]? = some key ↔
    name ∈ draft.aliases ∧ name ≠ key

/-- Every registered name is an alias that some write of a history asked
for. -/
def Asked (cache : Cache Value) (history : List (Deed Value)) : Prop :=
  ∀ name place, cache.routes[name]? = some place →
    ∃ draft ∈ drafted history, name ∈ draft.aliases ∧ name ≠ draft.key

/-- What a cache stores is what stands in a history. -/
structure Mirrors
    (settings : Settings) (cache : Cache Value)
    (history : List (Deed Value)) : Prop where
  coherent : cache.Coherent
  asked : cache.Asked history
  /-- Stored entries are at home and record standing writes. -/
  stored : ∀ {index : Nat} {shard : Shard Value} {key : String}
    {entry : Entry Value},
    cache.shards[index]? = some shard → shard.entries[key]? = some entry →
      cache.route key = index ∧ ∃ draft wroteAt,
        Stands history draft wroteAt ∧
          Records settings shard key entry draft wroteAt
  /-- A standing write is stored, or else it had expired at a sweep. -/
  kept : ∀ {draft : Draft Value} {wroteAt : Instant},
    Stands history draft wroteAt →
      cache.Stores (cache.route draft.key) draft.key ∨
        ∃ instant ∈ sweepTimes history,
          deadline wroteAt settings.timeToLive < instant

section Records

variable {settings : Settings} {shard : Shard Value} {key name : String}
  {entry : Entry Value} {draft : Draft Value} {wroteAt : Instant}

theorem Records.mem_names
    (records : Records settings shard key entry draft wroteAt)
    (leads : shard.primary name = key) : name ∈ draft.names := by
  rw [Shard.primary] at leads
  split at leads
  · rw [leads, ← records.keyed]
    exact List.mem_cons_self
  · cases bound : shard.keyOfAlias[name]? with
    | none =>
        rw [bound, Option.getD_none] at leads
        rw [leads, ← records.keyed]
        exact List.mem_cons_self
    | some owner =>
        rw [bound, Option.getD_some] at leads
        rw [leads] at bound
        exact List.mem_cons_of_mem _ ((records.aliases name).mp bound).1

theorem records_of_upsert
    (coherent : shard.Coherent) (keyed : entry.key = draft.key)
    (value : entry.value = draft.value)
    (expiresAt : entry.expiresAt = deadline wroteAt settings.timeToLive) :
    Records settings (shard.upsert entry draft.aliases) draft.key entry
      draft wroteAt where
  keyed := rfl
  value := value
  expiresAt := expiresAt
  aliases name := by
    rw [Shard.getElem?_keyOfAlias_upsert coherent, keyed]
    by_cases asked : name ∈ Shard.boundAliases draft.key draft.aliases
    · simpa [asked] using Shard.mem_boundAliases.mp asked
    · rw [if_neg asked, ← Shard.mem_boundAliases]
      simp [asked]

end Records

theorem route_of_unregistered
    {cache : Cache Value} {name : String}
    (unregistered : cache.routes[name]? = none) :
    cache.route name =
      (Xxh3.hashText name).toNat % cache.shards.size := by
  rw [route, unregistered, Option.getD_none]

section Mirrors

variable {settings : Settings} {cache : Cache Value}
  {history : List (Deed Value)}

theorem Asked.append
    (asked : cache.Asked history) (later : List (Deed Value)) :
    cache.Asked (history ++ later) := by
  intro name place found
  obtain ⟨draft, member, isAlias⟩ := asked name place found
  rw [drafted_append]
  exact ⟨draft, List.mem_append_left _ member, isAlias⟩

/-- A key that was to be written is no alias of anything. -/
theorem Asked.unregistered
    (asked : cache.Asked history) (apart : NamesApart history)
    {draft : Draft Value} (wrote : draft ∈ drafted history) :
    cache.routes[draft.key]? = none := by
  cases found : cache.routes[draft.key]? with
  | none => rfl
  | some place =>
      obtain ⟨other, member, isAlias, different⟩ := asked _ _ found
      exact absurd (apart draft wrote other member isAlias) different

theorem Mirrors.route_of_stores
    (mirrors : Mirrors settings cache history)
    {index : Nat} {key : String} (storing : cache.Stores index key) :
    cache.route key = index := by
  obtain ⟨shard, seat, stored⟩ := storing
  have found := ExtTreeMap.getElem?_eq_some_getElem stored
  exact (mirrors.stored seat found).1

/-- Every name of a recorded draft leads to its entry. -/
theorem Mirrors.leads
    (mirrors : Mirrors settings cache history) (apart : NamesApart history)
    {index : Nat} {shard : Shard Value} {key name : String}
    {entry : Entry Value} {draft : Draft Value} {wroteAt : Instant}
    (seat : cache.shards[index]? = some shard)
    (found : shard.entries[key]? = some entry)
    (stands : Stands history draft wroteAt)
    (records : Records settings shard key entry draft wroteAt)
    (member : name ∈ draft.names) :
    cache.route name = index ∧ shard.primary name = key := by
  by_cases same : name = key
  · subst same
    exact ⟨(mirrors.stored seat found).1, by
      rw [Shard.primary, if_pos (Shard.stored_of_found found)]⟩
  · have asked : name ∈ draft.aliases := by
      rcases List.mem_cons.mp member with isKey | isAlias
      · exact absurd (isKey.trans records.keyed) same
      · exact isAlias
    have bound := (records.aliases name).mpr ⟨asked, same⟩
    refine ⟨route_of_registered (mirrors.coherent.routed seat bound), ?_⟩
    have free : name ∉ shard.entries := by
      intro storedToo
      -- Then the name would be the key of a standing write.
      obtain ⟨own, ownFound⟩ : ∃ own, shard.entries[name]? = some own :=
        ⟨_, ExtTreeMap.getElem?_eq_some_getElem storedToo⟩
      obtain ⟨_, other, otherAt, otherStands, otherRecords⟩ :=
        mirrors.stored seat ownFound
      have clash := apart other otherStands.mem draft stands.mem
        (otherRecords.keyed ▸ asked)
      rw [otherRecords.keyed, records.keyed] at clash
      exact same clash
    rw [Shard.primary, if_neg free, bound, Option.getD_some]

end Mirrors

/-! ## Inheritance -/

/-- An entry and the aliases of its key are what another shard has under the
key. -/
structure Inherits
    (shard old : Shard Value) (key : String) (entry earlier : Entry Value) :
    Prop where
  found : old.entries[key]? = some earlier
  value : entry.value = earlier.value
  expiresAt : entry.expiresAt = earlier.expiresAt
  aliases : ∀ name : String, shard.keyOfAlias[name]? = some key ↔
    old.keyOfAlias[name]? = some key

section Inherits

variable {old shard : Shard Value} {key : String} {entry : Entry Value}

theorem Inherits.refl (found : old.entries[key]? = some entry) :
    Inherits old old key entry entry :=
  ⟨found, rfl, rfl, fun _ => Iff.rfl⟩

theorem Inherits.trans
    {middle : Shard Value} {between earlier : Entry Value}
    (later : Inherits shard middle key entry between)
    (sooner : Inherits middle old key between earlier) :
    Inherits shard old key entry earlier :=
  ⟨sooner.found, later.value.trans sooner.value,
    later.expiresAt.trans sooner.expiresAt,
    fun name => (later.aliases name).trans (sooner.aliases name)⟩

theorem Inherits.records
    {settings : Settings} {earlier : Entry Value} {draft : Draft Value}
    {wroteAt : Instant} (inherits : Inherits shard old key entry earlier)
    (records : Records settings old key earlier draft wroteAt) :
    Records settings shard key entry draft wroteAt where
  keyed := records.keyed
  value := inherits.value.trans records.value
  expiresAt := inherits.expiresAt.trans records.expiresAt
  aliases name := (inherits.aliases name).trans (records.aliases name)

theorem inherits_of_alike
    (alike : old.Alike shard) (found : shard.entries[key]? = some entry) :
    ∃ earlier, Inherits shard old key entry earlier := by
  obtain ⟨earlier, earlierFound, same⟩ := alike.symm.stored found
  obtain ⟨_, value, expiresAt⟩ := Entry.settled_eq_iff.mp same
  refine ⟨earlier, earlierFound, value.symm, expiresAt.symm, ?_⟩
  intro name
  rw [alike.keyOfAlias]

theorem inherits_of_removes
    {keys : List String} (coherent : old.Coherent)
    (alike : (old.eraseAll keys).Alike shard)
    (found : shard.entries[key]? = some entry) :
    key ∉ keys ∧ ∃ earlier, Inherits shard old key entry earlier := by
  obtain ⟨earlier, inherits⟩ := inherits_of_alike alike found
  have earlierFound := inherits.found
  rw [Shard.getElem?_entries_eraseAll] at earlierFound
  split at earlierFound
  · cases earlierFound
  next kept =>
    refine ⟨kept, earlier, earlierFound, inherits.value,
      inherits.expiresAt, fun name => ?_⟩
    rw [inherits.aliases, Shard.keyOfAlias_eraseAll_eq_some_iff coherent]
    exact and_iff_left kept

/-- Writing an entry leaves the entries under other keys alone, and takes no
alias from them if none was theirs. -/
theorem inherits_of_upsert
    {written : Entry Value} {aliases : List String}
    (coherent : old.Coherent) (different : key ≠ written.key)
    (free : ∀ name ∈ aliases, name ≠ written.key →
      old.keyOfAlias[name]? ≠ some key)
    (found : (old.upsert written aliases).entries[key]? = some entry) :
    Inherits (old.upsert written aliases) old key entry entry := by
  have keptEntry : old.entries[key]? = some entry := by
    have apart : compare written.key key ≠ .eq := by
      rw [ne_eq, Std.compare_eq_iff_eq]
      exact different.symm
    rwa [Shard.entries_upsert, ExtTreeMap.getElem?_insert, if_neg apart]
      at found
  refine ⟨keptEntry, rfl, rfl, ?_⟩
  intro name
  rw [Shard.getElem?_keyOfAlias_upsert coherent]
  by_cases asked : name ∈ Shard.boundAliases written.key aliases
  · have member := Shard.mem_boundAliases.mp asked
    rw [if_pos asked]
    constructor
    · intro bound
      exact absurd (Option.some.inj bound).symm different
    · intro bound
      exact absurd bound (free name member.1 member.2)
  · rw [if_neg asked]
    split
    next bound => simp [bound, different.symm]
    next => exact Iff.rfl

/-- What a shard stores under another key than the one that was written to it, it
stored before it made room. -/
theorem inherits_of_written
    {roomy : Shard Value} {written : Entry Value} {aliases keys : List String}
    {ownKey : String} (coherent : old.Coherent)
    (alike : (old.eraseAll keys).Alike roomy)
    (keyed : written.key = ownKey)
    (free : ∀ name ∈ aliases, name ≠ ownKey → ∀ owner : String,
      old.keyOfAlias[name]? = some owner → owner = ownKey)
    (different : key ≠ ownKey)
    (found : (roomy.upsert written aliases).entries[key]? = some entry) :
    key ∉ keys ∧ ∃ earlier,
      Inherits (roomy.upsert written aliases) old key entry earlier := by
  subst keyed
  have roomyCoherent := alike.coherent (coherent.eraseAll keys)
  have freeInRoomy : ∀ name ∈ aliases, name ≠ written.key →
      roomy.keyOfAlias[name]? ≠ some key := by
    intro name asked apart bound
    rw [alike.keyOfAlias,
      Shard.keyOfAlias_eraseAll_eq_some_iff coherent] at bound
    exact different (free name asked apart key bound.1)
  have later := inherits_of_upsert roomyCoherent different freeInRoomy found
  obtain ⟨kept, earlier, sooner⟩ :=
    inherits_of_removes coherent alike later.found
  exact ⟨kept, earlier, later.trans sooner⟩

end Inherits

/-! ## Going on with a history -/

/-- A deed tells readers everything about the way from one cache to another. -/
structure Explains
    (settings : Settings) (history : List (Deed Value)) (deed : Deed Value)
    (before after : Cache Value) : Prop where
  size : after.shards.size = before.shards.size
  routes : ∀ {name : String} {place : Nat},
    after.routes[name]? = some place → before.routes[name]? = some place ∨
      ∃ draft completed evicted, deed = .wrote draft completed evicted ∧
        name ∈ draft.aliases ∧ name ≠ draft.key
  /-- What is stored was written by the deed, or was stored before and is not
  revoked. -/
  arrivals : ∀ {index : Nat} {shard : Shard Value} {key : String}
    {entry : Entry Value},
    after.shards[index]? = some shard → shard.entries[key]? = some entry →
      (∃ draft wroteAt evicted,
        deed = .wrote draft (some wroteAt) evicted ∧
          before.route key = index ∧
            Records settings shard key entry draft wroteAt) ∨
      ∃ old earlier, before.shards[index]? = some old ∧
        Inherits shard old key entry earlier ∧
          ∀ draft wroteAt, Stands history draft wroteAt →
            Records settings old key earlier draft wroteAt →
              ¬ deed.Revokes draft
  /-- What is no longer stored is revoked, or was swept when it had expired. -/
  departures : ∀ {index : Nat} {shard : Shard Value} {key : String}
    {entry : Entry Value} {draft : Draft Value} {wroteAt : Instant},
    before.shards[index]? = some shard →
      shard.entries[key]? = some entry →
        Records settings shard key entry draft wroteAt →
          ¬ after.Stores index key →
            deed.Revokes draft ∨ ∃ instant, deed = .swept instant ∧
              deadline wroteAt settings.timeToLive < instant
  completed : ∀ {draft : Draft Value} {wroteAt : Instant}
    {evicted : List String}, deed = .wrote draft (some wroteAt) evicted →
      after.Stores (after.route draft.key) draft.key

section Extension

variable {settings : Settings} {before after : Cache Value}
  {history : List (Deed Value)} {deed : Deed Value}

theorem Explains.asked
    (explains : Explains settings history deed before after)
    (asked : before.Asked history) : after.Asked (history ++ [deed]) := by
  intro name place found
  rcases explains.routes found with earlier | ⟨draft, completed, evicted,
    wrote, isAlias⟩
  · exact asked.append [deed] name place earlier
  · have member : draft ∈ drafted (history ++ [deed]) := by
      simp [drafted, wrote]
    exact ⟨draft, member, isAlias⟩

/-- A write that stood and is not revoked is still stored, or else it had
expired at a sweep. -/
theorem Mirrors.kept_of_explains
    (mirrors : Mirrors settings before history)
    (explains : Explains settings history deed before after)
    {draft : Draft Value} {wroteAt : Instant}
    (stood : Stands history draft wroteAt)
    (unrevoked : ¬ deed.Revokes draft) :
    after.Stores (before.route draft.key) draft.key ∨
      ∃ instant ∈ sweepTimes (history ++ [deed]),
        deadline wroteAt settings.timeToLive < instant := by
  by_cases still : after.Stores (before.route draft.key) draft.key
  · exact Or.inl still
  rcases mirrors.kept stood with ⟨shard, seat, member⟩ |
    ⟨instant, swept, late⟩
  · have found := ExtTreeMap.getElem?_eq_some_getElem member
    obtain ⟨_, other, otherAt, otherStands, records⟩ :=
      mirrors.stored seat found
    obtain ⟨rfl, rfl⟩ := otherStands.unique stood records.keyed
    rcases explains.departures seat found records still with revoked |
      ⟨instant, swept, late⟩
    · exact absurd revoked unrevoked
    · have member : instant ∈ sweepTimes (history ++ [deed]) := by
        simp [sweepTimes, swept]
      exact Or.inr ⟨instant, member, late⟩
  · rw [sweepTimes_append]
    exact Or.inr ⟨instant, List.mem_append_left _ swept, late⟩

/-- A cache goes on mirroring a history to which the deed is added that explains
it. -/
theorem Mirrors.extend
    (mirrors : Mirrors settings before history)
    (apart : NamesApart (history ++ [deed])) (coherent : after.Coherent)
    (explains : Explains settings history deed before after) :
    Mirrors settings after (history ++ [deed]) := by
  have asked := explains.asked mirrors.asked
  -- The keys of all writes, the last one included, are routed by their hashes
  -- before and after.
  have sameRoute : ∀ {draft : Draft Value} {wroteAt : Instant},
      Stands (history ++ [deed]) draft wroteAt →
        after.route draft.key = before.route draft.key := by
    intro draft wroteAt stands
    have askedBefore := mirrors.asked.append [deed]
    rw [route_of_unregistered (asked.unregistered apart stands.mem),
      route_of_unregistered (askedBefore.unregistered apart stands.mem),
      explains.size]
  refine ⟨coherent, asked, ?_, ?_⟩
  · intro index shard key entry seat found
    rcases explains.arrivals seat found with ⟨draft, wroteAt, evicted, wrote,
      home, records⟩ | ⟨old, earlier, oldSeat, inherits, unrevoked⟩
    · have stands : Stands (history ++ [deed]) draft wroteAt :=
        stands_append_iff.mpr (Or.inl ⟨evicted, wrote⟩)
      have kept := sameRoute stands
      rw [records.keyed] at kept
      exact ⟨kept.trans home, draft, wroteAt, stands, records⟩
    · obtain ⟨home, draft, wroteAt, stood, records⟩ :=
        mirrors.stored oldSeat inherits.found
      have stands : Stands (history ++ [deed]) draft wroteAt :=
        stands_append_iff.mpr
          (Or.inr ⟨stood, unrevoked draft wroteAt stood records⟩)
      have kept := sameRoute stands
      rw [records.keyed] at kept
      exact ⟨kept.trans home, draft, wroteAt, stands,
        inherits.records records⟩
  · intro draft wroteAt stands
    rcases stands_append_iff.mp stands with ⟨evicted, wrote⟩ | ⟨stood, kept⟩
    · exact Or.inl (explains.completed wrote)
    · rw [sameRoute stands]
      exact mirrors.kept_of_explains explains stood kept

end Extension

end ReadThrough.Cache
